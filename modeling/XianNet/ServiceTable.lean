import Mathlib.Data.Multiset.Range
import XianNet.Interleaving.History
import XianNet.ServiceLaws

/-!
# The service table

Every service object is added to the table once. Its id comes from a 32-bit
counter, and `emplace` keeps the entry that is already there: after 2^32
services an id that is still in use is handed out again, and the new service
is not the one it finds (`not_found_after_wrap`). As long as every id is free
when it is handed out, the table is exact (`found_until_erased`).
-/

namespace XianNet

open Interleaving

variable {σ : Shared} {C : State → Label → Prop} {s s' : State} {tr : List Label}

-- ---------------------------------------------------------------------------
-- Each service is added once
-- ---------------------------------------------------------------------------

/-- `NewService` is about to add the service. -/
def Frame.adds : Frame → Option ServiceRef
  | .addService r => some r
  | _ => none

def Op.added : Op → List ServiceRef
  | .addService r => [r]
  | _ => []

/-- The services that were added, in order. -/
def added (tr : List Label) : List ServiceRef := tr.flatMap (·.op.added)

theorem mem_added_append (h : r ∈ added tr) : r ∈ added (tr ++ tr') := by
  rw [added, List.flatMap_append]
  exact List.mem_append_left _ h

/-- A step, as far as the creation of services goes. -/
inductive CreationStep (σ : Shared) : Frame → Op → List Frame → Prop
  | created : fs.filterMap Frame.adds = [σ.allocated] → f.adds = none →
      CreationStep σ f (.newService service) fs
  | added : CreationStep σ (.addService r) (.addService r) []
  | other : (∀ service, op ≠ .newService service) → op.added = [] → f.adds = none →
      fs.filterMap Frame.adds = [] → CreationStep σ f op fs

section
attribute [local simp] Frame.adds Op.added

theorem step_creation (h : Frame.step σ f c = some (op, fs)) : CreationStep σ f op fs := by
  cases Frame.step_inv h with
  | worker hs =>
    cases hs with
    | block hb => cases hb <;> exact .other (by simp) rfl rfl rfl
    | _ => exact .other (by simp) rfl rfl rfl
  | send hs =>
    cases hs with
    | wakeUp hw => cases hw <;> exact .other (by simp) rfl rfl rfl
    | _ => exact .other (by simp) rfl rfl rfl
  | service hs =>
    cases hs with
    | addService => exact .added
    | newScriptService | newGatewayService | jsNewService => exact .created rfl rfl
    | handler hfs =>
      obtain ⟨g, rfl, hg, -⟩ := handlerFrames_method hfs
      cases g <;> cases hg <;> exact .other (by simp) rfl rfl rfl
    | processServiceMessage =>
      refine .other (by simp) rfl rfl (List.filterMap_eq_nil_iff.mpr fun g hg => ?_)
      rw [processServiceMessageFrames_calls hg]
      rfl
    | processSocketRwMessage =>
      refine .other (by simp) rfl rfl (List.filterMap_eq_nil_iff.mpr fun g hg => ?_)
      obtain ⟨pc, rfl⟩ := processSocketRwMessageFrames_calls hg
      rfl
    | onInitialization | onExit =>
      refine .other (by simp) rfl rfl ?_
      simp only [onInitializationFrames, onExitFrames]
      split <;> rfl
    | _ => exact .other (by simp) rfl rfl rfl
  | socket hs =>
    cases hs with
    | event =>
      refine .other (by simp) rfl rfl (List.filterMap_eq_nil_iff.mpr fun g hg => ?_)
      rcases eventFrames_cases hg with ⟨-, -, rfl⟩ | ⟨-, rfl⟩ | rfl <;> rfl
    | _ => exact .other (by simp) rfl rfl rfl
  | network hs | accept hs | listen hs | close hs | gateway hs | modify hs =>
    cases hs <;> exact .other (by simp) rfl rfl rfl

end

theorem allocated_apply_of_ne {op : Op} (h : ∀ service, op ≠ .newService service) :
    (σ.apply op).allocated = σ.allocated := by
  cases op with
  | newService service => exact absurd rfl (h service)
  | _ => rfl

theorem added_step {A : Multiset ServiceRef} {f : Frame} {R : Multiset Frame}
    (hi : (f ::ₘ R).filterMap Frame.adds + A = Multiset.range σ.allocated)
    (h : Frame.step σ f c = some (op, fs)) :
    ((fs : Multiset Frame) + R).filterMap Frame.adds + (A + op.added) =
      Multiset.range (σ.apply op).allocated := by
  rw [Multiset.filterMap_add, Multiset.filterMap_coe]
  cases step_creation h with
  | created hfs hf =>
    rw [Multiset.filterMap_cons_none _ _ hf] at hi
    show _ = Multiset.range (σ.allocated + 1)
    rw [hfs, Multiset.range_succ, ← hi]
    simp [Op.added]
  | @added r =>
    have hf : (Frame.addService r).adds = some r := rfl
    rw [Multiset.filterMap_cons_some _ _ _ hf] at hi
    show _ = Multiset.range σ.allocated
    rw [← hi]
    simp only [List.filterMap_nil, Multiset.coe_nil, zero_add, Op.added, Multiset.coe_singleton]
    rw [← Multiset.singleton_add, ← add_assoc, add_comm, add_assoc]
  | other hop hadded hf hfs =>
    rw [Multiset.filterMap_cons_none _ _ hf] at hi
    rw [hfs, hadded, allocated_apply_of_ne hop, Multiset.coe_nil, zero_add, add_zero, hi]

/-- The services created are those that were added and those about to be. -/
theorem Exec.added_once (h : system.Exec C (initial n p k) tr s) :
    s.frames.filterMap Frame.adds + (added tr : Multiset ServiceRef) =
      Multiset.range s.shared.allocated := by
  refine h.invariant (I := fun tr σ F => F.filterMap Frame.adds + (added tr : Multiset ServiceRef) =
    Multiset.range σ.allocated) ?_ ?_
  · have hzero : (initial n p k).frames.filterMap Frame.adds = 0 :=
      filterMap_initial fun f hf => by
        rcases mem_initial_frames hf with ⟨i, -, rfl⟩ | rfl | rfl | rfl <;> rfl
    rw [hzero]
    rfl
  · intro tr s l fs R _ _ _ hm hi
    have hadded : added (tr ++ [l]) = added tr ++ l.op.added := by simp [added]
    rw [hadded, ← Multiset.coe_add]
    exact added_step hi hm

theorem Exec.added_nodup (h : system.Exec C (initial n p k) tr s) : (added tr).Nodup := by
  have hle : (added tr : Multiset ServiceRef) ≤ Multiset.range s.shared.allocated := by
    rw [← Exec.added_once h]
    exact Multiset.le_add_left _ _
  exact Multiset.coe_nodup.mp (Multiset.nodup_of_le hle (Multiset.nodup_range _))

theorem Exec.added_lt (h : system.Exec C (initial n p k) tr s) (hr : r ∈ added tr) :
    r < s.shared.allocated := by
  rw [← Multiset.mem_range, ← Exec.added_once h]
  exact Multiset.mem_add.mpr (.inr hr)

/-- Nobody is about to add a service again. -/
theorem Exec.not_adding (h : system.Exec C (initial n p k) tr s) (hr : r ∈ added tr) :
    .addService r ∉ s.frames := by
  intro hf
  have hnodup := Multiset.nodup_range s.shared.allocated
  rw [← Exec.added_once h] at hnodup
  exact Multiset.disjoint_left.mp (Multiset.disjoint_of_nodup_add hnodup)
    ((Multiset.mem_filterMap _ _).mpr ⟨_, hf, rfl⟩) hr

theorem addService_op (h : Frame.step σ f c = some (.addService r, fs)) : f = .addService r := by
  cases step_creation h with
  | added => rfl
  | other _ hop => cases hop

-- ---------------------------------------------------------------------------
-- Ids
-- ---------------------------------------------------------------------------

theorem id_apply {op : Op} (hr : r < σ.allocated) (hop : r ∉ op.added) :
    ((σ.apply op).services r).id = (σ.services r).id := by
  cases op with
  | newService => simp [Shared.apply, Nat.ne_of_lt hr]
  | addService r' =>
    simp only [Op.added, List.mem_singleton] at hop
    simp [Shared.apply, Shared.addService, services_updateService, hop]
  | pushMessage | popMessage | raiseFlag | clearFlag | setFunctions | setExisting | setServiceId =>
    simp only [Shared.apply, services_updateService]
    split <;> simp [*]
  | _ => rfl

theorem id_addService : ((σ.addService r).services r).id = σ.serviceMap.autoIncrementId := by
  simp [Shared.addService]

theorem op_of_added {op : Op} (h : op.added = [r]) : op = .addService r := by
  cases op <;> cases h
  rfl

theorem find_serviceMap_id {op : Op} {target : UInt32}
    (hfind : (σ.apply op).serviceMap.find target = some r) :
    σ.serviceMap.find target = some r ∨
      (op.added = [r] ∧ target = σ.serviceMap.autoIncrementId) := by
  cases op with
  | addService r' =>
    simp only [Shared.apply, Shared.addService, RwlockUnorderedMap.find_emplace] at hfind
    split at hfind
    · rename_i hnew
      cases hfind
      exact .inr ⟨rfl, hnew.1⟩
    · exact .inl hfind
  | eraseService target' =>
    simp only [Shared.apply, RwlockUnorderedMap.find_erase] at hfind
    split at hfind
    · cases hfind
    · exact .inl hfind
  | _ => exact .inl hfind

/-- The id of a service that was added stays. -/
theorem Exec.id_step (h : system.Exec C (initial n p k) tr s) (hr : r ∈ added tr)
    (hf : f ∈ s.frames) (hm : Frame.step s.shared f c = some (op, fs)) :
    ((s.shared.apply op).services r).id = (s.shared.services r).id := by
  refine id_apply (Exec.added_lt h hr) fun hop => ?_
  cases op with
  | addService r' =>
    rw [addService_op hm, ← List.mem_singleton.mp hop] at hf
    exact Exec.not_adding h hr hf
  | _ => cases hop

/-- The table has every service under its id. -/
theorem Exec.mapped (h : system.Exec C (initial n p k) tr s) :
    ∀ target r, s.shared.serviceMap.find target = some r →
      (s.shared.services r).id = target ∧ r ∈ added tr := by
  refine h.invariant (I := fun tr σ _ => ∀ target r, σ.serviceMap.find target = some r →
    (σ.services r).id = target ∧ r ∈ added tr) ?_ ?_
  · intro target r hfind; cases hfind
  · intro tr s l fs R hr _ hF hm hi target r hfind
    rcases find_serviceMap_id hfind with hfind | ⟨hop, rfl⟩
    · obtain ⟨hid, hadded⟩ := hi target r hfind
      have hf : l.frame ∈ s.frames := by rw [hF]; exact Multiset.mem_cons_self _ R
      have hkept := Exec.id_step hr hadded hf hm
      exact ⟨hkept.trans hid, mem_added_append hadded⟩
    · refine ⟨?_, by simp [added, hop]⟩
      rw [op_of_added hop]
      exact id_addService

/-- `AddService` hands out an id that no service in the table has. -/
def FreshId (s : State) (l : Label) : Prop :=
  l.op.added ≠ [] → s.shared.serviceMap.find s.shared.serviceMap.autoIncrementId = none

instance (s : State) (l : Label) : Decidable (FreshId s l) := by
  unfold FreshId; infer_instance

/-- The service was added and its id was not erased since. -/
def Alive (tr : List Label) (s : State) (r : ServiceRef) : Prop :=
  ∃ tr₁ l tr₂, tr = tr₁ ++ l :: tr₂ ∧ l.op = .addService r ∧
    ∀ l' ∈ tr₂, l'.op ≠ .eraseService (s.shared.services r).id

/-- A service is not added again. -/
theorem Exec.added_after (h : system.Exec C (initial n p k) (tr₁ ++ l :: tr₂) s)
    (hop : l.op = .addService r) : r ∉ added tr₂ := by
  have hnodup := Exec.added_nodup h
  rw [added, List.flatMap_append, List.flatMap_cons, hop, Op.added] at hnodup
  exact (List.nodup_cons.mp (List.nodup_append.mp hnodup).2.1).1

theorem id_exec (h : system.Exec C s tr s') (hlt : r < s.shared.allocated) (hnew : r ∉ added tr) :
    r < s'.shared.allocated ∧ (s'.shared.services r).id = (s.shared.services r).id := by
  induction h with
  | refl => exact ⟨hlt, rfl⟩
  | @step tr s₁ l s₂ h _ hs ih =>
    simp only [added, List.flatMap_append, List.flatMap_singleton, List.mem_append, not_or] at hnew
    obtain ⟨hlt₁, hid⟩ := ih hnew.1
    obtain ⟨fs, R, -, -, -, hsh⟩ := hs.frames
    rw [hsh]
    exact ⟨hlt₁.trans_le (allocated_le_apply ..), (id_apply hlt₁ hnew.2).trans hid⟩

theorem find_exec {target : UInt32} (h : system.Exec C s tr s')
    (hfind : s.shared.serviceMap.find target = some r)
    (hkeep : ∀ l ∈ tr, l.op ≠ .eraseService target) :
    s'.shared.serviceMap.find target = some r := by
  induction h with
  | refl => exact hfind
  | @step tr s₁ l s₂ h _ hs ih =>
    obtain ⟨fs, R, -, -, -, hsh⟩ := hs.frames
    rw [hsh]
    exact find_serviceMap_stays (ih fun l hl => hkeep l (List.mem_append_left _ hl))
      (hkeep l (by simp))

theorem find_addService (h : σ.serviceMap.find σ.serviceMap.autoIncrementId = none) :
    (σ.addService r).serviceMap.find σ.serviceMap.autoIncrementId = some r := by
  simp [Shared.addService, RwlockUnorderedMap.find_emplace, h]

theorem Alive.found (h : system.Exec FreshId (initial n p k) tr s) (ha : Alive tr s r) :
    s.shared.serviceMap.find (s.shared.services r).id = some r := by
  obtain ⟨tr₁, l, tr₂, rfl, hop, hkeep⟩ := ha
  have hnew := Exec.added_after h hop
  obtain ⟨s₁, h₁, h₂⟩ := h.split
  obtain ⟨s₂, hfresh, hs, h₂⟩ := h₂.cons
  obtain ⟨fs, R, hm, hF, -, hsh⟩ := hs.frames
  have hlt : r < s₁.shared.allocated := by
    rw [hop] at hm
    exact (Reach.refsOk ⟨tr₁, h₁⟩).frames l.frame (by rw [hF]; simp) r
      ((step_known hm).1 r (List.mem_singleton_self r))
  have hnone := hfresh (by rw [hop]; simp [Op.added])
  have hsh : s₂.shared = s₁.shared.addService r := by rw [hsh, hop]; rfl
  obtain ⟨-, hid⟩ := id_exec h₂ (by rw [hsh]; exact hlt) hnew
  rw [hid] at hkeep ⊢
  refine find_exec h₂ ?_ hkeep
  rw [hsh, id_addService, find_addService hnone]

-- ---------------------------------------------------------------------------
-- The end of the id space
-- ---------------------------------------------------------------------------

theorem find_creation {target : UInt32} (h : σ.serviceMap.find target = some r) :
    ((σ.apply (.newService service)).addService r').serviceMap.find target = some r := by
  show ((σ.apply (.newService service)).apply (.addService r')).serviceMap.find target = some r
  exact find_serviceMap_stays (find_serviceMap_stays h nofun) nofun

/-- A caller creates one more gateway service. -/
theorem creates_gateway (hc : s.threads[3]? = some [.caller]) :
    ∃ l₁ l₂ l₃ s', system.Exec Any s [l₁, l₂, l₃] s' ∧ s'.threads[3]? = some [.caller] ∧
      l₂.op = .addService s.shared.allocated ∧ l₃.op = .silent ∧
      s'.shared = (s.shared.apply (.newService (newGateway "gateway" 0))).addService
        s.shared.allocated := by
  have hcall : system.step s.shared .caller (.newGatewayService "gateway" 0) =
      some (.newService (newGateway "gateway" 0),
        newServiceFrames s.shared.allocated ++ [.caller]) := rfl
  obtain ⟨s₁, hs₁, hsh₁, hc₁⟩ := Machine.exists_step hc hcall
  have hadd : system.step s₁.shared (.addService s.shared.allocated) .go =
      some (.addService s.shared.allocated, []) := rfl
  obtain ⟨s₂, hs₂, hsh₂, hc₂⟩ := Machine.exists_step hc₁ hadd
  have hcls : (s₂.shared.services s.shared.allocated).cls = .gateway := by
    rw [hsh₂, hsh₁]
    simp [system, Shared.apply, Shared.addService, newGateway]
  have hinit : system.step s₂.shared (.onInitialization s.shared.allocated) .go =
      some (.silent, []) := by
    simp [system, Frame.step, onInitializationFrames, hcls]
  obtain ⟨s₃, hs₃, hsh₃, hc₃⟩ := Machine.exists_step hc₂ hinit
  refine ⟨_, _, _, s₃, .step (.step (.single trivial hs₁) trivial hs₂) trivial hs₃, hc₃, rfl, rfl,
    ?_⟩
  rw [hsh₃, hsh₂, hsh₁]
  rfl

/-- A caller has created `j` gateway services. -/
structure Filled (j : Nat) (s : State) : Prop where
  run : system.Reach Any (initial 1 (fun i => 1 <<< i) 1) s
  caller : s.threads[3]? = some [.caller]
  allocated : s.shared.allocated = j
  nextId : s.shared.serviceMap.autoIncrementId = UInt32.ofNat j
  first : s.shared.serviceMap.find 0 = some 0

theorem exists_filled {j : Nat} (hj : 1 ≤ j) : ∃ s, Filled j s := by
  induction j, hj using Nat.le_induction with
  | base =>
    have h : ((system.run Any (initial 1 (fun i => 1 <<< i) 1) (creates 3)).any fun s =>
        s.threads[3]? = some [.caller] ∧ s.shared.allocated = 1 ∧
        s.shared.serviceMap.autoIncrementId = 1 ∧ s.shared.serviceMap.find 0 = some 0) = true := by
      decide +kernel
    obtain ⟨s, hs, hc, halloc, hnext, hfind⟩ := Machine.exists_of_run h
    exact ⟨s, hs, hc, halloc, hnext, hfind⟩
  | succ j _ ih =>
    obtain ⟨s, hrun, hc, halloc, hnext, hfind⟩ := ih
    obtain ⟨l₁, l₂, l₃, s', hexec, hc', -, -, hsh⟩ := creates_gateway hc
    refine ⟨s', hrun.exec hexec, hc', ?_, ?_, ?_⟩ <;> rw [hsh]
    · show s.shared.allocated + 1 = j + 1
      rw [halloc]
    · show s.shared.serviceMap.autoIncrementId + 1 = UInt32.ofNat (j + 1)
      rw [hnext, UInt32.ofNat_add]
      rfl
    · exact find_creation hfind

/-- Service number 2^32 gets the id 0 of the first service, which is still in
the table. -/
theorem not_found_after_wrap : ∃ tr s r, system.Exec Any (initial 1 (fun i => 1 <<< i) 1) tr s ∧
    Alive tr s r ∧ s.shared.serviceMap.find (s.shared.services r).id ≠ some r := by
  obtain ⟨s, ⟨tr, hrun⟩, hc, halloc, hnext, hfind⟩ := exists_filled (j := 2 ^ 32) (by decide)
  obtain ⟨l₁, l₂, l₃, s', hexec, -, hadd, hsilent, hsh⟩ := creates_gateway hc
  have hid : (s'.shared.services s.shared.allocated).id = 0 := by
    rw [hsh, id_addService]
    exact hnext
  refine ⟨tr ++ [l₁, l₂, l₃], s', s.shared.allocated, hrun.trans hexec,
    ⟨tr ++ [l₁], l₂, [l₃], by simp, hadd, ?_⟩, ?_⟩
  · intro l hl
    rw [List.mem_singleton.mp hl, hsilent]
    nofun
  · rw [hid, hsh, find_creation hfind, halloc]
    decide

/-- The table finds every service that is alive under its id, no two of them
share one, and a message to the id goes to the service, as long as every id
that is handed out is free. -/
theorem found_until_erased (h : system.Exec FreshId (initial n p k) tr s) (ha : Alive tr s r) :
    s.shared.serviceMap.find (s.shared.services r).id = some r ∧
      (∀ r', Alive tr s r' → (s.shared.services r').id = (s.shared.services r).id → r' = r) ∧
      ∀ m c, Frame.step s.shared (.send (.find (s.shared.services r).id m)) c =
        some (.silent, [.send (.pushMessage r m)]) := by
  have hfind := ha.found h
  refine ⟨hfind, ?_, ?_⟩
  · intro r' ha' hid
    have hfind' := ha'.found h
    rw [hid, hfind] at hfind'
    exact (Option.some.inj hfind').symm
  · intro m c
    simp [Frame.step, SendPc.step, hfind]

/-- The first service, right after `AddService`. -/
theorem found_until_erased_first : ∃ tr s,
    system.Exec FreshId (initial 1 (fun i => 1 <<< i) 1) tr s ∧ Alive tr s 0 ∧
      (s.shared.services 0).id = 0 ∧ s.shared.serviceMap.find 0 = some 0 := by
  have h : ((system.record FreshId (initial 1 (fun i => 1 <<< i) 1)
      [(3, .newGatewayService "gateway" 7)]).any fun r =>
      (system.next r.2 3 .go).any (fun r' => FreshId r.2 r'.1 ∧ r'.1.op.added = [0] ∧
        (r'.2.shared.services 0).id = 0) = true) = true := by
    decide +kernel
  obtain ⟨tr, s, hrun, h⟩ := Machine.exists_of_record h
  obtain ⟨l, s', hadd, -, -, hfresh, hop, hid⟩ := Machine.exists_of_next h
  have hrun' := Machine.Exec.step hrun hfresh hadd
  have halive : Alive (tr ++ [l]) s' 0 := ⟨tr, l, [], rfl, op_of_added hop, by simp⟩
  have hid : (s'.shared.services 0).id = 0 := hid
  refine ⟨tr ++ [l], s', hrun', halive, hid, ?_⟩
  rw [← (found_until_erased hrun' halive).1, hid]

end XianNet
