import XianNet.Server
import XianNet.ServiceTable

/-!
# The gateway

`Init` creates one gateway service and gives its id to the one call of
`Listen`, so every connection carries that id (`AimedAt`), and while ids are
not handed out twice every notification of the socket worker is pushed to the
gateway (`server_notifies_gateway`).
-/

namespace XianNet

open Interleaving

variable {cfg : Config} {σ : Shared} {s₀ s : ServerState} {tr : List ServerLabel} {id : UInt32}
variable {f : Frame} {fs : List Frame} {R : Multiset Frame} {op : Op} {c : Choice}

-- ---------------------------------------------------------------------------
-- The main thread's stack
-- ---------------------------------------------------------------------------

/-- A step of an ordinary frame. -/
theorem frame_step (h : ServerFrame.step cfg σ (.frame f) c = some (op, gs)) :
    ∃ fs, gs = fs.map .frame ∧ c.isForeign = false ∧ f ≠ .caller ∧
      Frame.step σ f c = some (op, fs) := by
  unfold ServerFrame.step at h
  split at h
  · rename_i heq; cases heq
  · cases h
  · rename_i hne heq
    cases heq
    split at h
    · cases h
    · rename_i hc
      obtain ⟨⟨op', fs⟩, hstep, heq⟩ := Option.map_eq_some_iff.mp h
      cases heq
      refine ⟨fs, rfl, Bool.eq_false_iff.mpr hc, ?_, hstep⟩
      rintro rfl
      exact hne rfl

/-- Above the main thread's own frame there are only calls. `AddService` of the
gateway is one of them, or over. -/
inductive MainStack (tr : List Label) : List ServerFrame → Prop
  | other (above : List Frame) : MainStack tr (above.map .frame)
  | main (above : List Frame) : (∀ gateway, pc = .listen gateway →
        .addService gateway ∈ above ∨ gateway ∈ added tr) →
      MainStack tr (above.map .frame ++ [.main pc])

theorem MainStack.append (h : MainStack tr' stack) : MainStack (tr' ++ more) stack := by
  cases h with
  | other => exact .other _
  | main _ hadd => exact .main _ fun gateway hpc => (hadd gateway hpc).imp_right mem_added_append

theorem MainStack.step {l : ServerLabel} (h : MainStack tr' (l.frame :: rest))
    (hstep : ServerFrame.step cfg σ l.frame l.choice = some (l.op, gs)) :
    MainStack (tr' ++ [l.map ServerFrame.toFrame]) (gs ++ rest) := by
  generalize hstack : l.frame :: rest = stack at h
  cases h with
  | other above =>
    obtain ⟨f, above', rfl, hf, rfl⟩ := List.map_eq_cons_iff.mp hstack.symm
    rw [← hf] at hstep
    obtain ⟨fs, rfl, -, -, -⟩ := frame_step hstep
    rw [← List.map_append]
    exact .other _
  | @main pc above hadd =>
    cases above with
    | nil =>
      obtain ⟨hf, rfl⟩ := List.cons.inj hstack
      rw [hf] at hstep
      rw [List.append_nil]
      have hmain : pc.step cfg σ l.choice = some (l.op, gs) := hstep
      generalize l.choice = c, l.op = op at hmain
      cases MainPc.step_cases hmain with
      | newScriptService => exact .main (newScriptServiceFrames σ.allocated) nofun
      | newGatewayService =>
        refine .main (newServiceFrames σ.allocated) fun gateway hpc => .inl ?_
        cases hpc
        exact List.mem_cons_self
      | listen => exact .main [.listen (.socket _ _)] nofun
    | cons f above =>
      obtain ⟨hf, rfl⟩ := List.cons.inj hstack
      rw [hf] at hstep
      obtain ⟨fs, rfl, -, -, hm⟩ := frame_step hstep
      show MainStack _ (fs.map .frame ++ (above.map .frame ++ [.main pc]))
      rw [← List.append_assoc, ← List.map_append]
      refine .main _ fun gateway hpc => ?_
      rcases hadd gateway hpc with hmem | hmem
      · rcases List.mem_cons.mp hmem with rfl | hmem
        · obtain ⟨hop, -⟩ := Prod.mk.inj (Option.some.inj hm)
          exact .inr (by simp [added, Label.map, ← hop, Op.added])
        · exact .inl (List.mem_append_right _ hmem)
      · exact .inr (mem_added_append hmem)

theorem Exec.mainStack (h0 : cfg.initial = some s₀) (h : (server cfg).Exec C s₀ tr s) :
    ∀ (t : Nat) stack, s.threads[t]? = some stack → MainStack (toSystem tr) stack := by
  refine h.stacks (I := fun tr _ _ stack => MainStack (toSystem tr) stack) ?_ ?_ ?_
  · intro t stack ht
    obtain ⟨workers, -, rfl⟩ := Option.map_eq_some_iff.mp h0
    have hmem := List.mem_of_getElem? ht
    simp only [List.mem_append, List.mem_map, List.mem_cons, List.not_mem_nil, or_false] at hmem
    rcases hmem with ⟨w, -, rfl⟩ | rfl | rfl | rfl
    · exact .other [.worker w .popFront]
    · exact .other [.socket .epollWait]
    · exact .other [.network]
    · exact .main [] nofun
  · intro tr s l gs rest _ _ _ hm hi
    rw [toSystem, List.map_append]
    exact hi.step hm
  · intro tr s l s' t stack _ _ _ _ _ hi
    rw [toSystem, List.map_append]
    exact hi.append

/-- `NewService` has added the gateway when the main thread goes on. -/
theorem Exec.gateway_added (h0 : cfg.initial = some s₀) (h : (server cfg).Exec C s₀ tr s)
    {t : Nat} {rest : List ServerFrame}
    (htop : s.threads[t]? = some (.main (.listen gateway) :: rest)) :
    gateway ∈ added (toSystem tr) := by
  have hstack := Exec.mainStack h0 h t _ htop
  generalize hs : ServerFrame.main (.listen gateway) :: rest = stack at hstack
  cases hstack with
  | other above => obtain ⟨f, above', -, heq, -⟩ := List.map_eq_cons_iff.mp hs.symm; cases heq
  | main above hadd =>
    cases above with
    | nil =>
      cases hs
      exact (hadd gateway rfl).resolve_left List.not_mem_nil
    | cons => cases hs

-- ---------------------------------------------------------------------------
-- Ids while there are enough
-- ---------------------------------------------------------------------------

/-- Ids are handed out in order, and none comes back. -/
theorem Exec.ids (h : system.Exec Contained (initial n p k) tr' s') :
    s'.shared.serviceMap.autoIncrementId = UInt32.ofNat (added tr').length ∧
      ∀ id, (s'.shared.serviceMap.find id).isSome → id.toNat < (added tr').length := by
  refine h.invariant (I := fun tr σ _ =>
    σ.serviceMap.autoIncrementId = UInt32.ofNat (added tr).length ∧
      ∀ id, (σ.serviceMap.find id).isSome → id.toNat < (added tr).length) ⟨rfl, nofun⟩ ?_
  intro tr s l fs R _ hc _ _ ⟨hnext, hfound⟩
  have hforeign := hc.ops
  have hadded : added (tr ++ [l]) = added tr ++ l.op.added := by simp [added]
  rw [hadded]
  generalize l.op = op at hforeign
  cases op with
  | addService r =>
    simp only [Op.added, List.length_append, List.length_singleton]
    show s.shared.serviceMap.autoIncrementId + 1 = _ ∧ _
    refine ⟨by rw [hnext, UInt32.ofNat_add]; rfl, fun id hid => ?_⟩
    obtain ⟨r', hid⟩ := Option.isSome_iff_exists.mp hid
    have hid : (s.shared.apply (.addService r)).serviceMap.find id = some r' := hid
    rcases find_serviceMap_id hid with hid | ⟨-, rfl⟩
    · exact Nat.lt_succ_of_lt (hfound id (by rw [hid, Option.isSome_some]))
    · rw [hnext, UInt32.toNat_ofNat']
      exact Nat.lt_succ_of_le (Nat.mod_le _ _)
  | eraseService => cases hforeign
  | _ =>
    simp only [Op.added, List.append_nil]
    exact ⟨hnext, hfound⟩

theorem Exec.added_length (h : system.Exec C (initial n p k) tr' s')
    (hadd : .addService r ∈ s'.frames) : (added tr').length < s'.shared.allocated := by
  have hcard := congrArg Multiset.card (Exec.added_once h)
  have hpos : 0 < (s'.frames.filterMap Frame.adds).card :=
    Multiset.card_pos_iff_exists_mem.mpr ⟨r, (Multiset.mem_filterMap _ _).mpr ⟨_, hadd, rfl⟩⟩
  rw [Multiset.card_add, Multiset.card_range, Multiset.coe_card] at hcard
  omega

theorem op_of_mem_added (h : r ∈ op.added) : op = .addService r := by
  cases op with
  | addService => rw [List.mem_singleton.mp h]
  | _ => cases h

/-- Up to 2^32 services, every id that is handed out is free. -/
theorem Exec.freshId (h : system.Exec Contained (initial n p k) tr' s')
    (h32 : s'.shared.allocated ≤ 2 ^ 32) : system.Exec FreshId (initial n p k) tr' s' := by
  induction h with
  | refl => exact .refl _
  | @step tr s₁ l s₂ hr hc hs ih =>
    obtain ⟨fs, R, hm, hF, -, hsh⟩ := hs.frames
    have hle : s₁.shared.allocated ≤ s₂.shared.allocated := by
      rw [hsh]
      exact allocated_le_apply _ _
    refine .step (ih (hle.trans h32)) (fun hop => ?_) hs
    obtain ⟨r, hr'⟩ := List.exists_mem_of_ne_nil _ hop
    rw [op_of_mem_added hr'] at hm
    have hlt := Exec.added_length hr (r := r) (by
      rw [hF, addService_op hm]; exact Multiset.mem_cons_self _ R)
    obtain ⟨hnext, hfound⟩ := Exec.ids hr
    refine Option.eq_none_iff_forall_ne_some.mpr fun r' hfind => ?_
    have hid := hfound _ (by rw [hfind, Option.isSome_some])
    rw [hnext, UInt32.toNat_ofNat_of_lt' (by simp [UInt32.size]; omega)] at hid
    exact Nat.lt_irrefl _ hid

-- ---------------------------------------------------------------------------
-- The id of every connection
-- ---------------------------------------------------------------------------

/-- The service id that a frame goes on with, of a connection or for a
notification, is `id`. -/
def Frame.aimsAt (id : UInt32) : Frame → Prop
  | .listen (.socket _ id') | .listen (.bind _ _ id') | .listen (.listen _ id')
  | .listen (.addConnection _ id') => id' = id
  | .accept (.accept conn) | .accept (.addConnection _ conn) | .accept (.addEvent _ conn) =>
    conn.serviceId = id
  | .send (.find target m) => m.client.isSome → target = id
  | _ => True

structure AimedAt (id : UInt32) (σ : Shared) (F : Multiset Frame) : Prop where
  frames : ∀ f ∈ F, f.aimsAt id
  entries : ∀ key conn, σ.connectionMap.find key = some conn → conn.serviceId = id

theorem aimsAt_of_routine (hf : f.routine ∉ [.listen, .accept, .send]) : f.aimsAt id := by
  cases f with
  | listen | accept | send => simp [Frame.routine] at hf
  | _ => trivial

theorem aimsAt_new (hi : AimedAt id σ (f ::ₘ R)) (h : Frame.step σ f c = some (op, fs))
    (hcaller : f ≠ .caller) : ∀ g ∈ fs, g.aimsAt id := by
  intro g hg
  have hf := hi.frames f (Multiset.mem_cons_self f R)
  have hcall := (routine_step h g hg).1
  cases f with
  | caller => exact absurd rfl hcaller
  | script =>
    cases scriptStep_cases h with
    | jsSend =>
      rcases List.mem_pair.mp hg with rfl | rfl
      · exact nofun
      · trivial
    | jsNewService =>
      simp only [newScriptServiceFrames, List.cons_append, List.nil_append, List.mem_cons,
        List.not_mem_nil, or_false] at hg
      rcases hg with rfl | rfl | rfl | rfl <;> trivial
    | jsKill => rcases List.mem_pair.mp hg with rfl | rfl <;> trivial
    | jsSetServiceId => rw [List.mem_singleton.mp hg]; trivial
    | jsExports | jsReturn => cases hg
  | socket =>
    cases SocketPc.step_cases h with
    | event hfind =>
      rcases eventFrames_cases hg with ⟨-, -, rfl⟩ | ⟨-, rfl⟩ | rfl
      · exact hi.entries _ _ hfind
      · exact fun _ => hi.entries _ _ hfind
      · trivial
    | _ => rw [List.mem_singleton.mp hg]; trivial
  | accept =>
    cases AcceptPc.step_cases h with
    | added | notAdded => rw [List.mem_singleton.mp hg]; exact fun _ => hf
    | _ => rw [List.mem_singleton.mp hg]; exact hf
  | listen =>
    cases ListenPc.step_cases h with
    | opened | bound | listening => rw [List.mem_singleton.mp hg]; exact hf
    | ret => cases hg
    | _ => rw [List.mem_singleton.mp hg]; trivial
  | send =>
    cases SendPc.step_cases h with
    | unknown | lost => cases hg
    | wakeUp =>
      obtain ⟨p', -, rfl⟩ := List.mem_map.mp hg
      trivial
    | _ => rw [List.mem_singleton.mp hg]; trivial
  | _ =>
    refine aimsAt_of_routine fun hroutine => ?_
    simp only [List.mem_cons, List.not_mem_nil, or_false] at hroutine
    rcases hroutine with heq | heq | heq <;> rw [heq] at hcall <;>
      simp [Frame.routine, Routine.calls] at hcall

theorem AimedAt.step (hi : AimedAt id σ (f ::ₘ R)) (h : Frame.step σ f c = some (op, fs))
    (hcaller : f ≠ .caller) : AimedAt id (σ.apply op) ((fs : Multiset Frame) + R) := by
  have hf := hi.frames f (Multiset.mem_cons_self f R)
  constructor
  · intro g hg
    rcases Multiset.mem_add.mp hg with hg | hg
    · exact aimsAt_new hi h hcaller g hg
    · exact hi.frames g (Multiset.mem_cons_of_mem hg)
  · intro key conn hfind
    rcases find_connection_apply hfind with hfind | ⟨fd, rfl, -⟩
    · exact hi.entries key conn hfind
    · cases Frame.step_cases h with
      | accept hs => cases hs; exact hf
      | listen hs => cases hs; exact hf
      | network hs | socket hs | close hs | gateway hs | modify hs => cases hs
      | offline ho => cases ho.outside

-- ---------------------------------------------------------------------------
-- The one gateway
-- ---------------------------------------------------------------------------

/-- Of the services created so far, `gateway` is the only gateway service. -/
structure OnlyGateway (σ : Shared) (gateway : ServiceRef) : Prop where
  created : gateway < σ.allocated
  unique : ∀ r < σ.allocated, (σ.services r).cls = .gateway ↔ r = gateway

def OnlyScripts (σ : Shared) : Prop := ∀ r < σ.allocated, (σ.services r).cls = .script

theorem cls_apply {op : Op} (hlt : r < (σ.apply op).allocated) :
    (r < σ.allocated ∧ ((σ.apply op).services r).cls = (σ.services r).cls) ∨
      r = σ.allocated ∧ ∃ service, op = .newService service ∧
        ((σ.apply op).services r).cls = service.cls := by
  by_cases hold : r < σ.allocated
  · exact .inl ⟨hold, cls_stays hold⟩
  · cases op with
    | newService service =>
      have hlt : r < σ.allocated + 1 := hlt
      obtain rfl : r = σ.allocated := by omega
      exact .inr ⟨rfl, service, rfl, by simp [Shared.apply]⟩
    | _ => exact absurd hlt hold

/-- The operation creates no gateway. -/
def Op.createsScript (op : Op) : Prop := ∀ service, op = .newService service → service.cls = .script

theorem OnlyScripts.apply {op : Op} (hi : OnlyScripts σ) (hop : op.createsScript) :
    OnlyScripts (σ.apply op) := by
  intro r hlt
  rcases cls_apply hlt with ⟨hold, hcls⟩ | ⟨-, service, rfl, hcls⟩
  · exact hcls.trans (hi r hold)
  · exact hcls.trans (hop service rfl)

theorem OnlyGateway.apply {op : Op} (hi : OnlyGateway σ gateway) (hop : op.createsScript) :
    OnlyGateway (σ.apply op) gateway := by
  refine ⟨hi.created.trans_le (allocated_le_apply _ _), fun r hlt => ?_⟩
  rcases cls_apply hlt with ⟨hold, hcls⟩ | ⟨rfl, service, rfl, hcls⟩
  · rw [hcls]
    exact hi.unique r hold
  · rw [hcls, hop service rfl]
    exact ⟨nofun, fun h => absurd hi.created (by rw [h]; exact Nat.lt_irrefl _)⟩

theorem OnlyScripts.newGateway (hi : OnlyScripts σ) (hcls : service.cls = .gateway) :
    OnlyGateway (σ.apply (.newService service)) σ.allocated := by
  refine ⟨Nat.lt_succ_self _, fun r hlt => ?_⟩
  rcases cls_apply hlt with ⟨hold, hr⟩ | ⟨rfl, service', heq, hr⟩
  · rw [hr, hi r hold]
    exact ⟨nofun, fun h => absurd hold (by rw [h]; exact Nat.lt_irrefl _)⟩
  · cases heq
    rw [hr, hcls]
    exact ⟨fun _ => rfl, fun _ => rfl⟩

theorem createsScript_step (h : Frame.step σ f c = some (op, fs)) (hcaller : f ≠ .caller) :
    op.createsScript := by
  rintro service rfl
  cases Frame.step_inv h with
  | service hs =>
    cases hs with
    | jsNewService => rfl
    | newScriptService | newGatewayService => exact absurd rfl hcaller
  | worker hs =>
    cases hs with
    | block hb => cases hb
  | send hs =>
    cases hs with
    | wakeUp hw => cases hw
  | network hs | socket hs | accept hs | listen hs | close hs | gateway hs | modify hs => cases hs

/-- What is true when the main thread is at `pc`. -/
def MainPc.Meets (tr : List Label) (σ : Shared) (F : Multiset Frame) : MainPc → Prop
  | .newScriptService | .newGatewayService => OnlyScripts σ ∧ ∀ id, AimedAt id σ F
  | .listen gateway => OnlyGateway σ gateway ∧ ∀ id, AimedAt id σ F
  | .wait => ∃ gateway, OnlyGateway σ gateway ∧ gateway ∈ added tr ∧
      AimedAt (σ.services gateway).id σ F

/-- Only the call of `Listen` says where notifications go. -/
theorem AimedAt.main {pc : MainPc} (hi : AimedAt id σ (.caller ::ₘ R))
    (h : MainStep cfg σ pc c op gs)
    (hid : ∀ gateway, pc = .listen gateway → (σ.services gateway).id = id) :
    AimedAt id (σ.apply op) ((gs.map ServerFrame.toFrame : List Frame) + R) := by
  refine ⟨fun g hg => ?_, ?_⟩
  · rcases Multiset.mem_add.mp hg with hg | hg
    · cases h with
      | newScriptService =>
        simp only [newScriptServiceFrames, List.map_cons, List.map_nil,
          ServerFrame.toFrame, List.cons_append, List.nil_append, Multiset.mem_coe, List.mem_cons,
          List.not_mem_nil, or_false] at hg
        rcases hg with rfl | rfl | rfl | rfl <;> trivial
      | newGatewayService =>
        simp only [newServiceFrames, List.map_cons, List.map_nil,
          ServerFrame.toFrame, List.cons_append, List.nil_append, Multiset.mem_coe, List.mem_cons,
          List.not_mem_nil, or_false] at hg
        rcases hg with rfl | rfl | rfl <;> trivial
      | listen =>
        rcases List.mem_pair.mp hg with rfl | rfl
        · exact hid _ rfl
        · trivial
    · exact hi.frames g (Multiset.mem_cons_of_mem hg)
  · cases h <;> exact hi.entries

theorem MainPc.Meets.main {pc : MainPc} (hi : pc.Meets tr' σ (.caller ::ₘ R))
    (hadd : ∀ gateway, pc = .listen gateway → gateway ∈ added tr')
    (h : MainStep cfg σ pc c op gs) :
    ∃ pc', ∃ fs : List Frame, gs = fs.map ServerFrame.frame ++ [.main pc'] ∧
      pc'.Meets (tr' ++ more) (σ.apply op) ((gs.map ServerFrame.toFrame : List Frame) + R) := by
  cases h with
  | newScriptService =>
    obtain ⟨hscripts, haim⟩ := hi
    refine ⟨.newGatewayService, newScriptServiceFrames σ.allocated, rfl, hscripts.apply ?_,
      fun id => (haim id).main .newScriptService nofun⟩
    rintro service heq
    cases heq
    rfl
  | newGatewayService =>
    obtain ⟨hscripts, haim⟩ := hi
    exact ⟨.listen σ.allocated, newServiceFrames σ.allocated, rfl, hscripts.newGateway rfl,
      fun id => (haim id).main (@MainStep.newGatewayService cfg σ _) nofun⟩
  | @listen gateway =>
    obtain ⟨hone, haim⟩ := hi
    refine ⟨.wait, [.listen (.socket _ _)], rfl, gateway, hone, mem_added_append (hadd gateway rfl),
      (haim _).main .listen ?_⟩
    rintro gateway' heq
    cases heq
    rfl

theorem MainPc.Meets.frame {pc : MainPc} (hi : pc.Meets tr' σ (f ::ₘ R))
    (h : Frame.step σ f c = some (op, fs)) (hcaller : f ≠ .caller)
    (hid : ∀ r ∈ added tr', ((σ.apply op).services r).id = (σ.services r).id) :
    pc.Meets (tr' ++ more) (σ.apply op) ((fs : Multiset Frame) + R) := by
  have hop := createsScript_step h hcaller
  cases pc with
  | newScriptService | newGatewayService =>
    exact ⟨hi.1.apply hop, fun id => (hi.2 id).step h hcaller⟩
  | listen gateway => exact ⟨hi.1.apply hop, fun id => (hi.2 id).step h hcaller⟩
  | wait =>
    obtain ⟨gateway, hone, hadd, haim⟩ := hi
    refine ⟨gateway, hone.apply hop, mem_added_append hadd, ?_⟩
    rw [hid gateway hadd]
    exact haim.step h hcaller

def ServerFrame.mainPc : ServerFrame → Option MainPc
  | .main pc => some pc
  | .frame _ => none

theorem filterMap_mainPc (fs : List Frame) :
    (fs.map ServerFrame.frame).filterMap ServerFrame.mainPc = [] := by
  simp [ServerFrame.mainPc]

/-- There is one main thread. -/
theorem Exec.main (h0 : cfg.initial = some s₀) (h : (server cfg).Exec C s₀ tr s) :
    ∃ pc : MainPc, s.frames.filterMap ServerFrame.mainPc = {pc} ∧
      pc.Meets (toSystem tr) s.shared (s.frames.map ServerFrame.toFrame) := by
  induction h with
  | refl =>
    have haim : ∀ f ∈ s₀.toSystem.frames, ∀ id, f.aimsAt id := by
      intro f hf id
      rw [Config.initial_toSystem h0] at hf
      rcases mem_initial_frames hf with ⟨i, -, rfl⟩ | rfl | rfl | rfl <;> trivial
    rw [State.frames_map] at haim
    obtain ⟨workers, -, rfl⟩ := Option.map_eq_some_iff.mp h0
    refine ⟨.newScriptService, ?_, nofun, fun id => ⟨fun f hf => haim f hf id, nofun⟩⟩
    have hworkers : (workers.map fun w =>
        [ServerFrame.frame (.worker w .popFront)]).flatten.filterMap ServerFrame.mainPc = [] := by
      refine List.filterMap_eq_nil_iff.mpr fun f hf => ?_
      obtain ⟨stack, hstack, hf⟩ := List.mem_flatten.mp hf
      obtain ⟨w, -, rfl⟩ := List.mem_map.mp hstack
      rw [List.mem_singleton.mp hf]
      rfl
    rw [State.frames, Multiset.filterMap_coe, List.flatten_append, List.filterMap_append, hworkers]
    rfl
  | @step tr s₁ l s₂ hr hc hs ih =>
    obtain ⟨pc, hone, hpc⟩ := ih
    obtain ⟨rest, -, htop, -, -⟩ := Machine.Step.eq hs
    obtain ⟨gs, R, hm, hF, hF', hsh⟩ := hs.frames
    rw [hF', hsh, toSystem, List.map_append, Multiset.map_add, Multiset.map_coe,
      Multiset.filterMap_add, Multiset.filterMap_coe]
    have hsys := Exec.ofServer h0 hr
    have hmem : l.frame.toFrame ∈ (s₁.map ServerFrame.toFrame).frames := by
      rw [State.frames_map, hF, Multiset.map_cons]
      exact Multiset.mem_cons_self _ _
    rw [hF, Multiset.map_cons] at hpc
    rw [hF] at hone
    cases hf : l.frame with
    | main pc₀ =>
      rw [hf] at hm hone hpc htop
      rw [Multiset.filterMap_cons_some ServerFrame.mainPc _ _ rfl] at hone
      obtain ⟨heq, hnone⟩ := (Multiset.singleton_eq_cons_iff _).mp hone.symm
      subst heq
      obtain ⟨pc', fs, rfl, hmeets⟩ := MainPc.Meets.main hpc
        (fun gateway hgw => Exec.gateway_added h0 hr (hgw ▸ htop)) (MainPc.step_cases hm)
      exact ⟨pc', by simp [hnone, ServerFrame.mainPc], hmeets⟩
    | frame f =>
      rw [hf] at hm hone hpc hmem
      rw [Multiset.filterMap_cons_none _ _ rfl] at hone
      obtain ⟨fs, rfl, -, hcaller, hstep⟩ := frame_step hm
      rw [toFrame_map]
      rw [filterMap_mainPc, Multiset.coe_nil, zero_add, hone]
      refine ⟨pc, rfl, MainPc.Meets.frame hpc hstep hcaller fun r hadd => ?_⟩
      exact Exec.id_step hsys hadd hmem hstep

-- ---------------------------------------------------------------------------
-- Notifications
-- ---------------------------------------------------------------------------

theorem AimedAt.absurd (h : ∀ id, AimedAt id σ R) {P : Prop}
    (hsome : ∀ id, AimedAt id σ R → target = id) : P := by
  have h01 : (0 : UInt32) = 1 := (hsome 0 (h 0)).symm.trans (hsome 1 (h 1))
  cases h01

/-- Up to 2^32 services, every service that was added is found. -/
theorem Exec.found_added (h0 : cfg.initial = some s₀) (h : (server cfg).Exec C s₀ tr s)
    (h32 : s.shared.allocated ≤ 2 ^ 32) (hr : r ∈ added (toSystem tr)) :
    s.shared.serviceMap.find (s.shared.services r).id = some r := by
  have hrun := Exec.ofServer h0 h
  refine Alive.found (Exec.freshId hrun h32) ?_
  obtain ⟨l, hl, hop⟩ := List.mem_flatMap.mp hr
  obtain ⟨tr₁, tr₂, heq⟩ := List.append_of_mem hl
  refine ⟨tr₁, l, tr₂, heq, op_of_mem_added hop, fun l' hl' herase => ?_⟩
  have hforeign := Exec.ops_native (hrun.mono fun _ _ hc => hc.native) l'
    (heq ▸ List.mem_append_right _ (List.mem_cons_of_mem _ hl'))
  rw [herase] at hforeign
  cases hforeign

/-- Where there are connections or notifications, there is the gateway. -/
theorem Exec.aimedAt (h0 : cfg.initial = some s₀) (h : (server cfg).Exec C s₀ tr s)
    (h32 : s.shared.allocated ≤ 2 ^ 32) :
    (∀ id, AimedAt id s.shared (s.map ServerFrame.toFrame).frames) ∨
      ∃ gateway, OnlyGateway s.shared gateway ∧
        s.shared.serviceMap.find (s.shared.services gateway).id = some gateway ∧
        AimedAt (s.shared.services gateway).id s.shared (s.map ServerFrame.toFrame).frames := by
  obtain ⟨pc, -, hpc⟩ := Exec.main h0 h
  rw [State.frames_map]
  cases pc with
  | newScriptService | newGatewayService => exact .inl hpc.2
  | listen => exact .inl hpc.2
  | wait =>
    obtain ⟨gateway, hone, hadd, haim⟩ := hpc
    exact .inr ⟨gateway, hone, Exec.found_added h0 h h32 hadd, haim⟩

/-- A notification that is looked up is found to be the gateway's. -/
theorem Exec.find_notification (h0 : cfg.initial = some s₀) (h : (server cfg).Exec C s₀ tr s)
    (h32 : s.shared.allocated ≤ 2 ^ 32) (hf : .frame (.send (.find target m)) ∈ s.frames)
    (hm : m.client.isSome) :
    ∃ gateway, s.shared.serviceMap.find target = some gateway ∧ OnlyGateway s.shared gateway := by
  have hf : .send (.find target m) ∈ (s.map ServerFrame.toFrame).frames := by
    rw [State.frames_map]
    exact Multiset.mem_map_of_mem _ hf
  rcases Exec.aimedAt h0 h h32 with hall | ⟨gateway, hone, hfind, haim⟩
  · exact AimedAt.absurd hall fun id haim => haim.frames _ hf hm
  · exact ⟨gateway, haim.frames _ hf hm ▸ hfind, hone⟩

theorem Exec.find_entry (h0 : cfg.initial = some s₀) (h : (server cfg).Exec C s₀ tr s)
    (h32 : s.shared.allocated ≤ 2 ^ 32) (hfind : s.shared.connectionMap.find key = some conn) :
    ∃ gateway, s.shared.serviceMap.find conn.serviceId = some gateway ∧
      OnlyGateway s.shared gateway := by
  rcases Exec.aimedAt h0 h h32 with hall | ⟨gateway, hone, hgw, haim⟩
  · exact AimedAt.absurd hall fun id haim => haim.entries key conn hfind
  · exact ⟨gateway, haim.entries key conn hfind ▸ hgw, hone⟩

/-- No second gateway comes. -/
theorem Exec.onlyGateway_step (h0 : cfg.initial = some s₀) (h : (server cfg).Exec C s₀ tr s)
    (hs : (server cfg).Step s l s') (hi : OnlyGateway s.shared gateway) :
    OnlyGateway s'.shared gateway := by
  obtain ⟨gs, R, hm, hF, -, hsh⟩ := hs.frames
  rw [hsh]
  cases hf : l.frame with
  | frame f =>
    rw [hf] at hm
    obtain ⟨fs, -, -, hcaller, hstep⟩ := frame_step hm
    exact hi.apply (createsScript_step hstep hcaller)
  | main pc =>
    rw [hf] at hm hF
    obtain ⟨pc', hone, hpc⟩ := Exec.main h0 h
    rw [hF, Multiset.filterMap_cons_some ServerFrame.mainPc _ _ rfl] at hone
    obtain ⟨heq, -⟩ := (Multiset.singleton_eq_cons_iff _).mp hone.symm
    subst heq
    have hcls := (hi.unique gateway hi.created).mpr rfl
    have hmain := MainPc.step_cases hm
    generalize l.op = op, l.choice = c at hmain
    cases hmain with
    | newScriptService | newGatewayService =>
      rw [hpc.1 gateway hi.created] at hcls
      cases hcls
    | listen => exact hi

theorem eq_frame_of_toFrame {g : ServerFrame} (h : g.toFrame = f) (hf : f ≠ .caller) :
    g = .frame f := by
  cases g with
  | main => exact absurd h.symm hf
  | frame => exact congrArg _ h

/-- Between the lookup and the push of a message nothing happens. -/
theorem pushing_origin {g : ServerFrame} (h : ServerFrame.step cfg σ g c = some (op, gs))
    (hmem : .frame (.send (.pushMessage r m)) ∈ gs) :
    ∃ target, g = .frame (.send (.find target m)) ∧ σ.serviceMap.find target = some r := by
  have hstep := (server_step h).2
  have hmem : .send (.pushMessage r m) ∈ gs.map ServerFrame.toFrame := List.mem_map_of_mem hmem
  rcases send_origin hstep hmem with ⟨pc, hg⟩ | ⟨target, m', heq, -⟩
  · rw [hg] at hstep
    have hsend := SendPc.step_cases hstep
    generalize gs.map ServerFrame.toFrame = fs at hsend hmem
    cases hsend with
    | found hfind =>
      cases List.mem_singleton.mp hmem
      exact ⟨_, eq_frame_of_toFrame hg nofun, hfind⟩
    | unknown | lost => cases hmem
    | wakeUp =>
      obtain ⟨p', -, heq⟩ := List.mem_map.mp hmem
      cases heq
    | _ => cases List.mem_singleton.mp hmem
  · cases heq

/-- A notification that was pushed, or is about to be, is the gateway's. -/
theorem Exec.notified (h0 : cfg.initial = some s₀) (h : (server cfg).Exec C s₀ tr s)
    (h32 : s.shared.allocated ≤ 2 ^ 32) :
    (∀ l ∈ tr, ∀ r m, l.op = .pushMessage r m → m.client.isSome → OnlyGateway s.shared r) ∧
      ∀ r m, .frame (.send (.pushMessage r m)) ∈ s.frames → m.client.isSome →
        OnlyGateway s.shared r := by
  induction h with
  | refl =>
    refine ⟨fun l hl => absurd hl List.not_mem_nil, fun r m hf => ?_⟩
    have hf : .send (.pushMessage r m) ∈ s₀.toSystem.frames := by
      rw [State.frames_map]
      exact Multiset.mem_map_of_mem _ hf
    rw [Config.initial_toSystem h0] at hf
    rcases mem_initial_frames hf with ⟨i, -, heq⟩ | heq | heq | heq <;> cases heq
  | @step tr s₁ l s₂ hr hc hs ih =>
    have hle : s₁.shared.allocated ≤ s₂.shared.allocated := by
      obtain ⟨-, -, -, -, -, hsh⟩ := hs.frames
      rw [hsh]
      exact allocated_le_apply _ _
    obtain ⟨hpushed, hpushing⟩ := ih (hle.trans h32)
    have hkeep : ∀ r, OnlyGateway s₁.shared r → OnlyGateway s₂.shared r := fun _ =>
      Exec.onlyGateway_step h0 hr hs
    obtain ⟨gs, R, hm, hF, hF', -⟩ := hs.frames
    constructor
    · intro l' hl' r m hop hclient
      rcases List.mem_append.mp hl' with hl' | hl'
      · exact hkeep r (hpushed l' hl' r m hop hclient)
      · rw [List.mem_singleton.mp hl'] at hop
        refine hkeep r (hpushing r m ?_ hclient)
        rw [hop] at hm
        obtain ⟨hf, -⟩ := pushMessage_op (server_step hm).2
        rw [hF, ← eq_frame_of_toFrame hf nofun]
        exact Multiset.mem_cons_self _ R
    · intro r m hf hclient
      refine hkeep r ?_
      rw [hF'] at hf
      rcases Multiset.mem_add.mp hf with hf | hf
      · obtain ⟨target, hl, hfind⟩ := pushing_origin hm hf
        obtain ⟨gateway, hgw, hone⟩ := Exec.find_notification h0 hr (hle.trans h32)
          (by rw [hF, hl]; exact Multiset.mem_cons_self _ R) hclient
        rw [hfind] at hgw
        cases hgw
        exact hone
      · exact hpushing r m (hF ▸ Multiset.mem_cons_of_mem hf) hclient

/-- Until ids come back, there is one gateway for everything that the socket
worker has to say: the service of every connection is found and is the gateway,
and so is the receiver of every notification, and of every one that is looked up. -/
theorem server_notifies_gateway (h0 : cfg.initial = some s₀) (h : (server cfg).Exec Any s₀ tr s)
    (h32 : s.shared.allocated ≤ 2 ^ 32) :
    (∀ l ∈ tr, ∀ r m, l.op = .pushMessage r m → m.client.isSome → OnlyGateway s.shared r) ∧
      (∀ target m, .frame (.send (.find target m)) ∈ s.frames → m.client.isSome →
        ∃ gateway, s.shared.serviceMap.find target = some gateway ∧
          OnlyGateway s.shared gateway) ∧
      ∀ key conn, s.shared.connectionMap.find key = some conn →
        ∃ gateway, s.shared.serviceMap.find conn.serviceId = some gateway ∧
          OnlyGateway s.shared gateway :=
  ⟨(Exec.notified h0 h h32).1, fun _ _ => Exec.find_notification h0 h h32,
    fun _ _ => Exec.find_entry h0 h h32⟩

/-- The byte of the client is the gateway's to read. -/
theorem server_notifies_gateway_byte : ∃ s, OnlyGateway (s : ServerState).shared 1 := by
  obtain ⟨s₀, tr, s, h0, hrun, ⟨l, hl, m, hm, hclient⟩, hfew⟩ := exists_served serves
    (fun r => (∃ l ∈ r.1, ∃ m ∈ l.op.pushedTo 1, m.client.isSome) ∧ r.2.shared.allocated = 2) (by
      decide +kernel)
  have hfew : s.shared.allocated = 2 := hfew
  obtain ⟨hpushed, -, -⟩ := server_notifies_gateway h0 hrun (by omega)
  exact ⟨s, hpushed l hl 1 m (mem_pushedTo.mp hm) hclient⟩

end XianNet
