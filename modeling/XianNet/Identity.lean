import XianNet.Mailbox
import XianNet.ServiceTable

/-!
# Who a message is from

The constructor of a script service copies `id_` into the script global
`service_id`, and `XianNet.send` reads it back as the sender. `AddService`
assigns `id_` later, so the copy is whatever the memory held, and the global is
an ordinary one that the script may assign. The sender is right for as long as
the copy happens to be the id that is assigned and the script leaves it alone.
-/

namespace XianNet

open Interleaving

variable {σ : Shared} {s s₁ : State} {r : ServiceRef}

/-- What the script of `r` assigns to `service_id`. -/
def Op.assigned (r : ServiceRef) : Op → Option UInt32
  | .setServiceId r' id => if r' = r then some id else none
  | _ => none

/-- `AddService` assigns to the script service `r` the value that its `id_`
already had, and its script assigns no other to `service_id`. -/
def KeepsId (r : ServiceRef) (s : State) (l : Label) : Prop :=
  (r ∈ l.op.added → (s.shared.services r).cls = .script →
    (s.shared.services r).id = s.shared.serviceMap.autoIncrementId) ∧
  ∀ id ∈ l.op.assigned r, id = (s.shared.services r).id

-- over the option: the found instance would go through all of `UInt32`
instance (r : ServiceRef) (s : State) (l : Label) : Decidable (KeepsId r s l) :=
  have : Decidable (∀ id ∈ l.op.assigned r, id = (s.shared.services r).id) :=
    Option.decidableForallMem _
  inferInstanceAs (Decidable (_ ∧ _))

/-- The script global of `r` is its `id_`, which is its key if it has one. -/
structure IdentityOk (r : ServiceRef) (σ : Shared) : Prop where
  global : (σ.services r).cls = .script → (σ.services r).serviceIdGlobal = (σ.services r).id
  map : ∀ target, σ.serviceMap.find target = some r → (σ.services r).cls = .script →
    (σ.services r).id = target

section
variable {op : Op}

theorem script_id_apply (hr : r < σ.allocated) (hcls : (σ.services r).cls = .script)
    (hkeep : r ∈ op.added → (σ.services r).cls = .script →
      (σ.services r).id = σ.serviceMap.autoIncrementId) :
    ((σ.apply op).services r).id = (σ.services r).id := by
  by_cases hop : r ∈ op.added
  · cases op with
    | addService r' =>
      obtain rfl := List.mem_singleton.mp hop
      exact id_addService.trans (hkeep hop hcls).symm
    | _ => cases hop
  · exact id_apply hr hop

theorem script_global_apply (hr : r < σ.allocated)
    (hassign : ∀ id ∈ op.assigned r, id = (σ.services r).id)
    (hi : (σ.services r).serviceIdGlobal = (σ.services r).id) :
    ((σ.apply op).services r).serviceIdGlobal = (σ.services r).id := by
  by_cases hop : ∃ id, op = .setServiceId r id
  · obtain ⟨id, rfl⟩ := hop
    obtain rfl := hassign id (if_pos rfl)
    simp [Shared.apply]
  · exact (serviceIdGlobal_apply hr fun id heq => hop ⟨id, heq⟩).trans hi

theorem script_of_new (hr' : RefsOk (σ.apply op) F) (h : Frame.step σ f c = some (op, fs))
    (hlt : ¬ r < σ.allocated) (hcls : ((σ.apply op).services r).cls = .script) :
    ((σ.apply op).services r).serviceIdGlobal = ((σ.apply op).services r).id := by
  by_cases hlt' : r < (σ.apply op).allocated
  · have hnew : ∃ service, op = .newService service := by
      by_contra hno
      rw [allocated_apply_of_ne fun service hop => hno ⟨service, hop⟩] at hlt'
      exact hlt hlt'
    obtain ⟨service, rfl⟩ := hnew
    obtain rfl : r = σ.allocated := Nat.le_antisymm (Nat.lt_succ_iff.mp hlt') (Nat.not_lt.mp hlt)
    rcases newService_op h with ⟨name, uninitialized, rfl, -⟩ | ⟨name, uninitialized, rfl, -⟩ <;>
      simp [Shared.apply, newScript, newGateway] at hcls ⊢
  · rw [hr'.fresh r (Nat.not_lt.mp hlt')] at hcls
    cases hcls

theorem IdentityOk.step {fs : List Frame} (hi : IdentityOk r σ) (hr : RefsOk σ F)
    (hr' : RefsOk (σ.apply op) F') (h : Frame.step σ f c = some (op, fs))
    (hkeep : r ∈ op.added → (σ.services r).cls = .script →
      (σ.services r).id = σ.serviceMap.autoIncrementId)
    (hassign : ∀ id ∈ op.assigned r, id = (σ.services r).id) : IdentityOk r (σ.apply op) := by
  have hold : r < σ.allocated → ((σ.apply op).services r).cls = .script →
      (σ.services r).cls = .script ∧ ((σ.apply op).services r).id = (σ.services r).id := by
    intro hlt hcls
    rw [cls_stays hlt] at hcls
    exact ⟨hcls, script_id_apply hlt hcls hkeep⟩
  constructor
  · intro hcls
    by_cases hlt : r < σ.allocated
    · obtain ⟨hcls₀, hid⟩ := hold hlt hcls
      rw [hid, script_global_apply hlt hassign (hi.global hcls₀)]
    · exact script_of_new hr' h hlt hcls
  · intro target hfind hcls
    rcases find_serviceMap_id hfind with hfind | ⟨hop, rfl⟩
    · obtain ⟨hcls₀, hid⟩ := hold (hr.map target r hfind) hcls
      rw [hid, hi.map target hfind hcls₀]
    · obtain rfl := op_of_added hop
      exact id_addService

end

theorem Reach.identityOk (h : system.Reach (KeepsId r) (initial n p k) s) :
    IdentityOk r s.shared := by
  refine h.induct (I := fun s => IdentityOk r s.shared) ⟨?_, ?_⟩ ?_
  · intro hcls; cases hcls
  · intro target hfind; cases hfind
  · intro s l s' hr hi hc hs
    obtain ⟨fs, R, hm, hF, -, hsh⟩ := hs.frames
    have hr' := Reach.refsOk (hr.exec (.single hc hs))
    rw [hsh] at hr' ⊢
    exact hi.step (Reach.refsOk hr) hr' hm hc.1 hc.2

theorem cls_reach {C : State → Label → Prop} (h : system.Reach C s s₁)
    (hr : r < s.shared.allocated) :
    r < s₁.shared.allocated ∧ (s₁.shared.services r).cls = (s.shared.services r).cls := by
  refine h.induct (I := fun s₁ => r < s₁.shared.allocated ∧
    (s₁.shared.services r).cls = (s.shared.services r).cls) ⟨hr, rfl⟩ ?_
  intro s₁ l s₂ _ ⟨hlt, hcls⟩ _ hs
  obtain ⟨fs, R, -, -, -, hsh⟩ := hs.frames
  rw [hsh]
  exact ⟨hlt.trans_le (allocated_le_apply ..), (cls_stays hlt).trans hcls⟩

theorem id_reach (h : system.Reach (KeepsId r) s s₁) (hr : r < s.shared.allocated)
    (hcls : (s.shared.services r).cls = .script) :
    (s₁.shared.services r).id = (s.shared.services r).id := by
  refine h.induct (I := fun s₁ => (s₁.shared.services r).id = (s.shared.services r).id) rfl ?_
  intro s₁ l s₂ hrun hid hc hs
  obtain ⟨fs, R, -, -, -, hsh⟩ := hs.frames
  obtain ⟨hlt, hcls₁⟩ := cls_reach hrun hr
  rw [hsh]
  exact (script_id_apply hlt (hcls₁.trans hcls) hc.1).trans hid

/-- The memory of a new service held 7, and its script sends as 7 for good. -/
theorem wrong_sender : ∃ s, system.Reach Any (initial 1 (fun i => 1 <<< i) 1) s ∧
    s.shared.serviceMap.find 0 = some 0 ∧ (s.shared.services 0).cls = .script ∧
    (s.shared.services 0).serviceIdGlobal = 7 ∧
    .send (.find 0 ⟨.service, .service ⟨7, "f", ""⟩⟩) ∈ s.frames := by
  have h : ((system.run Any (initial 1 (fun i => 1 <<< i) 1)
      ((3, .newScriptService "main" 7) :: (3, .jsExports ["OnInit"]) :: steps 3 3 ++
        [(3, .jsSend 0 "f" "")])).any fun s =>
        s.shared.serviceMap.find 0 = some 0 ∧ (s.shared.services 0).cls = .script ∧
        (s.shared.services 0).serviceIdGlobal = 7 ∧
        .send (.find 0 ⟨.service, .service ⟨7, "f", ""⟩⟩) ∈ s.frames) = true := by
    decide +kernel
  exact Machine.exists_of_run h

/-- As long as `AddService` assigns the value that was there and the script
assigns no other, the script global of a service in the table is its key, and
every message it sends, before or after, is from that id. -/
theorem sender_identity (h : system.Reach (KeepsId r) (initial n p k) s)
    (hfind : s.shared.serviceMap.find target = some r)
    (hcls : (s.shared.services r).cls = .script) :
    (s.shared.services r).serviceIdGlobal = target ∧
      ∀ s₁, system.Reach (KeepsId r) (initial n p k) s₁ →
        (system.Reach (KeepsId r) s₁ s ∨ system.Reach (KeepsId r) s s₁) →
        ∀ phase c m, .script r phase ∈ s₁.frames → Makes s₁.shared (.script r phase) c m →
          ∃ name content, m = ⟨.service, .service ⟨target, name, content⟩⟩ := by
  have hi := Reach.identityOk h
  have hid := hi.map target hfind hcls
  refine ⟨(hi.global hcls).trans hid, ?_⟩
  intro s₁ h₁ hrun phase c m hf hmake
  have hlt₁ : r < s₁.shared.allocated :=
    (Reach.refsOk h₁).frames _ hf r (List.mem_singleton_self r)
  have hsame : (s₁.shared.services r).serviceIdGlobal = target := by
    rcases hrun with hrun | hrun
    · have hcls₁ := (cls_reach hrun hlt₁).2.symm.trans hcls
      rw [(Reach.identityOk h₁).global hcls₁, ← id_reach hrun hlt₁ hcls₁, hid]
    · have hlt := (Reach.refsOk h).map target r hfind
      rw [(Reach.identityOk h₁).global ((cls_reach hrun hlt).2.trans hcls), id_reach hrun hlt hcls,
        hid]
  cases hmake
  exact ⟨_, _, by rw [scriptMessage, hsame]⟩

theorem sender_identity_kept : ∃ s, system.Reach (KeepsId 0) (initial 1 (fun i => 1 <<< i) 1) s ∧
    .script 0 .onInit ∈ s.frames ∧ (s.shared.services 0).serviceIdGlobal = 0 ∧
    ∃ name content, scriptMessage (s.shared.services 0) "f" =
      ⟨.service, .service ⟨0, name, content⟩⟩ := by
  have h : ((system.run (KeepsId 0) (initial 1 (fun i => 1 <<< i) 1)
      ((3, .newScriptService "main" 0) :: (3, .jsExports ["OnInit"]) :: steps 3 3)).any fun s =>
        s.shared.serviceMap.find 0 = some 0 ∧ (s.shared.services 0).cls = .script ∧
        .script 0 .onInit ∈ s.frames) = true := by
    decide +kernel
  obtain ⟨s, hs, hfind, hcls, hf⟩ := Machine.exists_of_run h
  obtain ⟨hglobal, hsend⟩ := sender_identity hs hfind hcls
  exact ⟨s, hs, hf, hglobal, hsend s hs (.inl (.refl s)) .onInit (.jsSend 0 "f" "") _ hf .send⟩

end XianNet
