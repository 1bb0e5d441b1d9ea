import XianNet.SchedulingLaws

/-!
# Service pointers

No frame, queue or map ever names a service object that was not created yet,
and an object not created yet is untouched. Creating a service therefore meets
no leftover of it anywhere.
-/

namespace XianNet

open Interleaving (Any)

variable {σ : Shared} {C : State → Label → Prop} {s : State}

theorem refs_sleep {op : Op} (h : op.isSleep) : op.refs = [] := by
  cases op <;> first | rfl | cases h

theorem refs_elim_block (next : Option BlockPc) :
    (next.elim WorkerPc.popFront WorkerPc.block).refs = [] := by
  cases next <;> rfl

theorem SendPc.step_known {pc : SendPc} (h : pc.step σ c = some (op, fs)) :
    (∀ r ∈ op.refs, r ∈ (Frame.send pc).refs) ∧ ∀ g ∈ fs, ∀ r ∈ g.refs, Known σ (.send pc) op r := by
  cases SendPc.step_cases h with
  | @found target r m hr =>
    refine ⟨by simp [Op.refs], fun g hg r' hr' => .inr (.inr (.inl ⟨target, ?_⟩))⟩
    rw [List.mem_singleton.mp hg] at hr'
    rwa [List.mem_singleton.mp hr']
  | wakeUp hp =>
    refine ⟨by simp [refs_sleep hp.isSleep], ?_⟩
    intro g hg r hr
    obtain ⟨p', -, rfl⟩ := List.mem_map.mp hg
    cases hr
  | _ => simp [Op.refs, Frame.refs, Known, PushPc.ref]

theorem WorkerPc.step_known {pc : WorkerPc} (h : pc.step σ w = some (op, fs)) :
    (∀ r ∈ op.refs, r ∈ pc.refs) ∧ ∀ g ∈ fs, ∀ r ∈ g.refs, Known σ (.worker w pc) op r := by
  cases WorkerPc.step_cases h with
  | pop hq => simp [Op.refs, Frame.refs, WorkerPc.refs, Known, hq]
  | block hp => simp [refs_sleep hp.isSleep, Frame.refs, refs_elim_block]
  | _ => simp [Op.refs, Frame.refs, WorkerPc.refs, Known, PushPc.ref]

theorem step_known (h : Frame.step σ f c = some (op, fs)) :
    (∀ r ∈ op.refs, r ∈ f.refs) ∧ ∀ g ∈ fs, ∀ r ∈ g.refs, Known σ f op r := by
  cases f with
  | worker w pc => exact WorkerPc.step_known h
  | send pc => exact SendPc.step_known h
  | _ => exact ⟨(step_other rfl h).refs, (step_other rfl h).known⟩

structure RefsOk (σ : Shared) (F : Multiset Frame) : Prop where
  frames : ∀ f ∈ F, ∀ r ∈ f.refs, r < σ.allocated
  queue : ∀ r ∈ σ.globalServiceQueue, r < σ.allocated
  map : ∀ id r, σ.serviceMap.find id = some r → r < σ.allocated
  fresh : ∀ r, σ.allocated ≤ r → σ.services r = {}

theorem OtherStep.same (ho : OtherStep σ f op fs) (hr : RefsOk σ F) :
    SameScheduling σ (σ.apply op) :=
  sameScheduling_apply ho.outside (hr.fresh _ (Nat.le_refl _)) ho.blank

theorem allocated_le_apply (σ : Shared) (op : Op) : σ.allocated ≤ (σ.apply op).allocated := by
  cases op <;> first | exact Nat.le_refl _ | exact Nat.le_succ _

theorem mem_queue_apply (h : r ∈ (σ.apply op).globalServiceQueue) :
    r ∈ σ.globalServiceQueue ∨ r ∈ op.refs := by
  cases op with
  | pushGlobal r' =>
    rcases List.mem_append.mp h with h | h
    · exact .inl h
    · exact .inr h
  | popGlobal =>
    refine .inl ?_
    simp only [Shared.apply] at h
    cases hq : σ.globalServiceQueue with
    | nil => simp [hq, SpinlockQueue.popFront] at h
    | cons x q => rw [hq] at h; exact List.mem_cons_of_mem _ h
  | _ => exact .inl h

theorem find_serviceMap_apply {id : UInt32} (h : (σ.apply op).serviceMap.find id = some r) :
    σ.serviceMap.find id = some r ∨ r ∈ op.refs := by
  cases op with
  | addService r' =>
    simp only [Shared.apply, Shared.addService, RwlockUnorderedMap.find_emplace] at h
    split at h
    · cases h; exact .inr (by simp [Op.refs])
    · exact .inl h
  | eraseService id' =>
    simp only [Shared.apply, RwlockUnorderedMap.find_erase] at h
    split at h
    · cases h
    · exact .inl h
  | _ => exact .inl h

theorem find_serviceMap_stays {op : Op} {target : UInt32} (hfind : σ.serviceMap.find target = some r)
    (hop : op ≠ .eraseService target) : (σ.apply op).serviceMap.find target = some r := by
  cases op with
  | addService =>
    simp only [Shared.apply, Shared.addService, RwlockUnorderedMap.find_emplace]
    rw [if_neg, hfind]
    rintro ⟨rfl, hnone⟩
    rw [hfind] at hnone
    cases hnone
  | eraseService id' =>
    simp only [Shared.apply, RwlockUnorderedMap.find_erase]
    rw [if_neg, hfind]
    rintro rfl
    exact hop rfl
  | _ => exact hfind

/-- The class of a service is fixed. -/
theorem cls_stays {op : Op} (hr : r < σ.allocated) :
    ((σ.apply op).services r).cls = (σ.services r).cls := by
  cases op with
  | newService => simp [Shared.apply, Nat.ne_of_lt hr]
  | pushMessage | popMessage | raiseFlag | clearFlag | setFunctions | setServiceId | setExisting =>
    simp only [Shared.apply, services_updateService]
    split <;> simp [*]
  | addService =>
    simp only [Shared.apply, Shared.addService, services_updateService]
    split <;> simp [*]
  | _ => rfl

/-- Only its own script changes what a service sends as its id. -/
theorem serviceIdGlobal_apply {op : Op} (hr : r < σ.allocated)
    (hop : ∀ id, op ≠ .setServiceId r id) :
    ((σ.apply op).services r).serviceIdGlobal = (σ.services r).serviceIdGlobal := by
  cases op with
  | newService => simp [Shared.apply, Nat.ne_of_lt hr]
  | setServiceId r' =>
    have hne : r ≠ r' := by
      rintro rfl
      exact hop _ rfl
    simp [Shared.apply, services_updateService, hne]
  | pushMessage | popMessage | raiseFlag | clearFlag | setFunctions | setExisting =>
    simp only [Shared.apply, services_updateService]
    split <;> simp [*]
  | addService =>
    simp only [Shared.apply, Shared.addService, services_updateService]
    split <;> simp [*]
  | _ => rfl

theorem services_apply_of_notMem (hr : r ∉ op.refs) (hlt : (σ.apply op).allocated ≤ r) :
    (σ.apply op).services r = σ.services r := by
  cases op with
  | newService =>
    have hne : r ≠ σ.allocated := Nat.ne_of_gt hlt
    simp [Shared.apply, hne]
  | addService r' =>
    simp only [Op.refs, List.mem_singleton] at hr
    simp [Shared.apply, Shared.addService, services_updateService, hr]
  | pushMessage | popMessage | raiseFlag | clearFlag | setFunctions | setServiceId | setExisting =>
    simp only [Op.refs, List.mem_singleton] at hr
    simp [Shared.apply, services_updateService, hr]
  | _ => rfl

theorem RefsOk.apply (hi : RefsOk σ (f ::ₘ R)) (h : Frame.step σ f c = some (op, fs)) :
    RefsOk (σ.apply op) ((fs : Multiset Frame) + R) := by
  obtain ⟨hop, hfs⟩ := step_known h
  have hle := allocated_le_apply σ op
  have hknown : ∀ r, Known σ f op r → r < (σ.apply op).allocated := by
    rintro r (hr | hr | ⟨id, hr⟩ | ⟨rfl, service, rfl⟩)
    · exact (hi.frames f (Multiset.mem_cons_self f R) r hr).trans_le hle
    · exact (hi.queue r hr).trans_le hle
    · exact (hi.map id r hr).trans_le hle
    · exact Nat.lt_succ_self _
  have hoplt : ∀ r ∈ op.refs, r < (σ.apply op).allocated := fun r hr => hknown r (.inl (hop r hr))
  refine ⟨?_, ?_, ?_, ?_⟩
  · intro g hg r hr
    rcases Multiset.mem_add.mp hg with hg | hg
    · exact hknown r (hfs g (by simpa using hg) r hr)
    · exact (hi.frames g (Multiset.mem_cons_of_mem hg) r hr).trans_le hle
  · intro r hr
    rcases mem_queue_apply hr with hr | hr
    · exact (hi.queue r hr).trans_le hle
    · exact hoplt r hr
  · intro id r hr
    rcases find_serviceMap_apply hr with hr | hr
    · exact (hi.map id r hr).trans_le hle
    · exact hoplt r hr
  · intro r hr
    rw [services_apply_of_notMem (fun hm => absurd (hoplt r hm) (Nat.not_lt.mpr hr)) hr]
    exact hi.fresh r (hle.trans hr)

-- ---------------------------------------------------------------------------
-- The initial frames
-- ---------------------------------------------------------------------------

theorem mem_initial_frames (h : f ∈ (initial n p k).frames) :
    (∃ i < n, f = .worker ⟨i, p i⟩ .popFront) ∨ f = .socket .epollWait ∨ f = .network ∨
      f = .caller := by
  simp only [initial, startServiceWorker, Interleaving.State.frames, Multiset.mem_coe,
    List.mem_flatten, List.mem_append, List.mem_map, List.mem_range, List.mem_cons,
    List.mem_replicate] at h
  obtain ⟨stack, (⟨i, hi, rfl⟩ | rfl | rfl | ⟨-, rfl⟩), hf⟩ := h <;>
    simp only [List.mem_singleton] at hf <;> subst hf
  · exact .inl ⟨i, hi, rfl⟩
  · exact .inr (.inl rfl)
  · exact .inr (.inr (.inl rfl))
  · exact .inr (.inr (.inr rfl))

theorem filterMap_initial {g : Frame → Option α}
    (hg : ∀ f ∈ (initial n p k).frames, g f = none) : (initial n p k).frames.filterMap g = 0 := by
  refine Multiset.eq_zero_of_forall_notMem fun x hx => ?_
  obtain ⟨f, hf, hx⟩ := (Multiset.mem_filterMap _ _).mp hx
  rw [hg f hf] at hx
  cases hx

theorem Reach.refsOk (h : system.Reach C (initial n p k) s) : RefsOk s.shared s.frames := by
  refine h.invariant ⟨?_, ?_, ?_, ?_⟩ fun s l fs R _ _ _ hm hi => hi.apply hm
  · intro f hf
    rcases mem_initial_frames hf with ⟨i, -, rfl⟩ | rfl | rfl | rfl <;>
      simp [Frame.refs, WorkerPc.refs]
  · simp [initial, Shared.initial]
  · simp [initial, Shared.initial]
  · intro r _; rfl

end XianNet
