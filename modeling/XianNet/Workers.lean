import Mathlib.Data.Multiset.Range
import XianNet.Interleaving.Weight
import XianNet.References

/-!
# Who sleeps

The worker threads are always the ones `StartServiceWorker` created, each with
one frame. Only a worker inside `pthread_cond_wait` is in the wait set, and
`sleep_count_` is the number of workers between its increment and its decrement.
-/

namespace XianNet

open Interleaving

variable {σ : Shared} {C : State → Label → Prop} {s : State} {p : Nat → Int}

def Frame.worker? : Frame → Option ServiceWorker
  | .worker w _ => some w
  | _ => none

theorem worker?_of_isCall (h : Frame.isCall g) : Frame.worker? g = none := by
  cases g with
  | worker => cases h
  | _ => rfl

theorem worker?_step (h : Frame.step σ f c = some (op, fs)) :
    fs.filterMap Frame.worker? = f.worker?.toList := by
  cases f with
  | worker w pc =>
    cases WorkerPc.step_cases h <;> rfl
  | send pc =>
    cases SendPc.step_cases h with
    | @wakeUp p op next hp => cases next <;> rfl
    | _ => rfl
  | _ =>
    exact List.filterMap_eq_nil_iff.mpr fun g hg => worker?_of_isCall ((step_other rfl h).calls g hg)

/-- The worker has incremented `sleep_count_` and not decremented it again. -/
def Frame.sleeping : Frame → Bool
  | .worker _ (.block .wait) | .worker _ (.block .waiting) | .worker _ (.block .decrement) => true
  | _ => false

structure SleepOk (n : Nat) (p : Nat → Int) (σ : Shared) (F : Multiset Frame) : Prop where
  workers : F.filterMap Frame.worker? = (Multiset.range n).map fun i => ⟨i, p i⟩
  waiting : ∀ w pc, .worker w pc ∈ F → w.id ∈ σ.waitSet → pc = .block .waiting
  waiters : σ.waitSet.Nodup ∧ ∀ i ∈ σ.waitSet, i < n
  sleepCount : σ.sleepCount = (weigh (fun f => (Frame.sleeping f).toNat) F : Nat)
  threadSize : σ.threadSize = n

theorem SleepOk.worker (hi : SleepOk n p σ F) (hf : .worker w pc ∈ F) :
    w.id < n ∧ w.processingNum = p w.id := by
  have hw : w ∈ F.filterMap Frame.worker? := (Multiset.mem_filterMap _ _).mpr ⟨_, hf, rfl⟩
  rw [hi.workers] at hw
  obtain ⟨i, hi, rfl⟩ := Multiset.mem_map.mp hw
  exact ⟨Multiset.mem_range.mp hi, rfl⟩

theorem SleepOk.exists_worker (hi : SleepOk n p σ F) (hn : i < n) :
    ∃ pc, .worker ⟨i, p i⟩ pc ∈ F := by
  have hw : (⟨i, p i⟩ : ServiceWorker) ∈ F.filterMap Frame.worker? := by
    rw [hi.workers]
    exact Multiset.mem_map.mpr ⟨i, Multiset.mem_range.mpr hn, rfl⟩
  obtain ⟨f, hf, hw⟩ := (Multiset.mem_filterMap _ _).mp hw
  cases f with
  | worker w pc => cases hw; exact ⟨pc, hf⟩
  | _ => cases hw

/-- Another frame belongs to another worker. -/
theorem SleepOk.ne (hi : SleepOk n p σ (.worker w pc ::ₘ R)) (hf : .worker w' pc' ∈ R) :
    w'.id ≠ w.id := by
  intro hid
  have hnodup : ((Multiset.range n).map fun i => (⟨i, p i⟩ : ServiceWorker)).Nodup :=
    (Multiset.nodup_range n).map fun i j hij => by cases hij; rfl
  rw [← hi.workers, Multiset.filterMap_cons_some Frame.worker? _ _ rfl, Multiset.nodup_cons]
    at hnodup
  refine hnodup.1 ((Multiset.mem_filterMap _ _).mpr ⟨_, hf, ?_⟩)
  have hw := hi.worker (Multiset.mem_cons_self _ _)
  have hw' := hi.worker (Multiset.mem_cons_of_mem hf)
  cases w; cases w'
  simp_all [Frame.worker?]

-- ---------------------------------------------------------------------------
-- Every step
-- ---------------------------------------------------------------------------

theorem threadSize_apply (σ : Shared) (op : Op) : (σ.apply op).threadSize = σ.threadSize := by
  cases op <;> rfl

theorem mem_waitSet_apply (h : i ∈ (σ.apply op).waitSet) : i ∈ σ.waitSet ∨ op = .joinWaitSet i := by
  cases op with
  | joinWaitSet j =>
    rcases List.mem_cons.mp h with rfl | h
    · exact .inr rfl
    · exact .inl h
  | signal woken =>
    cases woken with
    | none => exact .inl h
    | some j => exact .inl (List.mem_of_mem_erase h)
  | _ => exact .inl h

theorem sleepCount_apply {op : Op} (h : op ≠ .incrementSleep ∧ op ≠ .decrementSleep) :
    (σ.apply op).sleepCount = σ.sleepCount := by
  cases op <;> first | rfl | exact absurd rfl h.1 | exact absurd rfl h.2

theorem step_joinWaitSet (h : Frame.step σ f c = some (.joinWaitSet i, fs)) :
    ∃ w, f = .worker w (.block .wait) ∧ i = w.id := by
  cases f with
  | worker w pc =>
    cases WorkerPc.step_cases h with
    | block hp => cases hp; exact ⟨w, rfl, rfl⟩
  | send pc =>
    cases SendPc.step_cases h with
    | wakeUp hp => cases hp
  | _ => cases (step_other rfl h).outside

theorem sleepCount_step (h : Frame.step σ f c = some (op, fs)) :
    (σ.apply op).sleepCount + f.sleeping.toNat =
      σ.sleepCount + (weigh (fun g => (Frame.sleeping g).toNat) (fs : Multiset Frame) : Nat) := by
  cases f with
  | worker w pc =>
    cases WorkerPc.step_cases h with
    | block hp => cases hp <;> simp [Shared.apply, Frame.sleeping]
    | _ => rfl
  | send pc =>
    cases SendPc.step_cases h with
    | @wakeUp p op next hp => cases hp <;> rfl
    | _ => rfl
  | _ =>
    have ho := step_other rfl h
    have hout := ho.outside
    have hcalls : weigh (fun g => (Frame.sleeping g).toNat) (fs : Multiset Frame) = 0 := by
      refine weigh_eq_zero ?_
      intro g hg
      have hcall := ho.calls g hg
      cases g with
      | worker => cases hcall
      | _ => rfl
    rw [hcalls, sleepCount_apply]
    · rfl
    · constructor <;> rintro rfl <;> cases hout

/-- A worker in the wait set does not move. -/
theorem notMem_waitSet_of_step (hw : w.id ∈ σ.waitSet → pc = .block .waiting)
    (h : WorkerPc.step σ w pc = some (op, fs)) : w.id ∉ σ.waitSet := by
  intro hm
  cases hw hm
  cases WorkerPc.step_cases h with
  | block hp => cases hp with
    | waiting hno => exact hno hm

theorem SleepOk.waiters_step (hi : SleepOk n p σ (f ::ₘ R)) (h : Frame.step σ f c = some (op, fs)) :
    (σ.apply op).waitSet.Nodup ∧ ∀ i ∈ (σ.apply op).waitSet, i < n := by
  obtain ⟨hnodup, hlt⟩ := hi.waiters
  cases op with
  | joinWaitSet i =>
    obtain ⟨w, rfl, rfl⟩ := step_joinWaitSet h
    have hmem := Multiset.mem_cons_self (Frame.worker w (.block .wait)) R
    have hno : w.id ∉ σ.waitSet := fun hw => by cases hi.waiting _ _ hmem hw
    exact ⟨List.nodup_cons.mpr ⟨hno, hnodup⟩, List.forall_mem_cons.mpr ⟨(hi.worker hmem).1, hlt⟩⟩
  | signal woken =>
    cases woken with
    | none => exact ⟨hnodup, hlt⟩
    | some w => exact ⟨hnodup.erase w, fun i hi => hlt i (List.mem_of_mem_erase hi)⟩
  | _ => exact ⟨hnodup, hlt⟩

theorem SleepOk.step (hi : SleepOk n p σ (f ::ₘ R)) (h : Frame.step σ f c = some (op, fs)) :
    SleepOk n p (σ.apply op) ((fs : Multiset Frame) + R) := by
  have hworkers := worker?_step h
  refine ⟨?_, ?_, hi.waiters_step h, ?_, (threadSize_apply σ op).trans hi.threadSize⟩
  · rw [← hi.workers, Multiset.filterMap_add, Multiset.filterMap_coe, hworkers,
      Multiset.filterMap_cons]
    cases f.worker? <;> rfl
  · intro w pc hg hw
    rcases mem_waitSet_apply hw with hold | rfl
    · rcases Multiset.mem_add.mp hg with hg | hg
      · -- A worker's own frame: it moved, so it was not in the wait set.
        have hmem : w ∈ fs.filterMap Frame.worker? := List.mem_filterMap.mpr ⟨_, hg, rfl⟩
        rw [hworkers] at hmem
        cases f with
        | worker w' pc' =>
          cases List.mem_singleton.mp hmem
          exact absurd hold (notMem_waitSet_of_step (hi.waiting _ _ (Multiset.mem_cons_self _ _)) h)
        | _ => cases hmem
      · exact hi.waiting w pc (Multiset.mem_cons_of_mem hg) hold
    · obtain ⟨w', rfl, hid⟩ := step_joinWaitSet h
      rcases Multiset.mem_add.mp hg with hg | hg
      · have hfs : fs = [.worker w' (.block .waiting)] := (Prod.mk.inj (Option.some.inj h)).2.symm
        rw [hfs] at hg
        cases List.mem_singleton.mp hg
        rfl
      · exact absurd hid (hi.ne hg)
  · have hstep := sleepCount_step h
    have hcount := hi.sleepCount
    rw [weigh_cons] at hcount
    rw [weigh_add]
    push_cast at hcount ⊢
    omega

theorem filterMap_worker?_initial :
    (initial n p k).frames.filterMap Frame.worker? = (Multiset.range n).map fun i => ⟨i, p i⟩ := by
  have hstart : (startServiceWorker n p).flatten.filterMap Frame.worker? =
      (List.range n).map fun i => ⟨i, p i⟩ := by
    simp only [startServiceWorker]
    induction List.range n with
    | nil => rfl
    | cons i is ih => simpa [Frame.worker?] using ih
  have hcallers : (List.replicate k Frame.caller).filterMap Frame.worker? = [] :=
    List.filterMap_eq_nil_iff.mpr fun f hf => by rw [List.eq_of_mem_replicate hf]; rfl
  simp [initial, State.frames, hstart, List.filterMap_cons, hcallers, Frame.worker?, Multiset.range]

theorem Reach.sleepOk (h : system.Reach C (initial n p k) s) : SleepOk n p s.shared s.frames := by
  refine h.invariant (I := SleepOk n p)
    ⟨filterMap_worker?_initial, ?_, ⟨List.nodup_nil, ?_⟩, ?_, rfl⟩
    fun s l fs R _ _ _ hm hi => hi.step hm
  · intro w pc _ hw; cases hw
  · intro i hi; cases hi
  · rw [weigh_eq_zero]
    · rfl
    · intro f hf
      rcases mem_initial_frames hf with ⟨i, -, rfl⟩ | rfl | rfl | rfl <;> rfl

end XianNet
