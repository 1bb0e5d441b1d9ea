import XianNet.Interleaving.Weight
import XianNet.References

/-!
# The flag is a token

`is_in_global_queue_` and the global queue change in separate critical
sections, on the push side and on the pop side. In between, some thread holds
the difference. `flag_token` counts it: the occurrences in the queue, the
threads that won the swap and have not pushed, and the workers that popped and
have not cleared are together one if the flag is set, and none if it is not.
-/

namespace XianNet

open Interleaving

variable {σ σ' : Shared} {C : State → Label → Prop} {s : State}

/-- The thread changed the flag of `r` from false to true and has not yet
executed the global `Push`. -/
def Frame.pushing (r : ServiceRef) : Frame → Bool
  | .send (.checkAndPush (.push r')) | .worker _ (.checkAndPush (.push r')) => r' = r
  | _ => false

/-- The worker popped `r` and has not yet executed `SetValue(false)`. -/
def Frame.clearing (r : ServiceRef) : Frame → Bool
  | .worker _ (.clearFlag r') => r' = r
  | _ => false

/-- The tokens of `r` that one frame holds. -/
def Frame.token (r : ServiceRef) (f : Frame) : Nat := (f.pushing r).toNat + (f.clearing r).toNat

def TokensOk (σ : Shared) (F : Multiset Frame) : Prop :=
  ∀ r, σ.globalServiceQueue.count r + weigh (Frame.token r) F = (σ.services r).isInGlobalQueue.toNat

theorem Frame.token_of_isCall (h : Frame.isCall g) : Frame.token r g = 0 := by
  cases g with
  | worker => cases h
  | send pc => cases pc <;> first | rfl | cases h
  | _ => rfl

theorem toNat_decide_eq (r r' : ServiceRef) : (decide (r = r')).toNat = if r' = r then 1 else 0 := by
  by_cases h : r' = r
  · simp [h]
  · simp [h, Ne.symm h]

@[simp] theorem Frame.token_send_push :
    (Frame.send (.checkAndPush (.push r))).token r' = if r' = r then 1 else 0 := by
  simp [Frame.token, Frame.pushing, Frame.clearing, toNat_decide_eq]

@[simp] theorem Frame.token_worker_push :
    (Frame.worker w (.checkAndPush (.push r))).token r' = if r' = r then 1 else 0 := by
  simp [Frame.token, Frame.pushing, Frame.clearing, toNat_decide_eq]

@[simp] theorem Frame.token_clearFlag :
    (Frame.worker w (.clearFlag r)).token r' = if r' = r then 1 else 0 := by
  simp [Frame.token, Frame.pushing, Frame.clearing, toNat_decide_eq]

-- ---------------------------------------------------------------------------
-- The moves of a token
-- ---------------------------------------------------------------------------

section
variable {f : Frame} {fs : List Frame} {R : Multiset Frame}

/-- The books balance: what queue and frames gain is what the flag gains. -/
theorem TokensOk.move (hi : TokensOk σ (f ::ₘ R))
    (h : ∀ r, σ'.globalServiceQueue.count r + weigh (Frame.token r) (fs : Multiset Frame) +
        (σ.services r).isInGlobalQueue.toNat =
      σ.globalServiceQueue.count r + f.token r + (σ'.services r).isInGlobalQueue.toNat) :
    TokensOk σ' ((fs : Multiset Frame) + R) := by
  intro r
  have hr := hi r
  have hm := h r
  rw [weigh_cons] at hr
  rw [weigh_add]
  omega

theorem TokensOk.neutral (hi : TokensOk σ (f ::ₘ R))
    (hfs : ∀ r, weigh (Frame.token r) (fs : Multiset Frame) = f.token r)
    (hq : σ'.globalServiceQueue = σ.globalServiceQueue)
    (hflag : ∀ r, (σ'.services r).isInGlobalQueue = (σ.services r).isInGlobalQueue) :
    TokensOk σ' ((fs : Multiset Frame) + R) :=
  hi.move fun r => by rw [hq, hflag, hfs]

theorem TokensOk.lost (hi : TokensOk σ (f ::ₘ R))
    (hfs : ∀ r, weigh (Frame.token r) (fs : Multiset Frame) = f.token r)
    (hflag : (σ.services r).isInGlobalQueue = true) :
    TokensOk (σ.apply (.raiseFlag r)) ((fs : Multiset Frame) + R) := by
  refine hi.neutral hfs rfl ?_
  intro r'
  rw [flag_raiseFlag]
  split
  · rename_i hr; rw [hr, hflag]
  · rfl

theorem TokensOk.won (hi : TokensOk σ (f ::ₘ R)) (hf : ∀ r, f.token r = 0)
    (hfs : ∀ r', weigh (Frame.token r') (fs : Multiset Frame) = if r' = r then 1 else 0)
    (hflag : (σ.services r).isInGlobalQueue = false) :
    TokensOk (σ.apply (.raiseFlag r)) ((fs : Multiset Frame) + R) := by
  refine hi.move ?_
  intro r'
  rw [hf, hfs, flag_raiseFlag, globalServiceQueue_raiseFlag]
  split
  · rename_i hr; rw [hr, hflag]; rfl
  · rfl

theorem TokensOk.push (hi : TokensOk σ (f ::ₘ R)) (hf : ∀ r', f.token r' = if r' = r then 1 else 0)
    (hfs : ∀ r, weigh (Frame.token r) (fs : Multiset Frame) = 0) :
    TokensOk (σ.apply (.pushGlobal r)) ((fs : Multiset Frame) + R) := by
  refine hi.move ?_
  intro r'
  rw [hf, hfs, globalServiceQueue_pushGlobal, services_pushGlobal, List.count_append,
    List.count_singleton]
  by_cases hr : r' = r
  · simp [hr]
  · simp [hr, Ne.symm hr]

theorem TokensOk.pop (hi : TokensOk σ (f ::ₘ R)) (hf : ∀ r, f.token r = 0)
    (hfs : ∀ r', weigh (Frame.token r') (fs : Multiset Frame) = if r' = r then 1 else 0)
    (hq : σ.globalServiceQueue = r :: queue) :
    TokensOk (σ.apply (.popGlobal r)) ((fs : Multiset Frame) + R) := by
  refine hi.move ?_
  intro r'
  rw [hf, hfs, globalServiceQueue_popGlobal, services_popGlobal, hq, List.tail_cons, List.count_cons]
  by_cases hr : r' = r
  · simp [hr]
  · simp [hr, Ne.symm hr]

/-- A frame that holds a token proves that the flag is set. -/
theorem TokensOk.flag_of_token (hi : TokensOk σ (f ::ₘ R)) (hf : f.token r = 1) :
    (σ.services r).isInGlobalQueue = true := by
  have hr := hi r
  rw [weigh_cons, hf] at hr
  cases hflag : (σ.services r).isInGlobalQueue
  · rw [hflag] at hr; simp at hr
  · rfl

theorem TokensOk.clear (hi : TokensOk σ (f ::ₘ R))
    (hf : ∀ r', f.token r' = if r' = r then 1 else 0)
    (hfs : ∀ r, weigh (Frame.token r) (fs : Multiset Frame) = 0) :
    TokensOk (σ.apply (.clearFlag r)) ((fs : Multiset Frame) + R) := by
  have hflag := hi.flag_of_token (r := r) (by rw [hf, if_pos rfl])
  refine hi.move ?_
  intro r'
  rw [hf, hfs, flag_clearFlag, globalServiceQueue_clearFlag]
  split
  · rename_i hr; rw [hr, hflag]; rfl
  · rfl

end

-- ---------------------------------------------------------------------------
-- Every step
-- ---------------------------------------------------------------------------

theorem TokensOk.send (hi : TokensOk σ (.send pc ::ₘ R)) (h : pc.step σ c = some (op, fs)) :
    TokensOk (σ.apply op) ((fs : Multiset Frame) + R) := by
  cases SendPc.step_cases h with
  | won hflag => exact hi.won (fun _ => rfl) (by simp) hflag
  | lost hflag => exact hi.lost (fun _ => rfl) hflag
  | push => exact hi.push (by simp) fun _ => rfl
  | pushMessage => exact hi.neutral (fun _ => rfl) rfl fun _ => flag_pushMessage ..
  | @wakeUp p op next hp =>
    have hop := hp.isSleep
    refine hi.neutral ?_ (globalServiceQueue_sleep hop) fun r => by rw [services_sleep hop]
    intro r
    cases next <;> rfl
  | _ => exact hi.neutral (fun _ => rfl) rfl fun _ => rfl

theorem TokensOk.worker (hi : TokensOk σ (.worker w pc ::ₘ R)) (h : pc.step σ w = some (op, fs)) :
    TokensOk (σ.apply op) ((fs : Multiset Frame) + R) := by
  cases WorkerPc.step_cases h with
  | pop hq => exact hi.pop (fun _ => rfl) (by simp) hq
  | clearFlag => exact hi.clear (by simp) fun _ => rfl
  | popMessage => exact hi.neutral (fun _ => rfl) rfl fun _ => flag_popMessage ..
  | won hflag => exact hi.won (fun _ => rfl) (by simp) hflag
  | lost hflag => exact hi.lost (fun _ => rfl) hflag
  | push => exact hi.push (by simp) fun _ => rfl
  | @block p op next hp =>
    have hop := hp.isSleep
    refine hi.neutral ?_ (globalServiceQueue_sleep hop) fun r => by rw [services_sleep hop]
    intro r
    cases next <;> rfl
  | _ => exact hi.neutral (fun _ => rfl) rfl fun _ => rfl

theorem TokensOk.step (hi : TokensOk σ (f ::ₘ R)) (hr : RefsOk σ (f ::ₘ R))
    (h : Frame.step σ f c = some (op, fs)) : TokensOk (σ.apply op) ((fs : Multiset Frame) + R) := by
  cases f with
  | worker w pc => exact hi.worker h
  | send pc => exact hi.send h
  | _ =>
    have ho := step_other rfl h
    have hs := ho.same hr
    exact hi.neutral (fun _ => weigh_eq_zero fun g hg => Frame.token_of_isCall (ho.calls g hg))
      hs.queue hs.flag

theorem Reach.tokensOk (h : system.Reach C (initial n p k) s) : TokensOk s.shared s.frames := by
  refine h.invariant ?_ ?_
  · intro r
    rw [weigh_eq_zero]
    · rfl
    · intro f hf
      rcases mem_initial_frames hf with ⟨i, -, rfl⟩ | rfl | rfl | rfl <;> rfl
  · intro s l fs R hr _ hF hm hi
    exact hi.step (hF ▸ Reach.refsOk hr) hm

/-- Flag and queue agree, counted over the threads in between. -/
theorem flag_token (h : system.Reach Any (initial n p k) s) (r : ServiceRef) :
    s.shared.globalServiceQueue.count r + s.frames.countP (Frame.pushing r ·) +
        s.frames.countP (Frame.clearing r ·) =
      (if (s.shared.services r).isInGlobalQueue then 1 else 0) ∧
    s.shared.globalServiceQueue.count r ≤ 1 ∧
    (r ∈ s.shared.globalServiceQueue → (s.shared.services r).isInGlobalQueue = true) := by
  have ht := Reach.tokensOk h r
  have htoken : weigh (Frame.token r) s.frames =
      s.frames.countP (Frame.pushing r ·) + s.frames.countP (Frame.clearing r ·) := by
    rw [← weigh_toNat, ← weigh_toNat, ← weigh_fun_add]; rfl
  have hone := (s.shared.services r).isInGlobalQueue.toNat_le
  rw [htoken] at ht
  refine ⟨?_, by omega, ?_⟩
  · cases hflag : (s.shared.services r).isInGlobalQueue <;> rw [hflag] at ht <;>
      simpa [add_assoc] using ht
  · intro hm
    have hpos := List.count_pos_iff.mpr hm
    by_contra hflag
    rw [Bool.not_eq_true] at hflag
    rw [hflag, Bool.toNat_false] at ht
    omega

/-- A service the caller just pushed is in the queue once, with its flag set. -/
theorem flag_token_queued : ∃ s, system.Reach Any (initial 1 (fun i => 1 <<< i) 1) s ∧
    s.shared.globalServiceQueue.count 0 = 1 ∧ (s.shared.services 0).isInGlobalQueue = true := by
  have h : ((system.run Any (initial 1 (fun i => 1 <<< i) 1) (creates 3 ++ sends 3 0 4)).any fun s =>
      s.shared.globalServiceQueue.count 0 = 1) = true := by decide +kernel
  obtain ⟨s, hs, hq⟩ := Machine.exists_of_run h
  exact ⟨s, hs, hq, (flag_token hs 0).2.2 (List.count_pos_iff.mp (by omega))⟩

end XianNet
