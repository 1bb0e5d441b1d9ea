import XianNet.StepLaws

/-!
# The steps of the scheduler

Everything one step of `SendMessage` or of a worker can do, read off the step
functions once. The invariants of the queues and flags go by these cases.
-/

namespace XianNet

variable {σ : Shared}

/-- A step of `CheckAndPushGlobalServiceQueue`, before its caller goes on. -/
inductive PushStep (σ : Shared) : PushPc → Op → PushPc ⊕ Bool → Prop
  | won : (σ.services r).isInGlobalQueue = false →
      PushStep σ (.swap r) (.raiseFlag r) (.inl (.push r))
  | lost : (σ.services r).isInGlobalQueue = true →
      PushStep σ (.swap r) (.raiseFlag r) (.inr false)
  | push : PushStep σ (.push r) (.pushGlobal r) (.inr true)

theorem PushPc.step_cases {p : PushPc} (h : p.step σ = (op, next)) : PushStep σ p op next := by
  cases p with
  | swap r =>
    simp only [PushPc.step] at h
    cases hflag : (σ.services r).isInGlobalQueue <;> rw [hflag] at h <;> cases h
    · exact .won hflag
    · exact .lost hflag
  | push r => cases h; exact .push

/-- What `CheckAndWeakUpWorker` and `BlockWorker` do to the shared state. -/
def Op.isSleep : Op → Bool
  | .silent | .lockMutex | .unlockMutex | .incrementSleep | .decrementSleep | .joinWaitSet _
  | .signal _ => true
  | _ => false

/-- A step of `CheckAndWeakUpWorker`, which returns at `none`. -/
inductive WakeStep (σ : Shared) : WakePc → Op → Option WakePc → Prop
  | awake : σ.sleepCount = 0 → WakeStep σ .testSleeping .silent none
  | asleep : σ.sleepCount ≠ 0 → WakeStep σ .testSleeping .silent (some .readSleepCount)
  | read : WakeStep σ .readSleepCount .silent (some (.compareSize (σ.threadSize - σ.sleepCount)))
  | short {awake : Int} : awake ≤ σ.globalServiceQueue.length →
      WakeStep σ (.compareSize awake) .silent (some .signal)
  | enough {awake : Int} : σ.globalServiceQueue.length < awake →
      WakeStep σ (.compareSize awake) .silent none
  | woken : w ∈ σ.waitSet → WakeStep σ .signal (.signal (some w)) none
  | nobody : σ.waitSet = [] → WakeStep σ .signal (.signal none) none

theorem WakePc.step_cases {p : WakePc} (h : p.step σ c = some (op, next)) :
    WakeStep σ p op next := by
  cases p with
  | testSleeping =>
    cases h
    by_cases hs : σ.sleepCount = 0
    · simpa [hs] using WakeStep.awake hs
    · simpa [hs] using WakeStep.asleep hs
  | readSleepCount => cases h; exact .read
  | compareSize awake =>
    cases h
    by_cases hs : awake ≤ σ.globalServiceQueue.getSize
    · simpa [hs] using WakeStep.short hs
    · simpa [hs] using WakeStep.enough (Int.not_le.mp hs)
  | signal =>
    simp only [WakePc.step] at h
    split at h
    · rename_i hpc; cases hpc
    · rename_i hpc; cases hpc
    · rename_i hpc; cases hpc
    · split at h
      · rename_i w hw; cases h; exact .woken (List.mem_of_getElem? hw)
      · split at h
        · rename_i he; cases h; exact .nobody (List.isEmpty_iff.mp he)
        · cases h
    · cases h

theorem WakeStep.isSleep (h : WakeStep σ p op next) : op.isSleep := by
  cases h <;> rfl

inductive SendStep (σ : Shared) : SendPc → Op → List Frame → Prop
  | unknown : σ.serviceMap.find target = none → SendStep σ (.find target m) .silent []
  | found : σ.serviceMap.find target = some r →
      SendStep σ (.find target m) .silent [.send (.pushMessage r m)]
  | pushMessage :
      SendStep σ (.pushMessage r m) (.pushMessage r m) [.send (.checkAndPush (.swap r))]
  | won : (σ.services r).isInGlobalQueue = false →
      SendStep σ (.checkAndPush (.swap r)) (.raiseFlag r) [.send (.checkAndPush (.push r))]
  | lost : (σ.services r).isInGlobalQueue = true →
      SendStep σ (.checkAndPush (.swap r)) (.raiseFlag r) []
  | push : SendStep σ (.checkAndPush (.push r)) (.pushGlobal r) [.send (.wakeUp .testSleeping)]
  | wakeUp : WakeStep σ p op next →
      SendStep σ (.wakeUp p) op (next.toList.map fun p' => .send (.wakeUp p'))

theorem SendPc.step_cases {pc : SendPc} (h : pc.step σ c = some (op, fs)) : SendStep σ pc op fs := by
  cases pc with
  | find target m =>
    simp only [SendPc.step] at h
    split at h <;> cases h
    · rename_i hf; exact .unknown hf
    · rename_i r hf; exact .found hf
  | pushMessage r m => cases h; exact .pushMessage
  | checkAndPush p =>
    simp only [SendPc.step] at h
    split at h <;> cases h <;> rename_i hp <;> cases PushPc.step_cases hp
    · rename_i hflag; exact .won hflag
    · rename_i hflag; exact .lost hflag
    · exact .push
  | wakeUp p =>
    obtain ⟨⟨op', next⟩, hp, heq⟩ := Option.map_eq_some_iff.mp h
    cases heq
    exact .wakeUp (WakePc.step_cases hp)

/-- A step of `BlockWorker` by worker `w`. -/
inductive BlockStep (σ : Shared) (w : Nat) : BlockPc → Op → Option BlockPc → Prop
  | lock : σ.mutexLocked = false → BlockStep σ w .lock .lockMutex (some .increment)
  | increment : BlockStep σ w .increment .incrementSleep (some .wait)
  | wait : BlockStep σ w .wait (.joinWaitSet w) (some .waiting)
  | waiting : w ∉ σ.waitSet → σ.mutexLocked = false →
      BlockStep σ w .waiting .lockMutex (some .decrement)
  | decrement : BlockStep σ w .decrement .decrementSleep (some .unlock)
  | unlock : BlockStep σ w .unlock .unlockMutex none

theorem BlockPc.step_cases {p : BlockPc} (h : p.step σ w = some (op, next)) :
    BlockStep σ w p op next := by
  cases p with
  | lock =>
    simp only [BlockPc.step] at h
    split at h
    · cases h
    · rename_i hm; cases h; exact .lock (Bool.eq_false_iff.mpr hm)
  | waiting =>
    simp only [BlockPc.step] at h
    split at h
    · cases h
    · rename_i hm; cases h
      exact .waiting (fun hw => hm (.inl hw)) (Bool.eq_false_iff.mpr fun hl => hm (.inr hl))
  | increment => cases h; exact .increment
  | wait => cases h; exact .wait
  | decrement => cases h; exact .decrement
  | unlock => cases h; exact .unlock

theorem BlockStep.isSleep (h : BlockStep σ w p op next) : op.isSleep := by
  cases h <;> rfl

inductive WorkerStep (σ : Shared) (w : ServiceWorker) : WorkerPc → Op → List Frame → Prop
  | popNull : σ.globalServiceQueue = [] →
      WorkerStep σ w .popFront .silent [.worker w (.block .lock)]
  | pop : σ.globalServiceQueue = r :: queue →
      WorkerStep σ w .popFront (.popGlobal r) [.worker w (.clearFlag r)]
  | clearFlag :
      WorkerStep σ w (.clearFlag r) (.clearFlag r) [.worker w (.processMessages r 0)]
  | popNoMessage {i : Nat} : i < w.processingNum → (σ.services r).messageQueue = [] →
      WorkerStep σ w (.processMessages r i) .silent [.worker w (.processMessages r (i + 1))]
  | popMessage {i : Nat} : i < w.processingNum → (σ.services r).messageQueue = m :: messages →
      WorkerStep σ w (.processMessages r i) (.popMessage r m)
        [.handler r m, .worker w (.processMessages r (i + 1))]
  | processed {i : Nat} : w.processingNum ≤ i →
      WorkerStep σ w (.processMessages r i) .silent [.worker w (.checkExisting r)]
  | exiting : (σ.services r).isExisting = true →
      WorkerStep σ w (.checkExisting r) .silent [.worker w .popFront]
  | notExiting : (σ.services r).isExisting = false →
      WorkerStep σ w (.checkExisting r) .silent [.worker w (.checkEmpty r)]
  | empty : (σ.services r).messageQueue = [] →
      WorkerStep σ w (.checkEmpty r) .silent [.worker w .popFront]
  | notEmpty : (σ.services r).messageQueue ≠ [] →
      WorkerStep σ w (.checkEmpty r) .silent [.worker w (.checkAndPush (.swap r))]
  | won : (σ.services r).isInGlobalQueue = false →
      WorkerStep σ w (.checkAndPush (.swap r)) (.raiseFlag r) [.worker w (.checkAndPush (.push r))]
  | lost : (σ.services r).isInGlobalQueue = true →
      WorkerStep σ w (.checkAndPush (.swap r)) (.raiseFlag r) [.worker w .popFront]
  | push : WorkerStep σ w (.checkAndPush (.push r)) (.pushGlobal r) [.worker w .popFront]
  | block : BlockStep σ w.id p op next →
      WorkerStep σ w (.block p) op [.worker w (next.elim .popFront .block)]

theorem WorkerPc.step_cases {pc : WorkerPc} (h : pc.step σ w = some (op, fs)) :
    WorkerStep σ w pc op fs := by
  cases pc with
  | popFront =>
    cases hq : σ.globalServiceQueue <;> simp only [WorkerPc.step, hq] at h <;> cases h
    · exact .popNull hq
    · exact .pop hq
  | clearFlag r => cases h; exact .clearFlag
  | processMessages r i =>
    simp only [WorkerPc.step] at h
    split at h
    · rename_i hi
      cases hq : (σ.services r).messageQueue <;> rw [hq] at h <;> cases h
      · exact .popNoMessage hi hq
      · exact .popMessage hi hq
    · rename_i hi; cases h; exact .processed (Int.not_lt.mp hi)
  | checkExisting r =>
    cases he : (σ.services r).isExisting <;> simp only [WorkerPc.step, he] at h <;> cases h
    · exact .notExiting he
    · exact .exiting he
  | checkEmpty r =>
    cases hq : (σ.services r).messageQueue <;> simp only [WorkerPc.step, hq] at h <;> cases h
    · exact .empty hq
    · exact .notEmpty (by simp [hq])
  | checkAndPush p =>
    simp only [WorkerPc.step] at h
    split at h <;> cases h <;> rename_i hp <;> cases PushPc.step_cases hp
    · rename_i hflag; exact .won hflag
    · rename_i hflag; exact .lost hflag
    · exact .push
  | block p =>
    obtain ⟨⟨op', next⟩, hp, heq⟩ := Option.map_eq_some_iff.mp h
    cases heq
    exact .block (BlockPc.step_cases hp)

-- ---------------------------------------------------------------------------
-- Where an operation comes from
-- ---------------------------------------------------------------------------

theorem scheduling_op (h : Frame.step σ f c = some (op, fs)) (hop : op.isScheduling) :
    (∃ w pc, f = .worker w pc ∧ WorkerStep σ w pc op fs) ∨
      ∃ pc, f = .send pc ∧ SendStep σ pc op fs := by
  cases f with
  | worker w pc => exact .inl ⟨w, pc, rfl, WorkerPc.step_cases h⟩
  | send pc => exact .inr ⟨pc, rfl, SendPc.step_cases h⟩
  | _ =>
    have ho := step_other rfl h
    rw [ho.outside] at hop
    cases hop

theorem popGlobal_op (h : Frame.step σ f c = some (.popGlobal r, fs)) :
    ∃ w queue, f = .worker w .popFront ∧ σ.globalServiceQueue = r :: queue ∧
      fs = [.worker w (.clearFlag r)] := by
  rcases scheduling_op h rfl with ⟨w, pc, rfl, hs⟩ | ⟨pc, rfl, hs⟩
  · cases hs with
    | pop hq => exact ⟨w, _, rfl, hq, rfl⟩
    | block hb => cases hb.isSleep
  · cases hs with
    | wakeUp hw => cases hw.isSleep

theorem popMessage_op (h : Frame.step σ f c = some (.popMessage r m, fs)) :
    ∃ w i messages, f = .worker w (.processMessages r i) ∧
      (σ.services r).messageQueue = m :: messages ∧ (i : Int) < w.processingNum ∧
      fs = [.handler r m, .worker w (.processMessages r (i + 1))] := by
  rcases scheduling_op h rfl with ⟨w, pc, rfl, hs⟩ | ⟨pc, rfl, hs⟩
  · cases hs with
    | popMessage hi hq => exact ⟨w, _, _, rfl, hq, hi, rfl⟩
    | block hb => cases hb.isSleep
  · cases hs with
    | wakeUp hw => cases hw.isSleep

theorem pushMessage_op (h : Frame.step σ f c = some (.pushMessage r m, fs)) :
    f = .send (.pushMessage r m) ∧ fs = [.send (.checkAndPush (.swap r))] := by
  rcases scheduling_op h rfl with ⟨w, pc, rfl, hs⟩ | ⟨pc, rfl, hs⟩
  · cases hs with
    | block hb => cases hb.isSleep
  · cases hs with
    | pushMessage => exact ⟨rfl, rfl⟩
    | wakeUp hw => cases hw.isSleep

-- ---------------------------------------------------------------------------
-- Effects
-- ---------------------------------------------------------------------------

theorem services_sleep {op : Op} (h : op.isSleep) : (σ.apply op).services = σ.services := by
  cases op <;> first | rfl | cases h

theorem globalServiceQueue_sleep {op : Op} (h : op.isSleep) :
    (σ.apply op).globalServiceQueue = σ.globalServiceQueue := by
  cases op <;> first | rfl | cases h

theorem existing_scheduling {op : Op} (h : op.isScheduling) :
    ((σ.apply op).services r).isExisting = (σ.services r).isExisting := by
  cases op with
  | pushMessage | popMessage | raiseFlag | clearFlag =>
    simp only [Shared.apply, services_updateService]; split <;> simp [*]
  | pushGlobal | popGlobal | lockMutex | unlockMutex | incrementSleep | decrementSleep
  | joinWaitSet | signal => rfl
  | _ => cases h

section
variable (σ : Shared) (r r' : ServiceRef)

@[simp] theorem flag_pushMessage :
    ((σ.apply (.pushMessage r m)).services r').isInGlobalQueue =
      (σ.services r').isInGlobalQueue := by
  simp only [Shared.apply, services_updateService]; split <;> simp [*]

@[simp] theorem flag_popMessage :
    ((σ.apply (.popMessage r m)).services r').isInGlobalQueue =
      (σ.services r').isInGlobalQueue := by
  simp only [Shared.apply, services_updateService]; split <;> simp [*]

theorem flag_raiseFlag :
    ((σ.apply (.raiseFlag r)).services r').isInGlobalQueue =
      if r' = r then true else (σ.services r').isInGlobalQueue := by
  simp only [Shared.apply, services_updateService]; split <;> rfl

theorem flag_clearFlag :
    ((σ.apply (.clearFlag r)).services r').isInGlobalQueue =
      if r' = r then false else (σ.services r').isInGlobalQueue := by
  simp only [Shared.apply, services_updateService]; split <;> rfl

theorem messageQueue_pushMessage :
    ((σ.apply (.pushMessage r m)).services r').messageQueue =
      if r' = r then (σ.services r).messageQueue ++ [m] else (σ.services r').messageQueue := by
  simp only [Shared.apply, services_updateService]; split <;> rfl

theorem messageQueue_popMessage :
    ((σ.apply (.popMessage r m)).services r').messageQueue =
      if r' = r then (σ.services r).messageQueue.tail else (σ.services r').messageQueue := by
  simp only [Shared.apply, services_updateService]
  split
  · cases (σ.services r).messageQueue <;> rfl
  · rfl

@[simp] theorem messageQueue_raiseFlag :
    ((σ.apply (.raiseFlag r)).services r').messageQueue = (σ.services r').messageQueue := by
  simp only [Shared.apply, services_updateService]; split <;> simp [*]

@[simp] theorem messageQueue_clearFlag :
    ((σ.apply (.clearFlag r)).services r').messageQueue = (σ.services r').messageQueue := by
  simp only [Shared.apply, services_updateService]; split <;> simp [*]

@[simp] theorem services_pushGlobal : (σ.apply (.pushGlobal r)).services = σ.services := rfl

@[simp] theorem services_popGlobal : (σ.apply (.popGlobal r)).services = σ.services := rfl

@[simp] theorem globalServiceQueue_pushGlobal :
    (σ.apply (.pushGlobal r)).globalServiceQueue = σ.globalServiceQueue ++ [r] := rfl

theorem globalServiceQueue_popGlobal :
    (σ.apply (.popGlobal r)).globalServiceQueue = σ.globalServiceQueue.tail := by
  simp only [Shared.apply]; cases σ.globalServiceQueue <;> rfl

@[simp] theorem globalServiceQueue_pushMessage :
    (σ.apply (.pushMessage r m)).globalServiceQueue = σ.globalServiceQueue := rfl

@[simp] theorem globalServiceQueue_popMessage :
    (σ.apply (.popMessage r m)).globalServiceQueue = σ.globalServiceQueue := rfl

@[simp] theorem globalServiceQueue_raiseFlag :
    (σ.apply (.raiseFlag r)).globalServiceQueue = σ.globalServiceQueue := rfl

@[simp] theorem globalServiceQueue_clearFlag :
    (σ.apply (.clearFlag r)).globalServiceQueue = σ.globalServiceQueue := rfl

end

end XianNet
