import XianNet.Frame

/-!
# Sending, working and sleeping

`SendMessage` and the worker's loop, one atomic step for each access to a
container or a shared field.
-/

namespace XianNet

/-- A swap that finds the flag set ends the call; the result is whether this
thread won the swap. -/
def PushPc.step (σ : Shared) : PushPc → Op × (PushPc ⊕ Bool)
  | .swap s => (.raiseFlag s, if (σ.services s).isInGlobalQueue then .inr false else .inl (.push s))
  | .push s => (.pushGlobal s, .inr true)

/-- `none` in the result: the call returns. `sleep_count_` is read without its
lock, so each read is a step of its own. -/
def WakePc.step (σ : Shared) (pc : WakePc) (c : Choice) : Option (Op × Option WakePc) :=
  match pc, c with
  | .testSleeping, _ => some (.silent, if σ.sleepCount = 0 then none else some .readSleepCount)
  | .readSleepCount, _ => some (.silent, some (.compareSize (σ.threadSize - σ.sleepCount)))
  | .compareSize awake, _ =>
    some (.silent, if awake ≤ σ.globalServiceQueue.getSize then some .signal else none)
  | .signal, .waiter k =>
    match σ.waitSet[k]? with
    | some w => some (.signal (some w), none)
    | none => if σ.waitSet.isEmpty then some (.signal none, none) else none
  | .signal, _ => none

def SendPc.step (σ : Shared) (pc : SendPc) (c : Choice) : Option (Op × List Frame) :=
  match pc with
  | .find target m =>
    match σ.serviceMap.find target with
    | none => some (.silent, [])
    | some s => some (.silent, [.send (.pushMessage s m)])
  | .pushMessage s m => some (.pushMessage s m, [.send (.checkAndPush (.swap s))])
  | .checkAndPush p =>
    match p.step σ with
    | (op, .inl p') => some (op, [.send (.checkAndPush p')])
    | (op, .inr hasPush) => some (op, if hasPush then [.send (.wakeUp .testSleeping)] else [])
  | .wakeUp p =>
    (p.step σ c).map fun r => (r.1, r.2.toList.map fun p' => .send (.wakeUp p'))

/-- `pthread_cond_wait` returns once a signal took the worker out of the wait
set and the mutex is free again. -/
def BlockPc.step (σ : Shared) (w : Nat) : BlockPc → Option (Op × Option BlockPc)
  | .lock => if σ.mutexLocked then none else some (.lockMutex, some .increment)
  | .increment => some (.incrementSleep, some .wait)
  | .wait => some (.joinWaitSet w, some .waiting)
  | .waiting => if w ∈ σ.waitSet ∨ σ.mutexLocked then none else some (.lockMutex, some .decrement)
  | .decrement => some (.decrementSleep, some .unlock)
  | .unlock => some (.unlockMutex, none)

/-- `ProcessMessages` runs its index up to `processing_num_` whether or not a
message was there. -/
def WorkerPc.step (σ : Shared) (w : ServiceWorker) : WorkerPc → Option (Op × List Frame)
  | .popFront =>
    match σ.globalServiceQueue.popFront.1 with
    | none => some (.silent, [.worker w (.block .lock)])
    | some s => some (.popGlobal s, [.worker w (.clearFlag s)])
  | .clearFlag s => some (.clearFlag s, [.worker w (.processMessages s 0)])
  | .processMessages s i =>
    if i < w.processingNum then
      match (σ.services s).messageQueue.popFront.1 with
      | none => some (.silent, [.worker w (.processMessages s (i + 1))])
      | some m => some (.popMessage s m, [.handler s m, .worker w (.processMessages s (i + 1))])
    else some (.silent, [.worker w (.checkExisting s)])
  | .checkExisting s =>
    some (.silent, [.worker w (if (σ.services s).isExisting then .popFront else .checkEmpty s)])
  | .checkEmpty s =>
    some (.silent, [.worker w
      (if (σ.services s).messageQueue.isEmpty then .popFront else .checkAndPush (.swap s))])
  | .checkAndPush p =>
    match p.step σ with
    | (op, .inl p') => some (op, [.worker w (.checkAndPush p')])
    | (op, .inr _) => some (op, [.worker w .popFront])
  | .block p =>
    (p.step σ w.id).map fun r => (r.1, [.worker w (r.2.elim .popFront .block)])

end XianNet
