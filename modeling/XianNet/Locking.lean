import XianNet.Interleaving.Locks
import XianNet.ServiceTable

/-!
# Container methods under their locks

One step of the system is one method of a container. Here each method that
takes a lock is what its class does: it takes the spin lock or the read-write
lock, looks at the container, changes it with one access and releases the lock.
`GetSize` takes none and stays one read. The system with these methods does what
the system does (`lockedSystem_refines`), and no method is stuck
(`lockedSystem_progress`).
-/

namespace XianNet

open Interleaving

-- ---------------------------------------------------------------------------
-- The methods
-- ---------------------------------------------------------------------------

/-- `PopFront` -/
def SpinlockQueue.popFrontBody (k : Option α → ρ) : Body (SpinlockQueue α) Shared ρ :=
  .read fun q => if q.isEmpty then .act fun _ => k none else .read fun q => .act fun _ => k q.head?

/-- `IsEmpty` -/
def SpinlockQueue.isEmptyBody (k : Bool → ρ) : Body (SpinlockQueue α) Shared ρ :=
  .read fun q => .act fun _ => k q.isEmpty

/-- `SetCurrentAndGetPrevious` -/
def setCurrentAndGetPreviousBody (k : Bool → ρ) : Body Bool Shared ρ :=
  .read fun previous => .act fun _ => k previous

/-- `Find`: the iterator, and its value unless it is `end()`. -/
def RwlockUnorderedMap.findBody (map : α → RwlockUnorderedMap κ β) (key : κ) (k : Option β → ρ) :
    Body α Shared ρ :=
  .read fun x =>
    if ((map x).find key).isSome then .read fun x => .act fun _ => k ((map x).find key)
    else .act fun _ => k none

/-- The containers with a lock of their own. -/
inductive ContainerLock
  | serviceMap
  | globalServiceQueue
  | connectionMap
  | messageQueue (s : ServiceRef)
  | isInGlobalQueue (s : ServiceRef)
  deriving DecidableEq, Repr

def ContainerLock.Part : ContainerLock → Type
  | .serviceMap => ServiceMap
  | .globalServiceQueue => SpinlockQueue ServiceRef
  | .connectionMap => RwlockUnorderedMap UInt32 Connection
  | .messageQueue _ => SpinlockQueue BaseMessage
  | .isInGlobalQueue _ => Bool

/-- The contents of a container. -/
def Shared.part (σ : Shared) : (i : ContainerLock) → i.Part
  | .serviceMap => σ.serviceMap
  | .globalServiceQueue => σ.globalServiceQueue
  | .connectionMap => σ.connectionMap
  | .messageQueue s => (σ.services s).messageQueue
  | .isInGlobalQueue s => (σ.services s).isInGlobalQueue

abbrev ContainerMethod := Method ContainerLock ContainerLock.Part Shared (Op × List Frame)

/-- The two methods of `CheckAndPushGlobalServiceQueue`. -/
def PushPc.method (k : PushPc ⊕ Bool → List Frame) : PushPc → ContainerMethod
  | .swap s => ⟨.isInGlobalQueue s, .exclusive, setCurrentAndGetPreviousBody fun previous =>
      (.raiseFlag s, k (if previous then .inr false else .inl (.push s)))⟩
  | .push s => ⟨.globalServiceQueue, .exclusive, .act fun _ => (.pushGlobal s, k (.inr true))⟩

def SendPc.method : SendPc → Option ContainerMethod
  | .find target m => some ⟨.serviceMap, .shared,
      RwlockUnorderedMap.findBody ServiceMap.toRwlockUnorderedMap target fun found =>
        (.silent, (found.map fun s => .send (.pushMessage s m)).toList)⟩
  | .pushMessage s m => some ⟨.messageQueue s, .exclusive,
      .act fun _ => (.pushMessage s m, [.send (.checkAndPush (.swap s))])⟩
  | .checkAndPush p => some (p.method fun
      | .inl p' => [.send (.checkAndPush p')]
      | .inr hasPush => if hasPush then [.send (.wakeUp .testSleeping)] else [])
  | .wakeUp _ => none

def WorkerPc.method (w : ServiceWorker) : WorkerPc → Option ContainerMethod
  | .popFront => some ⟨.globalServiceQueue, .exclusive, SpinlockQueue.popFrontBody fun
      | none => (.silent, [.worker w (.block .lock)])
      | some s => (.popGlobal s, [.worker w (.clearFlag s)])⟩
  | .clearFlag s => some ⟨.isInGlobalQueue s, .exclusive,
      .act fun _ => (.clearFlag s, [.worker w (.processMessages s 0)])⟩
  | .processMessages s i =>
    if i < w.processingNum then
      some ⟨.messageQueue s, .exclusive, SpinlockQueue.popFrontBody fun
        | none => (.silent, [.worker w (.processMessages s (i + 1))])
        | some m => (.popMessage s m, [.handler s m, .worker w (.processMessages s (i + 1))])⟩
    else none
  | .checkEmpty s => some ⟨.messageQueue s, .exclusive, SpinlockQueue.isEmptyBody fun empty =>
      (.silent, [.worker w (if empty then .popFront else .checkAndPush (.swap s))])⟩
  | .checkAndPush p => some (p.method fun
      | .inl p' => [.worker w (.checkAndPush p')]
      | .inr _ => [.worker w .popFront])
  | .checkExisting _ | .block _ => none

/-- The method that a frame calls next. The three writes of `AddService` are one
access here; nobody else has the service's pointer yet. -/
def Frame.method : Frame → Option ContainerMethod
  | .send pc => pc.method
  | .worker w pc => pc.method w
  | .addService s => some ⟨.serviceMap, .exclusive, .act fun _ => (.addService s, [])⟩
  | .kill (.find id) => some ⟨.serviceMap, .shared,
      RwlockUnorderedMap.findBody ServiceMap.toRwlockUnorderedMap id fun
        | none => (.silent, [])
        | some s => (.silent, [.onExit s, .kill (.setExisting s), .kill (.erase id)])⟩
  | .kill (.erase id) => some ⟨.serviceMap, .exclusive, .act fun _ => (.eraseService id, [])⟩
  | .socket (.dispatch (e :: events)) => some ⟨.connectionMap, .shared,
      RwlockUnorderedMap.findBody (fun x => x) e.fd.toUInt32 fun
        | none => (.silent, [.socket (.dispatch events)])
        | some c => (.silent, onEventFrames c e ++ [.socket (.dispatch events)])⟩
  | .accept (.addConnection fd conn) => some ⟨.connectionMap, .exclusive, .act fun σ =>
      (.emplaceConnection fd ⟨.client, fd, conn.serviceId, σ.kernel.descriptors fd⟩,
        [.accept (.addEvent fd conn)])⟩
  | .listen (.addConnection fd serviceId) => some ⟨.connectionMap, .exclusive, .act fun σ =>
      (.emplaceConnection fd ⟨.listen, fd, serviceId, σ.kernel.descriptors fd⟩,
        [.listen (.addEvent fd)])⟩
  | .close (.erase fd) => some ⟨.connectionMap, .exclusive, .act fun σ =>
      (.eraseConnection fd, [.close (.close fd (σ.connectionMap.find fd).isSome)])⟩
  | _ => none

variable {σ : Shared} {f : Frame} {fs : List Frame} {op : Op} {c : Choice}

-- ---------------------------------------------------------------------------
-- The methods compute the steps
-- ---------------------------------------------------------------------------

@[simp] theorem SpinlockQueue.eval_popFrontBody (q : SpinlockQueue α) (k : Option α → ρ) :
    (popFrontBody k).eval q σ = k q.popFront.1 := by
  cases q <;> rfl

@[simp] theorem SpinlockQueue.eval_isEmptyBody (q : SpinlockQueue α) (k : Bool → ρ) :
    (isEmptyBody k).eval q σ = k q.isEmpty := rfl

@[simp] theorem eval_setCurrentAndGetPreviousBody (previous : Bool) (k : Bool → ρ) :
    (setCurrentAndGetPreviousBody k).eval previous σ = k previous := rfl

@[simp] theorem RwlockUnorderedMap.eval_findBody (map : α → RwlockUnorderedMap κ β) (key : κ)
    (k : Option β → ρ) (x : α) : (findBody map key k).eval x σ = k ((map x).find key) := by
  simp only [findBody, Body.eval]
  cases h : (map x).find key with
  | none => rfl
  | some => simp [Body.eval, h]

theorem SendPc.eval_method {pc : SendPc} (h : pc.method = some m) (c : Choice) :
    pc.step σ c = some (m.body.eval (σ.part m.lock) σ) := by
  cases pc with
  | find target msg =>
    cases h
    simp only [SendPc.step, Shared.part]
    refine Eq.trans ?_ (congrArg some (RwlockUnorderedMap.eval_findBody ..).symm)
    cases σ.serviceMap.find target <;> rfl
  | pushMessage => cases h; rfl
  | checkAndPush p =>
    cases h
    cases p with
    | swap s =>
      simp only [SendPc.step, PushPc.step, PushPc.method, Shared.part]
      cases (σ.services s).isInGlobalQueue <;> rfl
    | push => rfl
  | wakeUp => cases h

theorem WorkerPc.eval_method {pc : WorkerPc} (h : pc.method w = some m) :
    pc.step σ w = some (m.body.eval (σ.part m.lock) σ) := by
  cases pc with
  | popFront =>
    cases h
    simp only [WorkerPc.step, Shared.part]
    refine Eq.trans ?_ (congrArg some (SpinlockQueue.eval_popFrontBody ..).symm)
    cases σ.globalServiceQueue.popFront.1 <;> rfl
  | clearFlag => cases h; rfl
  | processMessages s i =>
    simp only [WorkerPc.method] at h
    split at h
    · rename_i hi
      cases h
      simp only [WorkerPc.step, hi, ↓reduceIte, Shared.part]
      refine Eq.trans ?_ (congrArg some (SpinlockQueue.eval_popFrontBody ..).symm)
      cases (σ.services s).messageQueue.popFront.1 <;> rfl
    · cases h
  | checkEmpty => cases h; rfl
  | checkAndPush p =>
    cases h
    cases p with
    | swap s =>
      simp only [WorkerPc.step, PushPc.step, PushPc.method, Shared.part]
      cases (σ.services s).isInGlobalQueue <;> rfl
    | push => rfl
  | checkExisting | block => cases h

/-- Nobody interfering, a method does the step of the system. -/
theorem Frame.eval_method (h : f.method = some m) (c : Choice) :
    Frame.step σ f c = some (m.body.eval (σ.part m.lock) σ) := by
  cases f with
  | send pc => exact SendPc.eval_method h c
  | worker w pc => exact WorkerPc.eval_method h
  | addService => cases h; rfl
  | kill pc =>
    cases pc with
    | find id =>
      cases h
      simp only [Frame.step, KillPc.step, Shared.part]
      refine Eq.trans ?_ (congrArg some (RwlockUnorderedMap.eval_findBody ..).symm)
      cases σ.serviceMap.find id <;> rfl
    | erase => cases h; rfl
    | setExisting => cases h
  | socket pc =>
    cases pc with
    | epollWait => cases h
    | dispatch events =>
      cases events with
      | nil => cases h
      | cons e events =>
        cases h
        simp only [Frame.step, SocketPc.step, Shared.part]
        refine Eq.trans ?_ (congrArg some (RwlockUnorderedMap.eval_findBody ..).symm)
        cases σ.connectionMap.find e.fd.toUInt32 <;> rfl
  | accept pc =>
    cases pc with
    | addConnection => cases h; cases c <;> rfl
    | _ => cases h
  | listen pc =>
    cases pc with
    | addConnection => cases h; cases c <;> rfl
    | _ => cases h
  | close pc =>
    cases pc with
    | erase => cases h; rfl
    | _ => cases h
  | _ => cases h

def containerGuards : Guards system ContainerLock ContainerLock.Part where
  proj i σ := σ.part i
  method f _ := f.method
  sound h _ := Frame.eval_method h _

-- ---------------------------------------------------------------------------
-- Who writes a container
-- ---------------------------------------------------------------------------

def Op.writes : Op → Option ContainerLock
  | .pushMessage s _ | .popMessage s _ => some (.messageQueue s)
  | .raiseFlag s | .clearFlag s => some (.isInGlobalQueue s)
  | .pushGlobal _ | .popGlobal _ => some .globalServiceQueue
  | .addService _ | .eraseService _ => some .serviceMap
  | .emplaceConnection .. | .eraseConnection _ => some .connectionMap
  | _ => none

/-- Who writes a container has its lock, and not as a reader. -/
theorem writes_method (h : Frame.step σ f c = some (op, fs)) (hop : op.writes = some i) :
    ∃ m, f.method = some m ∧ m.lock = i ∧ m.mode = .exclusive := by
  cases Frame.step_inv h with
  | worker hs =>
    cases hs with
    | block hb => cases hb <;> cases hop
    | popMessage hi => cases hop; exact ⟨_, if_pos hi, rfl, rfl⟩
    | pop | clearFlag | won | lost | push => cases hop; exact ⟨_, rfl, rfl, rfl⟩
    | _ => cases hop
  | send hs =>
    cases hs with
    | wakeUp hw => cases hw <;> cases hop
    | pushMessage | won | lost | push => cases hop; exact ⟨_, rfl, rfl, rfl⟩
    | _ => cases hop
  | service hs =>
    cases hs with
    | addService | erase => cases hop; exact ⟨_, rfl, rfl, rfl⟩
    | _ => cases hop
  | accept hs =>
    cases hs with
    | addConnection => cases hop; exact ⟨_, rfl, rfl, rfl⟩
    | _ => cases hop
  | listen hs =>
    cases hs with
    | addConnection => cases hop; exact ⟨_, rfl, rfl, rfl⟩
    | _ => cases hop
  | close hs =>
    cases hs with
    | erase => cases hop; exact ⟨_, rfl, rfl, rfl⟩
    | _ => cases hop
  | network hs | socket hs | gateway hs | modify hs => cases hs <;> cases hop

theorem messageQueue_scheduling {op : Op} (hs : op.isScheduling)
    (hop : op.writes ≠ some (.messageQueue r)) :
    ((σ.apply op).services r).messageQueue = (σ.services r).messageQueue := by
  cases op with
  | pushMessage s m => rw [messageQueue_pushMessage, if_neg fun h => hop (by rw [h, Op.writes])]
  | popMessage s m => rw [messageQueue_popMessage, if_neg fun h => hop (by rw [h, Op.writes])]
  | raiseFlag | clearFlag => simp
  | _ => first | rfl | cases hs

theorem flag_scheduling {op : Op} (hs : op.isScheduling)
    (hop : op.writes ≠ some (.isInGlobalQueue r)) :
    ((σ.apply op).services r).isInGlobalQueue = (σ.services r).isInGlobalQueue := by
  cases op with
  | raiseFlag s => rw [flag_raiseFlag, if_neg fun h => hop (by rw [h, Op.writes])]
  | clearFlag s => rw [flag_clearFlag, if_neg fun h => hop (by rw [h, Op.writes])]
  | pushMessage | popMessage => simp
  | _ => first | rfl | cases hs

/-- An operation leaves the containers alone that it does not write. -/
theorem part_apply (h : Frame.step σ f c = some (op, fs)) (hr : RefsOk σ F)
    (hop : op.writes ≠ some i) : (σ.apply op).part i = σ.part i := by
  by_cases hs : op.isScheduling
  · cases i with
    | messageQueue r => exact messageQueue_scheduling hs hop
    | isInGlobalQueue r => exact flag_scheduling hs hop
    | _ => cases op <;> first | rfl | exact absurd rfl hop
  · have hsame := sameScheduling_step h hr (Bool.eq_false_iff.mpr hs)
    cases i with
    | globalServiceQueue => exact hsame.queue
    | messageQueue r => exact hsame.messages r
    | isInGlobalQueue r => exact hsame.flag r
    | serviceMap | connectionMap => cases op <;> first | rfl | exact absurd rfl hop

theorem containerGuards_stable : containerGuards.Stable (initial n p k) := by
  intro u l u' i hreach hs hshared
  obtain ⟨fs, R, hm, hF, -, heq⟩ := hs.frames
  show u'.shared.part i = u.shared.part i
  rw [heq]
  refine part_apply hm (Reach.refsOk hreach) fun hop => ?_
  obtain ⟨m, hmeth, hlock, hmode⟩ := writes_method hm hop
  have hread := hshared m hmeth hlock
  rw [hmode] at hread
  cases hread

-- ---------------------------------------------------------------------------
-- The system with its locks
-- ---------------------------------------------------------------------------

abbrev LockedShared := Locked Shared ContainerLock
abbrev ContainerFrame := LockedFrame Frame Choice Op Shared ContainerLock ContainerLock.Part
abbrev ContainerOp := LockedOp Op ContainerLock

/-- The system in which every container method takes and releases its lock. -/
def lockedSystem : Interleaving.Machine LockedShared ContainerFrame Choice ContainerOp :=
  containerGuards.locked

def lockedInitial (threadSize : Nat) (processingNum : Nat → Int) (callers : Nat) :
    Interleaving.State LockedShared ContainerFrame where
  shared := ⟨Shared.initial threadSize, fun _ => {}⟩
  threads := (initial threadSize processingNum callers).threads.map (·.map .plain)

theorem forget_lockedInitial : forget (lockedInitial n p k) = initial n p k := by
  have hplain : List.flatMap LockedFrame.base ∘
      List.map (LockedFrame.plain : _ → ContainerFrame) = id :=
    funext flatMap_base_plain
  simp only [forget, lockedInitial, List.map_map, hplain, List.map_id]
  rfl

theorem lockedInitial_unlocked : Unlocked (lockedInitial n p k) where
  frames f hf := by
    obtain ⟨t, stack, ht, hf⟩ := State.mem_frames.mp hf
    simp only [lockedInitial, List.getElem?_map, Option.map_eq_some_iff] at ht
    obtain ⟨stack', -, rfl⟩ := ht
    obtain ⟨f₀, -, rfl⟩ := List.mem_map.mp hf
    exact ⟨f₀, rfl⟩
  locks _ := rfl

/-- Between its lock and its release a method that takes one is interleaved
with every other thread. Still, whatever the threads do is what they do in some
run of the system, where the method is one step. -/
theorem lockedSystem_refines (h : lockedSystem.Exec Any (lockedInitial n p k) tr' s) :
    ∃ tr, system.Exec Any (initial n p k) tr (forget s) ∧
      tr.flatMap Label.done = tr'.flatMap LockedOp.done := by
  rw [← forget_lockedInitial]
  exact Guards.refines lockedInitial_unlocked (forget_lockedInitial ▸ containerGuards_stable)
    ⟨fun _ _ _ _ _ _ => trivial, fun _ _ _ _ _ _ _ => trivial⟩ h

/-- Thread 4 looks for service 0 while thread 3 has the write lock to add it. -/
theorem lockedSystem_refines_contended :
    ∃ tr' s tr, lockedSystem.Exec Any (lockedInitial 1 (fun i => 1 <<< i) 2) tr' s ∧
      (tr'.flatMap LockedOp.done).map (·.1) = [3, 4, 3, 4] ∧ tr'.length = 12 ∧
      system.Exec Any (initial 1 (fun i => 1 <<< i) 2) tr (forget s) ∧
      tr.flatMap Label.done = tr'.flatMap LockedOp.done := by
  have h : ((lockedSystem.record Any (lockedInitial 1 (fun i => 1 <<< i) 2)
      ((3, .newGatewayService "gateway" 0) :: steps 3 2 ++
        (4, .sendMessage 0 (scriptMessage {} "")) :: steps 4 1 ++
        steps 3 2 ++ steps 4 5)).any fun r =>
        (r.1.flatMap LockedOp.done).map (·.1) = [3, 4, 3, 4] ∧ r.1.length = 12) = true := by
    decide +kernel
  obtain ⟨tr', s, hs, hdone, hlen⟩ := Machine.exists_of_record h
  obtain ⟨tr, hrun, hsame⟩ := lockedSystem_refines hs
  exact ⟨tr', s, tr, hs, hdone, hlen, hrun, hsame⟩

/-- No thread is stuck at the lock of a container: others can step so that the
lock is free. -/
theorem lockedSystem_progress {f : ContainerFrame} {rest : List ContainerFrame}
    (h : lockedSystem.Reach Any (lockedInitial n p k) s)
    (ht : s.threads[t]? = some (f :: rest)) (hf : f.waits = some (i, mode)) :
    ∃ tr s', lockedSystem.Exec Any s tr s' ∧ (∀ l ∈ tr, l.thread ≠ t) ∧
      (s'.shared.locks i).available mode :=
  Guards.progress lockedInitial_unlocked h ht hf

/-- Worker 1 is at the lock of the global queue while worker 0 is inside. -/
theorem lockedSystem_progress_contended :
    ∃ s f rest, lockedSystem.Reach Any (lockedInitial 2 (fun i => 1 <<< i) 1) s ∧
      s.threads[1]? = some (f :: rest) ∧
      (s.shared.locks .globalServiceQueue).available .exclusive = false ∧
      ∃ tr s', lockedSystem.Exec Any s tr s' ∧ (∀ l ∈ tr, l.thread ≠ 1) ∧
        (s'.shared.locks .globalServiceQueue).available .exclusive := by
  have h : ((lockedSystem.record Any (lockedInitial 2 (fun i => 1 <<< i) 1)
      [(1, .go), (0, .go), (0, .go), (0, .go)]).any fun r =>
        (r.2.shared.locks .globalServiceQueue).available .exclusive = false ∧
        ∃ f ∈ (r.2.threads[1]?.bind List.head?), f.waits = some (.globalServiceQueue, .exclusive)) =
      true := by
    decide +kernel
  obtain ⟨tr, s, hs, hlock, f, hf, hwaits⟩ := Machine.exists_of_record h
  obtain ⟨stack, ht, hhead⟩ := Option.bind_eq_some_iff.mp hf
  obtain ⟨rest, rfl⟩ := List.head?_eq_some_iff.mp hhead
  exact ⟨s, f, rest, ⟨tr, hs⟩, ht, hlock, lockedSystem_progress ⟨tr, hs⟩ ht hwaits⟩

end XianNet
