import XianNet.SocketLaws

/-!
# What a step leaves alone

Sending and working are the only frames that touch the queues, the flags and
the sleeping workers. `step_other` says it once for every other frame, so that
an invariant of the scheduler only looks at the steps of `SendPc` and
`WorkerPc`. `Reach.refsOk` says that no frame, queue or map ever names a
service that was not created.
-/

namespace XianNet

open Interleaving (Any)

variable {σ : Shared} {C : State → Label → Prop} {s₀ s : State}

-- ---------------------------------------------------------------------------
-- Updates
-- ---------------------------------------------------------------------------

section
variable (σ : Shared) (r : ServiceRef) (g : BaseService → BaseService)

theorem services_updateService (r' : ServiceRef) :
    (σ.updateService r g).services r' = if r' = r then g (σ.services r) else σ.services r' := by
  by_cases h : r' = r
  · subst h; simp [Shared.updateService]
  · simp [Shared.updateService, h]

@[simp] theorem services_updateService_self :
    (σ.updateService r g).services r = g (σ.services r) := by
  simp [services_updateService]

@[simp] theorem globalServiceQueue_updateService :
    (σ.updateService r g).globalServiceQueue = σ.globalServiceQueue := rfl

@[simp] theorem allocated_updateService : (σ.updateService r g).allocated = σ.allocated := rfl

@[simp] theorem waitSet_updateService : (σ.updateService r g).waitSet = σ.waitSet := rfl

@[simp] theorem sleepCount_updateService : (σ.updateService r g).sleepCount = σ.sleepCount := rfl

@[simp] theorem threadSize_updateService : (σ.updateService r g).threadSize = σ.threadSize := rfl

@[simp] theorem serviceMap_updateService : (σ.updateService r g).serviceMap = σ.serviceMap := rfl

@[simp] theorem connectionMap_updateService :
    (σ.updateService r g).connectionMap = σ.connectionMap := rfl

@[simp] theorem kernel_updateService : (σ.updateService r g).kernel = σ.kernel := rfl

end

-- ---------------------------------------------------------------------------
-- Steps outside the scheduler
-- ---------------------------------------------------------------------------

/-- The frames that act on queues, flags and sleeping workers. -/
def Frame.isScheduling : Frame → Bool
  | .worker _ _ | .send _ => true
  | _ => false

def Frame.isSend : Frame → Bool
  | .send _ => true
  | _ => false

/-- The frames that other frames create: no worker, and a `SendMessage` only
at its start. -/
def Frame.isCall : Frame → Bool
  | .worker _ _ => false
  | .send (.find _ _) => true
  | .send _ => false
  | _ => true

/-- The scheduler sees no difference between the two states. -/
structure SameScheduling (σ σ' : Shared) : Prop where
  queue : σ'.globalServiceQueue = σ.globalServiceQueue
  waitSet : σ'.waitSet = σ.waitSet
  sleepCount : σ'.sleepCount = σ.sleepCount
  threadSize : σ'.threadSize = σ.threadSize
  flag : ∀ r, (σ'.services r).isInGlobalQueue = (σ.services r).isInGlobalQueue
  messages : ∀ r, (σ'.services r).messageQueue = (σ.services r).messageQueue
  existing : ∀ r, (σ.services r).isExisting = true → (σ'.services r).isExisting = true

theorem SameScheduling.updateService
    (h : ∀ service, (g service).isInGlobalQueue = service.isInGlobalQueue ∧
      (g service).messageQueue = service.messageQueue ∧
      (service.isExisting = true → (g service).isExisting = true)) :
    SameScheduling σ (σ.updateService r g) := by
  refine ⟨rfl, rfl, rfl, rfl, fun r' => ?_, fun r' => ?_, fun r' hr => ?_⟩ <;>
    rw [services_updateService] <;> split
  · rename_i hr'; rw [hr', (h _).1]
  · rfl
  · rename_i hr'; rw [hr', (h _).2.1]
  · rfl
  · rename_i hr'; exact (h _).2.2 (hr' ▸ hr)
  · exact hr

theorem SameScheduling.newService (hfresh : σ.services σ.allocated = {})
    (hflag : service.isInGlobalQueue = false) (hmsg : service.messageQueue = []) :
    SameScheduling σ (σ.apply (.newService service)) := by
  refine ⟨rfl, rfl, rfl, rfl, fun r => ?_, fun r => ?_, fun r hr => ?_⟩ <;>
    by_cases h : r = σ.allocated
  · subst h; simp [Shared.apply, hfresh, hflag]
  · simp [Shared.apply, h]
  · subst h; simp [Shared.apply, hfresh, hmsg]
  · simp [Shared.apply, h]
  · subst h; simp [hfresh] at hr
  · simpa [Shared.apply, h] using hr

/-- The operations of the service life cycle and of the sockets. -/
def Op.isScheduling : Op → Bool
  | .pushMessage .. | .popMessage .. | .raiseFlag _ | .clearFlag _ | .pushGlobal _
  | .popGlobal _ | .lockMutex | .unlockMutex | .incrementSleep | .decrementSleep
  | .joinWaitSet _ | .signal _ => true
  | _ => false

theorem sameScheduling_apply {op : Op} (hop : op.isScheduling = false)
    (hfresh : σ.services σ.allocated = {})
    (hnew : ∀ service, op = .newService service →
      service.isInGlobalQueue = false ∧ service.messageQueue = []) :
    SameScheduling σ (σ.apply op) := by
  cases op with
  | newService service =>
    obtain ⟨hflag, hmsg⟩ := hnew service rfl
    exact .newService hfresh hflag hmsg
  | setFunctions r names =>
    exact .updateService (g := fun service => { service with jsFunctionMap := names })
      fun _ => ⟨rfl, rfl, fun h => h⟩
  | setServiceId r id =>
    exact .updateService (g := fun service => { service with serviceIdGlobal := id })
      fun _ => ⟨rfl, rfl, fun h => h⟩
  | setExisting r =>
    exact .updateService (g := fun service => { service with isExisting := true })
      fun _ => ⟨rfl, rfl, fun _ => rfl⟩
  | addService r =>
    have h := SameScheduling.updateService (σ := σ) (r := r)
      (g := fun service => { service with id := σ.serviceMap.autoIncrementId })
      fun _ => ⟨rfl, rfl, fun h => h⟩
    exact ⟨rfl, rfl, rfl, rfl, h.flag, h.messages, h.existing⟩
  | pushMessage | popMessage | raiseFlag | clearFlag | pushGlobal | popGlobal | lockMutex
  | unlockMutex | incrementSleep | decrementSleep | joinWaitSet | signal =>
    simp [Op.isScheduling] at hop
  | _ => exact ⟨rfl, rfl, rfl, rfl, fun _ => rfl, fun _ => rfl, fun _ h => h⟩

-- ---------------------------------------------------------------------------
-- Where a step takes its pointers from
-- ---------------------------------------------------------------------------

def PushPc.ref : PushPc → ServiceRef
  | .swap r | .push r => r

def WorkerPc.refs : WorkerPc → List ServiceRef
  | .clearFlag r | .processMessages r _ | .checkExisting r | .checkEmpty r => [r]
  | .checkAndPush p => [p.ref]
  | .popFront | .block _ => []

/-- The services a frame points to. -/
def Frame.refs : Frame → List ServiceRef
  | .worker _ pc => pc.refs
  | .send (.pushMessage r _) => [r]
  | .send (.checkAndPush p) => [p.ref]
  | .addService r | .onInitialization r | .onExit r | .kill (.setExisting r) => [r]
  | .handler r _ | .processServiceMessage r _ | .processSocketAcceptMessage r _
  | .processSocketRwMessage r _ | .executeJsFunction r _ _ _ | .script r _ => [r]
  | _ => []

/-- The service whose life a frame is part of, and in which phase. A message on
its way into the queue counts as handling. -/
def Frame.stage : Frame → Option (ServiceRef × Phase)
  | .addService r => some (r, .construct)
  | .onInitialization r => some (r, .onInit)
  | .onExit r => some (r, .onExit)
  | .handler r _ | .processServiceMessage r _ | .processSocketAcceptMessage r _
  | .processSocketRwMessage r _ | .send (.pushMessage r _) => some (r, .handler)
  | .executeJsFunction r _ _ phase | .script r phase => some (r, phase)
  | _ => none

/-- The services an operation writes to, or publishes. -/
def Op.refs : Op → List ServiceRef
  | .pushMessage r _ | .popMessage r _ | .raiseFlag r | .clearFlag r | .pushGlobal r
  | .setFunctions r _ | .setServiceId r _ | .addService r | .setExisting r => [r]
  | _ => []

/-- The functions only the socket worker's thread runs. -/
def Frame.isSocketWorker : Frame → Bool
  | .socket _ | .accept _ => true
  | _ => false

/-- Where a step takes a pointer from. -/
def Known (σ : Shared) (f : Frame) (op : Op) (r : ServiceRef) : Prop :=
  r ∈ f.refs ∨ r ∈ σ.globalServiceQueue ∨ (∃ id, σ.serviceMap.find id = some r) ∨
    (r = σ.allocated ∧ ∃ service, op = .newService service)

-- ---------------------------------------------------------------------------
-- The steps
-- ---------------------------------------------------------------------------

theorem socketRwFrames_gateway (hg : g ∈ socketRwFrames m) : ∃ pc, g = .gateway pc := by
  unfold socketRwFrames at hg
  rcases List.mem_append.mp hg with hg | hg <;> split at hg
  · rcases List.mem_pair.mp hg with rfl | rfl <;> exact ⟨_, rfl⟩
  · simp at hg
  · exact ⟨_, List.mem_singleton.mp hg⟩
  · simp at hg

/-- The methods that the dispatch calls, one for each class of messages. -/
def Frame.isMethod : Frame → Bool
  | .processServiceMessage .. | .processSocketAcceptMessage .. | .processSocketRwMessage .. => true
  | _ => false

theorem handlerFrames_method (h : handlerFrames r m = some fs) :
    ∃ g, fs = [g] ∧ g.isMethod ∧ g.stage = some (r, .handler) ∧ g.refs = [r] := by
  unfold handlerFrames at h
  split at h <;> cases h <;> exact ⟨_, rfl, rfl, rfl, rfl⟩

theorem processServiceMessageFrames_calls (hg : g ∈ processServiceMessageFrames service r m) :
    g = .executeJsFunction r m.functionName m.content .handler := by
  unfold processServiceMessageFrames at hg
  split at hg
  · exact List.mem_singleton.mp hg
  · cases hg

theorem processSocketRwMessageFrames_calls (hg : g ∈ processSocketRwMessageFrames service m) :
    ∃ pc, g = .gateway pc := by
  unfold processSocketRwMessageFrames at hg
  split at hg
  · cases hg
  · exact socketRwFrames_gateway hg

/-- What a step of a frame outside the scheduler may do. -/
structure OtherStep (σ : Shared) (f : Frame) (op : Op) (fs : List Frame) : Prop where
  outside : op.isScheduling = false
  calls : ∀ g ∈ fs, g.isCall
  blank : ∀ service, op = .newService service →
    service.isInGlobalQueue = false ∧ service.messageQueue = []
  refs : ∀ r ∈ op.refs, r ∈ f.refs
  known : ∀ g ∈ fs, ∀ r ∈ g.refs, Known σ f op r
  stage : ∀ g ∈ fs, ∀ r phase, g.stage = some (r, phase) → f.stage = some (r, phase) ∨
    phase = .onExit ∨ (r = σ.allocated ∧ phase ≠ .handler ∧ ∃ service, op = .newService service)
  socket : f.isSocketWorker = false → ∀ g ∈ fs, g.isSocketWorker = false

section
attribute [local simp] Op.isScheduling Op.refs Frame.isCall Frame.refs Frame.stage
  Frame.isSocketWorker

theorem step_other (hf : f.isScheduling = false) (h : Frame.step σ f c = some (op, fs)) :
    OtherStep σ f op fs := by
  cases f with
  | worker | send => simp [Frame.isScheduling] at hf
  | caller =>
    simp only [Frame.step, callerStep] at h
    split at h <;> cases h <;> constructor <;>
      simp [newScriptServiceFrames, newServiceFrames, newScript, newGateway, Known]
  | network => cases networkStep_cases h <;> constructor <;> simp
  | socket pc =>
    cases SocketPc.step_cases h with
    | @event e c events hc =>
      refine ⟨rfl, fun g hg => ?_, by simp, by simp, fun g hg r hr => ?_,
          fun g hg r phase hst => ?_, fun hf => by cases hf⟩ <;>
        rcases eventFrames_cases hg with ⟨-, -, rfl⟩ | ⟨-, rfl⟩ | rfl
      · rfl
      · rfl
      · rfl
      · cases hr
      · cases hr
      · cases hr
      · cases hst
      · cases hst
      · cases hst
    | _ => constructor <;> simp
  | addService | onInitialization | onExit =>
    simp only [Frame.step, onInitializationFrames, onExitFrames] at h
    cases h
    try split
    all_goals constructor <;> simp [Known]
  | kill pc =>
    cases pc with
    | find id =>
      simp only [Frame.step, KillPc.step] at h
      split at h <;> cases h
      · constructor <;> simp
      · rename_i r hr
        constructor <;> simp [Known]
        exact .inr ⟨id, hr⟩
    | setExisting | erase => cases h; constructor <;> simp
  | handler r m =>
    simp only [Frame.step, Option.map_eq_some_iff] at h
    obtain ⟨fs', hfs, heq⟩ := h
    cases heq
    obtain ⟨g, rfl, hmethod, hstage, hrefs⟩ := handlerFrames_method hfs
    cases g <;> cases hmethod <;> cases hstage <;> constructor <;> simp [Known]
  | processServiceMessage r m =>
    cases h
    refine ⟨rfl, fun g hg => ?_, by simp, by simp, fun g hg r' hr' => ?_,
        fun g hg r' phase hst => ?_, fun _ g hg => ?_⟩ <;>
      obtain rfl := processServiceMessageFrames_calls hg
    · rfl
    · exact .inl hr'
    · exact .inl hst
    · rfl
  | processSocketAcceptMessage => cases h; constructor <;> simp [processSocketAcceptMessageFrames]
  | processSocketRwMessage =>
    cases h
    refine ⟨rfl, fun g hg => ?_, by simp, by simp, fun g hg r' hr' => ?_,
        fun g hg r' phase hst => ?_, fun _ g hg => ?_⟩ <;>
      obtain ⟨pc, rfl⟩ := processSocketRwMessageFrames_calls hg
    · rfl
    · cases hr'
    · cases hst
    · rfl
  | executeJsFunction =>
    simp only [Frame.step] at h
    cases h
    split <;> constructor <;> simp [Known]
  | script r phase =>
    simp only [Frame.step, scriptStep, scriptEnd] at h
    split at h <;> (try split at h) <;> (try split at h) <;> cases h <;> constructor <;>
      simp [newScriptServiceFrames, newScript, Known]
  | gateway => cases GatewayPc.step_cases h <;> constructor <;> simp
  | accept => cases AcceptPc.step_cases h <;> constructor <;> simp
  | listen => cases ListenPc.step_cases h <;> constructor <;> simp
  | close => cases ClosePc.step_cases (Option.some.inj h) <;> constructor <;> simp
  | modifyEvent => cases modifyEvent_cases h <;> constructor <;> simp

end

end XianNet
