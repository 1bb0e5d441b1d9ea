import XianNet.Descriptors

/-!
# The steps of the services

Everything one step of a caller, of the life cycle of a service, of a handler
or of a script can do. With the cases for sending, working and the sockets,
`Frame.step_inv` is the whole step relation read off at once.
-/

namespace XianNet

variable {σ : Shared}

inductive ServiceStep (σ : Shared) : Frame → Choice → Op → List Frame → Prop
  | sendMessage : ServiceStep σ .caller (.sendMessage target m) .silent
      [.send (.find target m), .caller]
  | newScriptService : ServiceStep σ .caller (.newScriptService name uninitialized)
      (.newService (newScript name uninitialized)) (newScriptServiceFrames σ.allocated ++ [.caller])
  | newGatewayService : ServiceStep σ .caller (.newGatewayService name uninitialized)
      (.newService (newGateway name uninitialized)) (newServiceFrames σ.allocated ++ [.caller])
  | listen : ServiceStep σ .caller (.listen port serviceId) .silent
      [.listen (.socket port serviceId), .caller]
  | closeConnection : ServiceStep σ .caller (.closeConnection fd)
      (.callClose fd (σ.connectionMap.find fd)) [.close (.erase fd), .caller]
  | modifyEvent : ServiceStep σ .caller (.modifyEvent conn canWrite) .silent
      [.modifyEvent conn canWrite, .caller]
  | addService : ServiceStep σ (.addService r) c (.addService r) []
  | onInitialization : ServiceStep σ (.onInitialization r) c .silent
      (onInitializationFrames (σ.services r) r)
  | onExit : ServiceStep σ (.onExit r) c .silent (onExitFrames (σ.services r) r)
  | killUnknown : σ.serviceMap.find target = none → ServiceStep σ (.kill (.find target)) c .silent []
  | killFound : σ.serviceMap.find target = some r → ServiceStep σ (.kill (.find target)) c .silent
      [.onExit r, .kill (.setExisting r), .kill (.erase target)]
  | setExisting : ServiceStep σ (.kill (.setExisting r)) c (.setExisting r) []
  | erase : ServiceStep σ (.kill (.erase target)) c (.eraseService target) []
  | handler : handlerFrames r m = some fs → ServiceStep σ (.handler r m) c .silent fs
  | processServiceMessage : ServiceStep σ (.processServiceMessage r m) c .silent
      (processServiceMessageFrames (σ.services r) r m)
  | processSocketAcceptMessage : ServiceStep σ (.processSocketAcceptMessage r m) c .silent
      processSocketAcceptMessageFrames
  | processSocketRwMessage : ServiceStep σ (.processSocketRwMessage r m) c .silent
      (processSocketRwMessageFrames (σ.services r) m)
  | execute : name ∈ (σ.services r).jsFunctionMap →
      ServiceStep σ (.executeJsFunction r name content phase) c .silent [.script r phase]
  | notExported : name ∉ (σ.services r).jsFunctionMap →
      ServiceStep σ (.executeJsFunction r name content phase) c .silent []
  | jsSend : ServiceStep σ (.script r phase) (.jsSend target functionName content) .silent
      [.send (.find target (scriptMessage (σ.services r) (ScriptService.toString functionName))),
        .script r phase]
  | jsNewService : ServiceStep σ (.script r phase) (.jsNewService name uninitialized)
      (.newService (newScript (ScriptService.toString name) uninitialized))
      (newScriptServiceFrames σ.allocated ++ [.script r phase])
  | jsKill : ServiceStep σ (.script r .handler) .jsKill .silent
      [.kill (.find (σ.services r).id), .script r .handler]
  | jsSetServiceId : ServiceStep σ (.script r phase) (.jsSetServiceId value) (.setServiceId r value)
      [.script r phase]
  | jsExports : ServiceStep σ (.script r .construct) (.jsExports names)
      (.setFunctions r (names.map ScriptService.toString)) []
  | jsReturn : phase ≠ .construct → ServiceStep σ (.script r phase) .jsReturn .silent []

theorem callerStep_cases (h : callerStep σ c = some (op, fs)) : ServiceStep σ .caller c op fs := by
  unfold callerStep at h
  split at h <;> cases h <;> constructor

theorem scriptEnd_cases (h : scriptEnd r phase c = some (op, fs)) :
    ServiceStep σ (.script r phase) c op fs := by
  unfold scriptEnd at h
  split at h
  · split at h
    · rename_i hphase; cases h; subst hphase; exact .jsExports
    · cases h
  · split at h
    · cases h
    · rename_i hphase; cases h; exact .jsReturn hphase
  · cases h

theorem scriptStep_cases (h : scriptStep σ r phase c = some (op, fs)) :
    ServiceStep σ (.script r phase) c op fs := by
  unfold scriptStep at h
  split at h
  · cases h; exact .jsSend
  · cases h; exact .jsNewService
  · split at h
    · rename_i hphase; cases h; subst hphase; exact .jsKill
    · cases h
  · cases h; exact .jsSetServiceId
  · exact scriptEnd_cases h

theorem KillPc.step_cases {pc : KillPc} (h : pc.step σ = (op, fs)) :
    ServiceStep σ (.kill pc) c op fs := by
  cases pc with
  | find id =>
    simp only [KillPc.step] at h
    split at h <;> cases h
    · rename_i hr; exact .killUnknown hr
    · rename_i r hr; exact .killFound hr
  | setExisting => cases h; exact .setExisting
  | erase => cases h; exact .erase

/-- A step of any frame. -/
inductive SystemStep (σ : Shared) : Frame → Choice → Op → List Frame → Prop
  | worker : WorkerStep σ w pc op fs → SystemStep σ (.worker w pc) c op fs
  | send : SendStep σ pc op fs → SystemStep σ (.send pc) c op fs
  | service : ServiceStep σ f c op fs → SystemStep σ f c op fs
  | network : NetworkStep σ op fs → SystemStep σ .network c op fs
  | socket : SocketStep σ pc op fs → SystemStep σ (.socket pc) c op fs
  | accept : AcceptStep σ pc c op fs → SystemStep σ (.accept pc) c op fs
  | listen : ListenStep σ pc c op fs → SystemStep σ (.listen pc) c op fs
  | close : CloseStep σ pc op fs → SystemStep σ (.close pc) c op fs
  | gateway : GatewayStep σ pc c op fs → SystemStep σ (.gateway pc) c op fs
  | modify : ModifyStep σ fd canWrite op fs → SystemStep σ (.modifyEvent fd canWrite) c op fs

theorem Frame.step_inv (h : Frame.step σ f c = some (op, fs)) : SystemStep σ f c op fs := by
  cases f with
  | caller => exact .service (callerStep_cases h)
  | network => exact .network (networkStep_cases h)
  | worker => exact .worker (WorkerPc.step_cases h)
  | socket => exact .socket (SocketPc.step_cases h)
  | send => exact .send (SendPc.step_cases h)
  | addService => cases h; exact .service .addService
  | onInitialization => cases h; exact .service .onInitialization
  | onExit => cases h; exact .service .onExit
  | kill => exact .service (KillPc.step_cases (Option.some.inj h))
  | handler r m =>
    obtain ⟨fs', hfs, heq⟩ := Option.map_eq_some_iff.mp h
    cases heq
    exact .service (.handler hfs)
  | processServiceMessage => cases h; exact .service .processServiceMessage
  | processSocketAcceptMessage => cases h; exact .service .processSocketAcceptMessage
  | processSocketRwMessage => cases h; exact .service .processSocketRwMessage
  | executeJsFunction r name content phase =>
    simp only [Frame.step] at h
    cases h
    split
    · rename_i hm; exact .service (.execute hm)
    · rename_i hm; exact .service (.notExported hm)
  | script => exact .service (scriptStep_cases h)
  | gateway => exact .gateway (GatewayPc.step_cases h)
  | accept => exact .accept (AcceptPc.step_cases h)
  | listen => exact .listen (ListenPc.step_cases h)
  | close => exact .close (ClosePc.step_cases (Option.some.inj h))
  | modifyEvent => exact .modify (modifyEvent_cases h)

-- ---------------------------------------------------------------------------
-- Who calls whom
-- ---------------------------------------------------------------------------

/-- The function a frame is in. -/
inductive Routine
  | caller
  | network
  | worker
  | socket
  | send
  | addService
  | onInitialization
  | onExit
  | kill
  | handler
  | processServiceMessage
  | processSocketAcceptMessage
  | processSocketRwMessage
  | executeJsFunction
  | script
  | gateway
  | accept
  | listen
  | close
  | modifyEvent
  deriving DecidableEq

def Frame.routine : Frame → Routine
  | .caller => .caller
  | .network => .network
  | .worker .. => .worker
  | .socket _ => .socket
  | .send _ => .send
  | .addService _ => .addService
  | .onInitialization _ => .onInitialization
  | .onExit _ => .onExit
  | .kill _ => .kill
  | .handler .. => .handler
  | .processServiceMessage .. => .processServiceMessage
  | .processSocketAcceptMessage .. => .processSocketAcceptMessage
  | .processSocketRwMessage .. => .processSocketRwMessage
  | .executeJsFunction .. => .executeJsFunction
  | .script .. => .script
  | .gateway _ => .gateway
  | .accept _ => .accept
  | .listen _ => .listen
  | .close _ => .close
  | .modifyEvent .. => .modifyEvent

/-- The functions that one goes on in: the call graph, with itself where it has
more than one step. -/
def Routine.calls : Routine → List Routine
  | .caller =>
    [.caller, .send, .script, .addService, .onInitialization, .listen, .close, .modifyEvent]
  | .network => [.network]
  | .worker => [.worker, .handler]
  | .socket => [.socket, .accept, .send]
  | .send => [.send]
  | .addService => []
  | .onInitialization | .onExit => [.executeJsFunction]
  | .kill => [.kill, .onExit]
  | .handler => [.processServiceMessage, .processSocketAcceptMessage, .processSocketRwMessage]
  | .processServiceMessage => [.executeJsFunction]
  | .processSocketAcceptMessage => []
  | .processSocketRwMessage => [.gateway]
  | .executeJsFunction => [.script]
  | .script => [.script, .send, .addService, .onInitialization, .kill]
  | .gateway => [.gateway]
  | .accept => [.accept, .send]
  | .listen => [.listen]
  | .close => [.close]
  | .modifyEvent => []

/-- The point at which a function starts. -/
def Frame.isEntry : Frame → Bool
  | .send (.find ..) | .kill (.find _) | .accept (.accept _) | .listen (.socket ..)
  | .close (.erase _) => true
  | .worker .. | .socket _ | .send _ | .kill _ | .accept _ | .listen _ | .close _ => false
  | _ => true

section
attribute [local simp] Frame.routine Routine.calls Frame.isEntry

/-- A frame's step goes on in its own function, or calls one. -/
theorem routine_step (h : Frame.step σ f c = some (op, fs)) :
    ∀ g ∈ fs, g.routine ∈ f.routine.calls ∧ (g.routine = f.routine ∨ g.isEntry) := by
  cases Frame.step_inv h with
  | service hs =>
    cases hs with
    | handler hfs =>
      obtain ⟨g, rfl, hmethod, -⟩ := handlerFrames_method hfs
      cases g <;> cases hmethod <;> simp
    | processServiceMessage =>
      intro g hg
      obtain rfl := processServiceMessageFrames_calls hg
      simp
    | processSocketAcceptMessage => exact nofun
    | processSocketRwMessage =>
      intro g hg
      obtain ⟨pc, rfl⟩ := processSocketRwMessageFrames_calls hg
      simp
    | onInitialization => simp only [onInitializationFrames]; split <;> simp
    | onExit => simp only [onExitFrames]; split <;> simp
    | _ => simp [newScriptServiceFrames, newServiceFrames]
  | socket hs =>
    cases hs with
    | event =>
      intro g hg
      rcases eventFrames_cases hg with ⟨-, -, rfl⟩ | ⟨-, rfl⟩ | rfl <;> simp
    | _ => simp
  | worker hs | send hs | network hs | accept hs | listen hs | close hs | gateway hs | modify hs =>
    cases hs <;> simp

end

/-- A service object is new, and its creator goes on with it. -/
theorem newService_op (h : Frame.step σ f c = some (.newService service, fs)) :
    (∃ name uninitialized, service = newScript name uninitialized ∧
      fs = newScriptServiceFrames σ.allocated ++ [f]) ∨
    ∃ name uninitialized, service = newGateway name uninitialized ∧
      fs = newServiceFrames σ.allocated ++ [f] := by
  cases Frame.step_inv h with
  | service hs =>
    cases hs with
    | newScriptService | jsNewService => exact .inl ⟨_, _, rfl, rfl⟩
    | newGatewayService => exact .inr ⟨_, _, rfl, rfl⟩
  | worker hs =>
    cases hs with
    | block hb => cases hb
  | send hs =>
    cases hs with
    | wakeUp hw => cases hw
  | network hs | socket hs | accept hs | listen hs | close hs | gateway hs | modify hs => cases hs

/-- The scheduler does not see the steps of anybody else. -/
theorem sameScheduling_step (h : Frame.step σ f c = some (op, fs)) (hr : RefsOk σ F)
    (hop : op.isScheduling = false) : SameScheduling σ (σ.apply op) := by
  refine sameScheduling_apply hop (hr.fresh _ (Nat.le_refl _)) ?_
  rintro service rfl
  rcases newService_op h with ⟨name, uninitialized, rfl, -⟩ | ⟨name, uninitialized, rfl, -⟩ <;>
    exact ⟨rfl, rfl⟩

end XianNet
