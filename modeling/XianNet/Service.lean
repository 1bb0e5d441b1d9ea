import XianNet.Frame

/-!
# Services

Creating and killing a service, and what its handlers do. A script is
arbitrary code that may call `XianNet.send` and `XianNet.newService` any number
of times. No caller of `KillService` is in the code; its comment allows a
service to kill itself from a message handler, so a handler may.
-/

namespace XianNet

/-- `ScriptService::ToString`: a `std::string` made from a `char*` ends at the
first zero byte, and no character but U+0000 has one. -/
def ScriptService.toString (value : String) : String :=
  String.ofList (value.toList.takeWhile (·.toNat ≠ 0))

/-- The message of the `send` callback: `new ServiceMessage()` zeroes `type_`,
and `content_` is never assigned. -/
def scriptMessage (sender : BaseService) (functionName : String) : BaseMessage :=
  ⟨.service, .service ⟨sender.serviceIdGlobal, functionName, ""⟩⟩

/-- `new ScriptService`: the constructor copies `id_`, which nothing has
assigned yet, into the script global. -/
def newScript (name : String) (uninitialized : UInt32) : BaseService :=
  { id := uninitialized, name, cls := .script, serviceIdGlobal := uninitialized }

/-- `NewScriptService`: construct, then `NewService`. -/
def newScriptServiceFrames (s : ServiceRef) : List Frame :=
  [.script s .construct, .addService s, .onInitialization s]

def newGateway (name : String) (uninitialized : UInt32) : BaseService :=
  { id := uninitialized, name }

def newServiceFrames (s : ServiceRef) : List Frame := [.addService s, .onInitialization s]

def onInitializationFrames (service : BaseService) (s : ServiceRef) : List Frame :=
  match service.cls with
  | .script => [.executeJsFunction s "OnInit" "" .onInit]
  | .gateway => []

def onExitFrames (service : BaseService) (s : ServiceRef) : List Frame :=
  match service.cls with
  | .script => [.executeJsFunction s "OnExit" "" .onExit]
  | .gateway => []

/-- `GatewayService::ProcessSocketRwMessage` -/
def socketRwFrames (m : SocketRWMessage) : List Frame :=
  (if m.canRead then [.gateway (.read m.fd []), .gateway (.write m.fd "hello world")] else []) ++
    (if m.canWrite then [.gateway (.write m.fd "hello world")] else [])

/-- The dispatch of `ProcessMessages`: the tag selects the cast and the virtual
method. A cast to another class than the object's has no meaning. -/
def handlerFrames (s : ServiceRef) (m : BaseMessage) : Option (List Frame) :=
  match m.type, m.body with
  | .service, .service b => some [.processServiceMessage s b]
  | .socketAccept, .socketAccept b => some [.processSocketAcceptMessage s b]
  | .socketRw, .socketRw b => some [.processSocketRwMessage s b]
  | _, _ => none

def processServiceMessageFrames (service : BaseService) (s : ServiceRef) (m : ServiceMessage) :
    List Frame :=
  match service.cls with
  | .script => [.executeJsFunction s m.functionName m.content .handler]
  | .gateway => []

/-- The gateway logs the message, a script service does nothing. -/
def processSocketAcceptMessageFrames : List Frame := []

def processSocketRwMessageFrames (service : BaseService) (m : SocketRWMessage) : List Frame :=
  match service.cls with
  | .script => []
  | .gateway => socketRwFrames m

def KillPc.step (σ : Shared) : KillPc → Op × List Frame
  | .find id =>
    match σ.serviceMap.find id with
    | none => (.silent, [])
    | some s => (.silent, [.onExit s, .kill (.setExisting s), .kill (.erase id)])
  | .setExisting s => (.setExisting s, [])
  | .erase id => (.eraseService id, [])

/-- The script code of `s` ends; the constructor then reads its exports. -/
def scriptEnd (s : ServiceRef) (phase : Phase) (c : Choice) : Option (Op × List Frame) :=
  match c with
  | .jsExports names =>
    if phase = .construct then some (.setFunctions s (names.map ScriptService.toString), [])
    else none
  | .jsReturn => if phase = .construct then none else some (.silent, [])
  | _ => none

/-- One step of the script code of `s`. -/
def scriptStep (σ : Shared) (s : ServiceRef) (phase : Phase) (c : Choice) :
    Option (Op × List Frame) :=
  match c with
  | .jsSend target functionName _ =>
    some (.silent,
      [.send (.find target (scriptMessage (σ.services s) (ScriptService.toString functionName))),
        .script s phase])
  | .jsNewService name uninitialized =>
    some (.newService (newScript (ScriptService.toString name) uninitialized),
      newScriptServiceFrames σ.allocated ++ [.script s phase])
  | .jsKill =>
    if phase = .handler then
      some (.silent, [.kill (.find (σ.services s).id), .script s phase])
    else none
  | .jsSetServiceId id => some (.setServiceId s id, [.script s phase])
  | c => scriptEnd s phase c

/-- `Read` stops at the first `read` that returns no bytes. -/
def GatewayPc.step (σ : Shared) (pc : GatewayPc) (c : Choice) : Option (Op × List Frame) :=
  match pc, c with
  | .read fd result, .result n =>
    match σ.kernel.descriptors fd with
    | none => some (.silent, [])
    | some f =>
      let received := (σ.kernel.files f).received
      if n ≤ 0 then some (.silent, [])
      else if n ≤ 64 ∧ n ≤ received.length then
        some (.read f n.toNat, [.gateway (.read fd (result ++ received.take n.toNat))])
      else none
  | .write fd content, .result n =>
    match σ.kernel.descriptors fd with
    | none => some (.silent, [])
    | some f =>
      let bytes := content.toUTF8.toList
      if n < 0 then some (.silent, [])
      else if n ≤ bytes.length then some (.write f (bytes.take n.toNat), [])
      else none
  | _, _ => none

end XianNet
