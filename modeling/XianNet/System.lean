import XianNet.Interleaving.Machine
import XianNet.Scheduling
import XianNet.Service
import XianNet.Socket

/-!
# The system

All threads of a running server over the shared state: `threadSize` workers,
the socket worker, the clients, and any number of other threads that use the
public interface.
-/

namespace XianNet

open Interleaving (Machine Any)

abbrev State := Interleaving.State Shared Frame
abbrev Label := Interleaving.Label Frame Choice Op

/-- A thread outside the loops calls a public function. -/
def callerStep (σ : Shared) (c : Choice) : Option (Op × List Frame) :=
  match c with
  | .sendMessage target m => some (.silent, [.send (.find target m), .caller])
  | .newScriptService name uninitialized =>
    some (.newService (newScript name uninitialized),
      newScriptServiceFrames σ.allocated ++ [.caller])
  | .newGatewayService name uninitialized =>
    some (.newService (newGateway name uninitialized), newServiceFrames σ.allocated ++ [.caller])
  | .listen port serviceId => some (.silent, [.listen (.socket port serviceId), .caller])
  | .closeConnection fd =>
    some (.callClose fd (σ.connectionMap.find fd), [.close (.erase fd), .caller])
  | .modifyEvent fd canWrite => some (.silent, [.modifyEvent fd canWrite, .caller])
  | _ => none

def Frame.step (σ : Shared) (f : Frame) (c : Choice) : Option (Op × List Frame) :=
  match f with
  | .caller => callerStep σ c
  | .network => networkStep σ c
  | .worker w pc => pc.step σ w
  | .socket pc => pc.step σ c
  | .send pc => pc.step σ c
  | .addService s => some (.addService s, [])
  | .onInitialization s => some (.silent, onInitializationFrames (σ.services s) s)
  | .onExit s => some (.silent, onExitFrames (σ.services s) s)
  | .kill pc => some (pc.step σ)
  | .handler s m => (handlerFrames s m).map fun fs => (.silent, fs)
  | .processServiceMessage s m => some (.silent, processServiceMessageFrames (σ.services s) s m)
  | .processSocketAcceptMessage _ _ => some (.silent, processSocketAcceptMessageFrames)
  | .processSocketRwMessage s m => some (.silent, processSocketRwMessageFrames (σ.services s) m)
  | .executeJsFunction s functionName _ phase =>
    some (.silent,
      if functionName ∈ (σ.services s).jsFunctionMap then [.script s phase] else [])
  | .script s phase => scriptStep σ s phase c
  | .gateway pc => pc.step σ c
  | .accept pc => pc.step σ c
  | .listen pc => pc.step σ c
  | .close pc => some (pc.step σ)
  | .modifyEvent fd canWrite => some (modifyEventOp σ fd canWrite, [])

def system : Machine Shared Frame Choice Op := ⟨Frame.step, Shared.apply⟩

def Shared.initial (threadSize : Nat) : Shared where
  services := fun _ => {}
  allocated := 0
  serviceMap := ⟨.empty, 0⟩
  globalServiceQueue := []
  threadSize := threadSize
  mutexLocked := false
  waitSet := []
  sleepCount := 0
  connectionMap := .empty
  kernel := .empty

/-- The threads `StartServiceWorker` creates. -/
def startServiceWorker (threadSize : Nat) (processingNum : Nat → Int) : List (List Frame) :=
  (List.range threadSize).map fun i => [.worker ⟨i, processingNum i⟩ .popFront]

def initial (threadSize : Nat) (processingNum : Nat → Int) (callers : Nat) : State where
  shared := Shared.initial threadSize
  threads := startServiceWorker threadSize processingNum ++
    [.socket .epollWait] :: [.network] :: List.replicate callers [.caller]

-- ---------------------------------------------------------------------------
-- Scripted runs
-- ---------------------------------------------------------------------------

/-- Thread `t` takes `n` steps that need no choice. -/
def steps (t n : Nat) : List (Nat × Choice) := List.replicate n (t, .go)

def creates (t : Nat) : List (Nat × Choice) := (t, .newGatewayService "gateway" 0) :: steps t 2

/-- Thread `t` calls `SendMessage` and takes its first `n` steps. -/
def sends (t : Nat) (target : UInt32) (n : Nat) : List (Nat × Choice) :=
  (t, .sendMessage target (scriptMessage {} "")) :: steps t n

/-- Thread `t` opens, registers and returns from `Listen` the socket `fd`. -/
def listens (t : Nat) (fd : Int32) (serviceId : UInt32) : List (Nat × Choice) :=
  [(t, .listen 8000 serviceId), (t, .opened fd), (t, .bound 8000), (t, .ok), (t, .go), (t, .ok),
    (t, .go)]

/-- The socket worker `t` gets one readable event and starts on it. -/
def polls (t : Nat) (fd : Int32) (file : FileRef) : List (Nat × Choice) :=
  [(t, .events [{ fd, epollIn := true, file }]), (t, .go)]

/-- `OnAccept` up to its `SendMessage`. -/
def accepts (t : Nat) (fd : Int32) (received : List UInt8) : List (Nat × Choice) :=
  [(t, .accepted fd received), (t, .go), (t, .ok)]

end XianNet
