import XianNet.Container
import XianNet.Kernel

/-!
# The state the threads share

The singleton `XianNet`, the service objects it points to, and the kernel.
`Op` is every way a thread acts on it in one atomic step: a container method
under its lock, an access to a plain field, or a system call. `Shared.apply`
is the effect; what a thread does next is in the frames.
-/

namespace XianNet

/-- The concrete class of a service, which decides its virtual methods. -/
inductive ServiceClass
  | script
  | gateway
  deriving DecidableEq, Repr

/-- `BaseService`, with what `ScriptService` adds: the names in
`js_function_map_` and the script global `service_id`. -/
structure BaseService where
  id : UInt32 := 0
  name : String := ""
  cls : ServiceClass := .gateway
  isExisting : Bool := false
  isInGlobalQueue : Bool := false
  messageQueue : SpinlockQueue BaseMessage := []
  jsFunctionMap : List String := []
  serviceIdGlobal : UInt32 := 0

structure ServiceMap extends RwlockUnorderedMap UInt32 ServiceRef where
  autoIncrementId : UInt32

/-- `Connection::TYPE` -/
inductive ConnectionType
  | listen
  | client
  deriving DecidableEq, Repr

/-- `file` is what the descriptor named when the object was made; no code
reads it. -/
structure Connection where
  type : ConnectionType
  fd : Int32
  serviceId : UInt32
  file : Option FileRef
  deriving DecidableEq, Repr

structure Shared where
  services : ServiceRef → BaseService
  /-- Service objects created so far. -/
  allocated : Nat
  serviceMap : ServiceMap
  globalServiceQueue : SpinlockQueue ServiceRef
  threadSize : Int
  mutexLocked : Bool
  /-- The workers that wait on `thread_sleep_condition_` and got no wake-up. -/
  waitSet : List Nat
  sleepCount : Int
  connectionMap : RwlockUnorderedMap UInt32 Connection
  kernel : Kernel

inductive Op
  /-- A test or a computation that changes nothing. -/
  | silent
  | pushMessage (s : ServiceRef) (m : BaseMessage)
  | popMessage (s : ServiceRef) (m : BaseMessage)
  /-- `is_in_global_queue_.SetCurrentAndGetPrevious(true)` -/
  | raiseFlag (s : ServiceRef)
  /-- `is_in_global_queue_.SetValue(false)` -/
  | clearFlag (s : ServiceRef)
  | pushGlobal (s : ServiceRef)
  | popGlobal (s : ServiceRef)
  | lockMutex
  | unlockMutex
  | incrementSleep
  | decrementSleep
  /-- `pthread_cond_wait` releases the mutex and joins the wait set. -/
  | joinWaitSet (w : Nat)
  /-- `pthread_cond_signal` wakes one waiter if there is one. -/
  | signal (woken : Option Nat)
  | newService (service : BaseService)
  | setFunctions (s : ServiceRef) (names : List String)
  | setServiceId (s : ServiceRef) (id : UInt32)
  | addService (s : ServiceRef)
  | setExisting (s : ServiceRef)
  | eraseService (id : UInt32)
  | emplaceConnection (fd : Int32) (c : Connection)
  | eraseConnection (fd : UInt32)
  | openSocket (fd : Int32)
  | bind (f : FileRef) (port : UInt16)
  | listen (f : FileRef)
  | accept (listener : FileRef) (fd : Int32) (received : List UInt8)
  | close (fd : Int32)
  | epollAdd (f : FileRef)
  | epollMod (f : FileRef) (epollOut : Bool)
  | epollDel (f : FileRef)
  | epollWait (events : List EpollEvent)
  | read (f : FileRef) (n : Nat)
  | write (f : FileRef) (bytes : List UInt8)
  /-- A client joins the accept backlog. -/
  | connect (f : FileRef)
  /-- Bytes of a client arrive. -/
  | deliver (f : FileRef) (bytes : List UInt8)
  /-- A client sends no more. -/
  | finish (f : FileRef)
  /-- A client takes what was sent to it. -/
  | drain (f : FileRef)
  /-- A call of `CloseConnection`, with the entry `connection_map_` holds then. -/
  | callClose (fd : UInt32) (c : Option Connection)
  /-- `Listen` returns. -/
  | listenReturn (r : Int32)

namespace Shared

def updateService (σ : Shared) (s : ServiceRef) (g : BaseService → BaseService) : Shared :=
  { σ with services := Function.update σ.services s (g (σ.services s)) }

def updateFile (σ : Shared) (f : FileRef) (g : File → File) : Shared :=
  { σ with kernel := σ.kernel.updateFile f g }

/-- `ServiceMap::AddService`, under the write lock. -/
def addService (σ : Shared) (s : ServiceRef) : Shared :=
  let id := σ.serviceMap.autoIncrementId
  { σ.updateService s fun service => { service with id } with
    serviceMap := ⟨σ.serviceMap.emplace id s, id + 1⟩ }

def apply (σ : Shared) : Op → Shared
  | .silent => σ
  | .pushMessage s m => σ.updateService s fun service =>
      { service with messageQueue := service.messageQueue.push m }
  | .popMessage s _ => σ.updateService s fun service =>
      { service with messageQueue := service.messageQueue.popFront.2 }
  | .raiseFlag s => σ.updateService s fun service => { service with isInGlobalQueue := true }
  | .clearFlag s => σ.updateService s fun service => { service with isInGlobalQueue := false }
  | .pushGlobal s => { σ with globalServiceQueue := σ.globalServiceQueue.push s }
  | .popGlobal _ => { σ with globalServiceQueue := σ.globalServiceQueue.popFront.2 }
  | .lockMutex => { σ with mutexLocked := true }
  | .unlockMutex => { σ with mutexLocked := false }
  | .incrementSleep => { σ with sleepCount := σ.sleepCount + 1 }
  | .decrementSleep => { σ with sleepCount := σ.sleepCount - 1 }
  | .joinWaitSet w => { σ with mutexLocked := false, waitSet := w :: σ.waitSet }
  | .signal woken => { σ with waitSet := woken.elim σ.waitSet σ.waitSet.erase }
  | .newService service =>
      { σ with services := Function.update σ.services σ.allocated service,
               allocated := σ.allocated + 1 }
  | .setFunctions s names => σ.updateService s fun service => { service with jsFunctionMap := names }
  | .setServiceId s id => σ.updateService s fun service => { service with serviceIdGlobal := id }
  | .addService s => σ.addService s
  | .setExisting s => σ.updateService s fun service => { service with isExisting := true }
  | .eraseService id =>
      { σ with serviceMap := { σ.serviceMap with
          toRwlockUnorderedMap := σ.serviceMap.erase id } }
  | .emplaceConnection fd c => { σ with connectionMap := σ.connectionMap.emplace fd.toUInt32 c }
  | .eraseConnection fd => { σ with connectionMap := σ.connectionMap.erase fd }
  | .openSocket fd => { σ with kernel := σ.kernel.openFile { fd, isClient := false } }
  | .bind f port => σ.updateFile f fun file => { file with port := some port }
  | .listen f => σ.updateFile f fun file => { file with listening := true }
  | .accept l fd received => { σ with kernel := σ.kernel.accept l fd received }
  | .close fd => { σ with kernel := σ.kernel.close fd }
  | .epollAdd f => { σ with kernel := σ.kernel.epollAdd f }
  | .epollMod f epollOut => { σ with kernel := σ.kernel.epollMod f epollOut }
  | .epollDel f => { σ with kernel := σ.kernel.epollDel f }
  | .epollWait events => { σ with kernel := σ.kernel.epollWait events }
  | .read f n => σ.updateFile f fun file => { file with received := file.received.drop n }
  | .write f bytes => σ.updateFile f fun file => { file with sent := file.sent ++ bytes }
  | .connect f => { σ with kernel := σ.kernel.connect f }
  | .deliver f bytes => { σ with kernel := σ.kernel.deliver f bytes }
  | .finish f => { σ with kernel := σ.kernel.finish f }
  | .drain f => { σ with kernel := σ.kernel.drain f }
  | .callClose _ _ => σ
  | .listenReturn _ => σ

end Shared

end XianNet
