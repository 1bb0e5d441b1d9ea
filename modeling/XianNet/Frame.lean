import XianNet.Shared

/-!
# Frames

A thread is a stack of frames, one for each function it is in, each at the
point of its next atomic step. A function that calls another leaves its own
frame below. The four thread functions at the bottom of a stack never return:
`worker` is `ServiceWorker::operator()`, `socket` is
`SocketWorker::operator()`, `caller` is any other thread that uses the public
interface, the main thread included, and `network` is the clients.
-/

namespace XianNet

structure ServiceWorker where
  id : Nat
  processingNum : Int
  deriving DecidableEq, Repr

/-- `XianNet::CheckAndPushGlobalServiceQueue` -/
inductive PushPc
  | swap (s : ServiceRef)
  | push (s : ServiceRef)
  deriving DecidableEq, Repr

/-- `XianNet::CheckAndWeakUpWorker`: the early return, the two reads of the
comparison from left to right, the signal. -/
inductive WakePc
  | testSleeping
  | readSleepCount
  | compareSize (awake : Int)
  | signal
  deriving DecidableEq, Repr

/-- `XianNet::SendMessage` -/
inductive SendPc
  | find (target : UInt32) (m : BaseMessage)
  | pushMessage (s : ServiceRef) (m : BaseMessage)
  | checkAndPush (pc : PushPc)
  | wakeUp (pc : WakePc)
  deriving DecidableEq, Repr

/-- `XianNet::BlockWorker` -/
inductive BlockPc
  | lock
  | increment
  | wait
  | waiting
  | decrement
  | unlock
  deriving DecidableEq, Repr

/-- `ServiceWorker::operator()`, with `PopGlobalServiceQueue`, `ProcessMessages`
at loop index `i`, `CheckAndPutGlobal` and `BlockWorker`. -/
inductive WorkerPc
  | popFront
  | clearFlag (s : ServiceRef)
  | processMessages (s : ServiceRef) (i : Nat)
  | checkExisting (s : ServiceRef)
  | checkEmpty (s : ServiceRef)
  | checkAndPush (pc : PushPc)
  | block (pc : BlockPc)
  deriving DecidableEq, Repr

/-- Why the engine runs a service's script. -/
inductive Phase
  | construct
  | onInit
  | handler
  | onExit
  deriving DecidableEq, Repr

/-- `XianNet::KillService` -/
inductive KillPc
  | find (id : UInt32)
  | setExisting (s : ServiceRef)
  | erase (id : UInt32)
  deriving DecidableEq, Repr

/-- `GatewayService::Read` and `GatewayService::Write` -/
inductive GatewayPc
  | read (fd : Int32) (result : List UInt8)
  | write (fd : Int32) (content : String)
  deriving DecidableEq, Repr

/-- `SocketWorker::operator()` -/
inductive SocketPc
  | epollWait
  | dispatch (events : List EpollEvent)
  deriving DecidableEq, Repr

/-- `SocketWorker::OnAccept`, up to its `SendMessage` -/
inductive AcceptPc
  | accept (c : Connection)
  | addConnection (clientFd : Int32) (c : Connection)
  | addEvent (clientFd : Int32) (c : Connection)
  deriving DecidableEq, Repr

/-- `XianNet::Listen` -/
inductive ListenPc
  | socket (port serviceId : UInt32)
  | bind (fd : Int32) (port serviceId : UInt32)
  | listen (fd : Int32) (serviceId : UInt32)
  | addConnection (fd : Int32) (serviceId : UInt32)
  | addEvent (fd : Int32)
  | ret (r : Int32)
  deriving DecidableEq, Repr

/-- `XianNet::CloseConnection` -/
inductive ClosePc
  | erase (fd : UInt32)
  | close (fd : UInt32) (succ : Bool)
  | removeEvent (fd : UInt32)
  deriving DecidableEq, Repr

inductive Frame
  | caller
  | network
  | worker (w : ServiceWorker) (pc : WorkerPc)
  | socket (pc : SocketPc)
  | send (pc : SendPc)
  | addService (s : ServiceRef)
  | onInitialization (s : ServiceRef)
  | onExit (s : ServiceRef)
  | kill (pc : KillPc)
  /-- `ProcessMessages` calls the handler the tag of `m` selects. -/
  | handler (s : ServiceRef) (m : BaseMessage)
  | processServiceMessage (s : ServiceRef) (m : ServiceMessage)
  | processSocketAcceptMessage (s : ServiceRef) (m : SocketAcceptMessage)
  | processSocketRwMessage (s : ServiceRef) (m : SocketRWMessage)
  | executeJsFunction (s : ServiceRef) (functionName content : String) (phase : Phase)
  /-- Script code of `s` runs. -/
  | script (s : ServiceRef) (phase : Phase)
  | gateway (pc : GatewayPc)
  | accept (pc : AcceptPc)
  | listen (pc : ListenPc)
  | close (pc : ClosePc)
  | modifyEvent (fd : Int32) (canWrite : Bool)
  deriving DecidableEq, Repr

/-- What the code does not decide: the scripts, the callers, the clients, the
scheduler of the condition variable, and the results of system calls. -/
inductive Choice
  | go
  | waiter (k : Nat)
  | jsSend (target : UInt32) (functionName content : String)
  | jsNewService (name : String) (uninitialized : UInt32)
  | jsKill
  /-- `service_id` is a plain global of the script. -/
  | jsSetServiceId (id : UInt32)
  | jsReturn
  | jsExports (names : List String)
  | sendMessage (target : UInt32) (m : BaseMessage)
  | newScriptService (name : String) (uninitialized : UInt32)
  | newGatewayService (name : String) (uninitialized : UInt32)
  | listen (port serviceId : UInt32)
  | closeConnection (fd : UInt32)
  | modifyEvent (fd : Int32) (canWrite : Bool)
  | ok
  | failed
  | opened (fd : Int32)
  | bound (port : UInt16)
  | accepted (fd : Int32) (received : List UInt8)
  | result (n : Int)
  | events (events : List EpollEvent)
  | connect (f : FileRef)
  | deliver (f : FileRef) (bytes : List UInt8)
  | finish (f : FileRef)
  | drain (f : FileRef)
  deriving DecidableEq, Repr

end XianNet
