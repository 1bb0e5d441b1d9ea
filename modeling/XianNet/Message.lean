/-!
# Messages

A message is the `type_` tag of `BaseMessage` and the object of one concrete
class. They are separate: nothing but the code that creates a message makes
the tag name the class.
-/

namespace XianNet

/-- A `BaseService*`: the index of a service object in the order of creation. -/
abbrev ServiceRef := Nat

/-- An open file of the kernel, in the order of opening. A descriptor number is
reused, a `FileRef` is not. -/
abbrev FileRef := Nat

/-- `BaseMessage::TYPE` -/
inductive MessageType
  | service
  | socketAccept
  | socketRw
  deriving DecidableEq, Repr

structure ServiceMessage where
  source : UInt32
  functionName : String
  content : String
  deriving DecidableEq, Repr

structure SocketAcceptMessage where
  listenFd : Int32
  clientFd : Int32
  deriving DecidableEq, Repr

/-- `cause` is the socket whose epoll event made the message; no code reads it. -/
structure SocketRWMessage where
  fd : Int32
  canRead : Bool := false
  canWrite : Bool := false
  cause : FileRef
  deriving DecidableEq, Repr

inductive MessageBody
  | service (m : ServiceMessage)
  | socketAccept (m : SocketAcceptMessage)
  | socketRw (m : SocketRWMessage)
  deriving DecidableEq, Repr

structure BaseMessage where
  type : MessageType
  body : MessageBody
  deriving DecidableEq, Repr

end XianNet
