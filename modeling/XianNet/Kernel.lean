import Mathlib.Logic.Function.Basic
import XianNet.Message

/-!
# The kernel's side of the sockets

What the program relies on from Linux: descriptor numbers, a listening
socket's accept backlog, the bytes of a connection, and one edge-triggered
epoll instance. A registered file has one ready mark. An arrival sets it, as do
`EPOLL_CTL_ADD` and `EPOLL_CTL_MOD` of a file that is ready for what they ask;
`epoll_wait` reports the file and clears it.
-/

namespace XianNet

/-- The mask of a registration. `EPOLLIN | EPOLLET` is in every one. -/
structure Interest where
  epollOut : Bool
  deriving DecidableEq, Repr

/-- An open socket: `isClient` when `accept` made it, else by `socket`. -/
structure File where
  fd : Int32
  isClient : Bool
  port : Option UInt16 := none
  listening : Bool := false
  backlog : Nat := 0
  received : List UInt8 := []
  /-- The client sends no more: `read` comes to the end of the stream. -/
  ended : Bool := false
  sent : List UInt8 := []
  interest : Option Interest := none
  ready : Bool := false
  deriving DecidableEq, Repr

def File.readable (file : File) : Bool :=
  0 < file.backlog || !file.received.isEmpty || file.ended

/-- `epoll_event`: `data.fd` and the three flags the program tests. `file` is
the socket reported on; no code reads it. -/
structure EpollEvent where
  fd : Int32
  epollIn : Bool
  epollOut : Bool := false
  epollErr : Bool := false
  file : FileRef
  deriving DecidableEq, Repr

structure Kernel where
  files : FileRef → File
  allocated : Nat
  descriptors : Int32 → Option FileRef

namespace Kernel

def empty : Kernel := ⟨fun _ => { fd := -1, isClient := false }, 0, fun _ => none⟩

def updateFile (k : Kernel) (f : FileRef) (g : File → File) : Kernel :=
  { k with files := Function.update k.files f (g (k.files f)) }

/-- A number `socket` or `accept` may return. -/
def free (k : Kernel) (fd : Int32) : Bool := 0 ≤ fd && (k.descriptors fd).isNone

/-- A new open file under its descriptor. -/
def openFile (k : Kernel) (file : File) : Kernel :=
  ⟨Function.update k.files k.allocated file, k.allocated + 1,
    Function.update k.descriptors file.fd (some k.allocated)⟩

/-- `close`: the number is free again, and the last reference to the file goes
and its epoll registration with it. A number that is not open is left alone. -/
def close (k : Kernel) (fd : Int32) : Kernel :=
  match k.descriptors fd with
  | none => k
  | some f =>
    { k.updateFile f fun file => { file with interest := none, ready := false } with
      descriptors := Function.update k.descriptors fd none }

/-- An arrival on a registered file sets the ready mark. -/
def notify (file : File) : File := { file with ready := file.ready || file.interest.isSome }

def connect (k : Kernel) (f : FileRef) : Kernel :=
  k.updateFile f fun file => notify { file with backlog := file.backlog + 1 }

def deliver (k : Kernel) (f : FileRef) (bytes : List UInt8) : Kernel :=
  k.updateFile f fun file => notify { file with received := file.received ++ bytes }

/-- The end of a client's stream is an arrival too. -/
def finish (k : Kernel) (f : FileRef) : Kernel :=
  k.updateFile f fun file => notify { file with ended := true }

/-- A client took bytes that waited in the send buffer. Who asked for `EPOLLOUT`
is told that there is room again. -/
def drain (k : Kernel) (f : FileRef) : Kernel :=
  k.updateFile f fun file => { file with ready := file.ready || file.interest == some ⟨true⟩ }

/-- `accept` takes one client; `received` is what it already sent. -/
def accept (k : Kernel) (listener : FileRef) (fd : Int32) (received : List UInt8) : Kernel :=
  (k.updateFile listener fun file => { file with backlog := file.backlog - 1 }).openFile
    { fd, isClient := true, received }

def epollAdd (k : Kernel) (f : FileRef) : Kernel :=
  k.updateFile f fun file => { file with interest := some ⟨false⟩, ready := file.readable }

/-- A socket that is asked for `EPOLLOUT` can be written to, as a rule, and is
marked at once. -/
def epollMod (k : Kernel) (f : FileRef) (epollOut : Bool) : Kernel :=
  k.updateFile f fun file =>
    { file with interest := some ⟨epollOut⟩, ready := file.ready || file.readable || epollOut }

def epollDel (k : Kernel) (f : FileRef) : Kernel :=
  k.updateFile f fun file => { file with interest := none, ready := false }

/-- An event `epoll_wait` may return: of a marked file, with `EPOLLIN` when
there is something to read and `EPOLLOUT` only when asked for. An event with
no flag stands for a mark the kernel drops without a report. -/
def reports (k : Kernel) (e : EpollEvent) : Bool :=
  let file := k.files e.file
  file.ready && e.fd == file.fd && (!file.readable || e.epollIn) &&
    (!e.epollOut || file.interest == some ⟨true⟩)

/-- The marks of the reported files are gone. -/
def epollWait (k : Kernel) (events : List EpollEvent) : Kernel :=
  { k with files := fun f =>
      if events.any (·.file == f) then { k.files f with ready := false } else k.files f }

end Kernel

end XianNet
