import XianNet.Frame

/-!
# Sockets

`SocketWorker`, and the connection functions of `XianNet`.
-/

namespace XianNet

/-- `EVENT_SIZE` -/
def eventSize : Nat := 64

/-- What `OnAccept` pushes. -/
def acceptMessage (c : Connection) (clientFd : Int32) : BaseMessage :=
  ⟨.socketAccept, .socketAccept ⟨c.fd, clientFd⟩⟩

/-- What `OnRW` pushes. -/
def rwMessage (c : Connection) (e : EpollEvent) : BaseMessage :=
  ⟨.socketRw, .socketRw ⟨c.fd, e.epollIn, e.epollOut, e.file⟩⟩

/-- `OnEvent`, after the lookup found `c`. -/
def onEventFrames (c : Connection) (e : EpollEvent) : List Frame :=
  match c.type with
  | .listen => if e.epollIn then [.accept (.accept c)] else []
  | .client =>
    if e.epollIn || e.epollOut then [.send (.find c.serviceId (rwMessage c e))] else []

def SocketPc.step (σ : Shared) (pc : SocketPc) (c : Choice) : Option (Op × List Frame) :=
  match pc, c with
  | .epollWait, .events events =>
    if events.length ≤ eventSize ∧ (events.map (·.file)).Nodup ∧ events.all σ.kernel.reports then
      some (.epollWait events, [.socket (.dispatch events)])
    else none
  | .dispatch [], _ => some (.silent, [.socket .epollWait])
  | .dispatch (e :: events), _ =>
    match σ.connectionMap.find e.fd.toUInt32 with
    | none => some (.silent, [.socket (.dispatch events)])
    | some c => some (.silent, onEventFrames c e ++ [.socket (.dispatch events)])
  | _, _ => none

/-- `epoll_ctl` adds an open file that is not registered yet, or fails. The
result only decides a log line. -/
def epollAddStep (σ : Shared) (fd : Int32) (c : Choice) : Option Op :=
  match c with
  | .ok =>
    match σ.kernel.descriptors fd with
    | some f => if (σ.kernel.files f).interest = none then some (.epollAdd f) else none
    | none => none
  | .failed => some .silent
  | _ => none

/-- `accept` takes a waiting client under a free number, or fails. `OnAccept`
goes on with the `-1` of a failed call. -/
def AcceptPc.step (σ : Shared) (pc : AcceptPc) (c : Choice) : Option (Op × List Frame) :=
  match pc, c with
  | .accept conn, .accepted fd received =>
    match σ.kernel.descriptors conn.fd with
    | some l =>
      if (σ.kernel.files l).listening ∧ 0 < (σ.kernel.files l).backlog ∧ σ.kernel.free fd then
        some (.accept l fd received, [.accept (.addConnection fd conn)])
      else none
    | none => none
  | .accept conn, .failed => some (.silent, [.accept (.addConnection (-1) conn)])
  | .addConnection fd conn, _ =>
    some (.emplaceConnection fd ⟨.client, fd, conn.serviceId, σ.kernel.descriptors fd⟩,
      [.accept (.addEvent fd conn)])
  | .addEvent fd conn, c =>
    (epollAddStep σ fd c).map fun op =>
      (op, [.send (.find conn.serviceId (acceptMessage conn fd))])
  | _, _ => none

/-- `socket`, `bind` and `listen` may each fail. `htons` keeps the low 16 bits
of the port, and the kernel chooses one where they are 0. -/
def ListenPc.step (σ : Shared) (pc : ListenPc) (c : Choice) : Option (Op × List Frame) :=
  match pc, c with
  | .socket port serviceId, .opened fd =>
    if σ.kernel.free fd then
      some (.openSocket fd,
        [.listen (if fd ≤ 0 then .ret (-1) else .bind fd port serviceId)])
    else none
  | .socket _ _, .failed => some (.silent, [.listen (.ret (-1))])
  | .bind fd port serviceId, .bound p =>
    if (port.toUInt16 = 0 ∨ p = port.toUInt16) ∧ p ≠ 0 then
      (σ.kernel.descriptors fd).map fun f => (.bind f p, [.listen (.listen fd serviceId)])
    else none
  | .bind _ _ _, .failed => some (.silent, [.listen (.ret (-1))])
  | .listen fd serviceId, .ok =>
    (σ.kernel.descriptors fd).map fun f => (.listen f, [.listen (.addConnection fd serviceId)])
  | .listen _ _, .failed => some (.silent, [.listen (.ret (-1))])
  | .addConnection fd serviceId, _ =>
    some (.emplaceConnection fd ⟨.listen, fd, serviceId, σ.kernel.descriptors fd⟩,
      [.listen (.addEvent fd)])
  | .addEvent fd, c => (epollAddStep σ fd c).map fun op => (op, [.listen (.ret fd)])
  | .ret r, _ => some (.listenReturn r, [])
  | _, _ => none

/-- The descriptor is closed whether or not the map had the entry. -/
def ClosePc.step (σ : Shared) : ClosePc → Op × List Frame
  | .erase fd =>
    (.eraseConnection fd, [.close (.close fd (σ.connectionMap.find fd).isSome)])
  | .close fd succ => (.close fd.toInt32, if succ then [.close (.removeEvent fd)] else [])
  | .removeEvent fd =>
    match σ.kernel.descriptors fd.toInt32 with
    | none => (.silent, [])
    | some f => (.epollDel f, [])

/-- `SocketWorker::ModifyEvent` -/
def modifyEventOp (σ : Shared) (fd : Int32) (canWrite : Bool) : Op :=
  match σ.kernel.descriptors fd with
  | none => .silent
  | some f => if (σ.kernel.files f).interest = none then .silent else .epollMod f canWrite

/-- Clients connect to a listening socket. On an open connection they send bytes,
until they end their stream, and take what was sent to them. -/
def networkStep (σ : Shared) (c : Choice) : Option (Op × List Frame) :=
  match c with
  | .connect f =>
    let file := σ.kernel.files f
    if file.listening ∧ σ.kernel.descriptors file.fd = some f then some (.connect f, [.network])
    else none
  | .deliver f bytes =>
    let file := σ.kernel.files f
    if file.isClient ∧ σ.kernel.descriptors file.fd = some f ∧ bytes ≠ [] ∧ file.ended = false then
      some (.deliver f bytes, [.network])
    else none
  | .finish f =>
    let file := σ.kernel.files f
    if file.isClient ∧ σ.kernel.descriptors file.fd = some f then some (.finish f, [.network])
    else none
  | .drain f =>
    let file := σ.kernel.files f
    if file.isClient ∧ σ.kernel.descriptors file.fd = some f then some (.drain f, [.network])
    else none
  | _ => none

end XianNet
