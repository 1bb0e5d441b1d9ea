import XianNet.FailedAccept
import XianNet.Registration

/-!
# Where notifications go

`Listen` runs on a caller's thread, the entry of its socket is found later by
the event loop, and the entry of a client is made from that one, so the id
given to `Listen` travels from entry to entry (`RoutingOk`). The loop does one
thing after another on its own thread: what it still holds for a client is
what was reported and not yet pushed, in order (`Exec.outbox`).
-/

namespace XianNet

open Interleaving

variable {σ : Shared} {s s' : State} {tr tr' : List Label} {ids : List UInt32} {id id' : UInt32}

/-- The client that a message of the socket worker is about. -/
def BaseMessage.client (m : BaseMessage) : Option Int32 :=
  match m.body with
  | .socketAccept b => some b.clientFd
  | .socketRw b => some b.fd
  | .service _ => none

-- ---------------------------------------------------------------------------
-- The runs
-- ---------------------------------------------------------------------------

def Choice.listens : Choice → Option UInt32
  | .listen _ serviceId => some serviceId
  | _ => none

def Op.unregisters : Op → Option UInt32
  | .eraseService id => some id
  | _ => none

/-- Nothing is closed, no `accept` fails, callers send service messages, and
`Listen` is called for ids of the list only, whose services are registered
then and stay so. -/
structure Routed (ids : List UInt32) (s : State) (l : Label) : Prop where
  noClose : NoClose s l
  accepted : NoFailedAccept s l
  sent : ∀ m ∈ l.choice.sent, m.client = none
  listened : ∀ id ∈ l.choice.listens, id ∈ ids ∧ (s.shared.serviceMap.find id).isSome
  kept : ∀ id ∈ l.op.unregisters, id ∉ ids

-- `Option.all`: no search through the numbers
instance (s : State) (l : Label) : Decidable (Routed ids s l) :=
  decidable_of_iff (NoClose s l ∧ NoFailedAccept s l ∧ (∀ m ∈ l.choice.sent, m.client = none) ∧
      l.choice.listens.all (fun id => id ∈ ids ∧ (s.shared.serviceMap.find id).isSome) ∧
      l.op.unregisters.all (· ∉ ids)) (by
    constructor
    · rintro ⟨hclose, haccept, hsent, hlisten, hkept⟩
      exact ⟨hclose, haccept, hsent, by simpa [Option.all_eq_true] using hlisten,
        by simpa [Option.all_eq_true] using hkept⟩
    · rintro ⟨hclose, haccept, hsent, hlisten, hkept⟩
      exact ⟨hclose, haccept, hsent, by simpa [Option.all_eq_true] using hlisten,
        by simpa [Option.all_eq_true] using hkept⟩)

theorem Reach.noClose_of_routed (h : system.Reach (Routed ids) (initial n p k) s) :
    system.Reach NoClose (initial n p k) s := h.mono fun _ _ hc => hc.noClose

-- ---------------------------------------------------------------------------
-- Each number is opened once
-- ---------------------------------------------------------------------------

/-- Without `close`, a number stays with the file it was opened for. -/
theorem Exec.opened_stays (h : system.Exec NoClose (initial n p k) tr s) :
    ∀ l ∈ tr, ∀ fd t, l.op.opens = some (fd, t) → s.shared.OpenAs fd t := by
  refine h.invariant
    (I := fun tr σ _ => ∀ l ∈ tr, ∀ fd t, l.op.opens = some (fd, t) → σ.OpenAs fd t) (by simp) ?_
  intro tr s l fs R hr _ hF hm hi l' hl' fd t hop
  rcases List.mem_append.mp hl' with hl' | hl'
  · have hcl := Reach.frame_closing ⟨tr, hr⟩ hF
    exact openAs_step (Reach.kernelOk ⟨tr, hr⟩) hm hcl (hi l' hl' fd t hop)
  · rw [List.mem_singleton.mp hl'] at hop
    exact openAs_opened hop

theorem free_of_opens (h : Frame.step σ f c = some (op, fs)) (hop : op.opens = some (fd, t)) :
    σ.kernel.free fd := by
  cases step_number h with
  | opened hop' hfree =>
    rw [hop] at hop'
    cases hop'
    exact hfree
  | quiet hq => cases op <;> cases hop <;> cases hq
  | _ => cases hop

/-- A number is handed out once. -/
theorem Exec.opened_once (h : system.Exec NoClose (initial n p k) tr s) :
    tr.Pairwise fun l l' => ∀ fd t t', l.op.opens = some (fd, t) → l'.op.opens ≠ some (fd, t') := by
  induction h with
  | refl => exact .nil
  | @step tr s₁ l s₂ h _ hs ih =>
    refine List.pairwise_append.mpr ⟨ih, List.pairwise_singleton _ _, ?_⟩
    intro l₁ hl₁ l₂ hl₂ fd t t' hop hop'
    rw [List.mem_singleton.mp hl₂] at hop'
    obtain ⟨fs, R, hm, -, -, -⟩ := hs.frames
    exact (Exec.opened_stays h l₁ hl₁ fd t hop).ne (free_of_opens hm hop') rfl

theorem Exec.opener_unique (h : system.Exec NoClose (initial n p k) tr s) (hl : l ∈ tr)
    (hl' : l' ∈ tr) (hop : l.op.opens = some (fd, t)) (hop' : l'.op.opens = some (fd, t')) :
    l = l' := by
  by_contra hne
  have : Std.Symm fun l l' : Label =>
      ∀ fd t t', l.op.opens = some (fd, t) → l'.op.opens ≠ some (fd, t') :=
    ⟨fun l l' hll fd t t' hop' hop => hll fd t' t hop hop'⟩
  exact (Exec.opened_once h).forall hl hl' hne fd t t' hop hop'

-- ---------------------------------------------------------------------------
-- The owner of a client
-- ---------------------------------------------------------------------------

/-- A call of `Listen` with the id opened the number. -/
def ListensFor (tr : List Label) (fd : Int32) (id : UInt32) : Prop :=
  ∃ l ∈ tr, ∃ port, l.frame = .listen (.socket port id) ∧ l.op = .openSocket fd

/-- `OnAccept` got the number from `accept` on the connection's. -/
def AcceptedBy (tr : List Label) (fd : Int32) (conn : Connection) : Prop :=
  ∃ l ∈ tr, ∃ f received, l.frame = .accept (.accept conn) ∧ l.op = .accept f fd received

/-- The id was given to the `Listen` of the listener that accepted the client. -/
def Owner (tr : List Label) (fd : Int32) (id : UInt32) : Prop :=
  ∃ conn, AcceptedBy tr fd conn ∧ ListensFor tr conn.fd id

theorem ListensFor.append (h : ListensFor tr fd id) : ListensFor (tr ++ tr') fd id :=
  let ⟨l, hl, port, hf, hop⟩ := h
  ⟨l, List.mem_append_left _ hl, port, hf, hop⟩

theorem AcceptedBy.append (h : AcceptedBy tr fd conn) : AcceptedBy (tr ++ tr') fd conn :=
  let ⟨l, hl, f, received, hf, hop⟩ := h
  ⟨l, List.mem_append_left _ hl, f, received, hf, hop⟩

theorem Owner.append (h : Owner tr fd id) : Owner (tr ++ tr') fd id :=
  let ⟨conn, ha, hl⟩ := h
  ⟨conn, ha.append, hl.append⟩

theorem AcceptedBy.unique (h : system.Exec NoClose (initial n p k) tr s)
    (ha : AcceptedBy tr fd conn) (ha' : AcceptedBy tr fd conn') : conn = conn' := by
  obtain ⟨l, hl, f, received, hf, hop⟩ := ha
  obtain ⟨l', hl', f', received', hf', hop'⟩ := ha'
  obtain rfl := Exec.opener_unique h hl hl' (by rw [hop]; rfl) (by rw [hop']; rfl)
  rw [hf] at hf'
  exact AcceptPc.accept.inj (Frame.accept.inj hf')

theorem ListensFor.unique (h : system.Exec NoClose (initial n p k) tr s)
    (hf : ListensFor tr fd id) (hf' : ListensFor tr fd id') : id = id' := by
  obtain ⟨l, hl, port, hf, hop⟩ := hf
  obtain ⟨l', hl', port', hf', hop'⟩ := hf'
  obtain rfl := Exec.opener_unique h hl hl' (by rw [hop]; rfl) (by rw [hop']; rfl)
  rw [hf] at hf'
  exact (ListenPc.socket.inj (Frame.listen.inj hf')).2

theorem Owner.unique (h : system.Exec NoClose (initial n p k) tr s) (ho : Owner tr fd id)
    (ho' : Owner tr fd id') : id = id' := by
  obtain ⟨conn, ha, hl⟩ := ho
  obtain ⟨conn', ha', hl'⟩ := ho'
  obtain rfl := ha.unique h ha'
  exact hl.unique h hl'

-- ---------------------------------------------------------------------------
-- From entry to entry
-- ---------------------------------------------------------------------------

/-- The service of an id of the list is registered. -/
def Held (ids : List UInt32) (σ : Shared) (id : UInt32) : Prop :=
  id ∈ ids ∧ (σ.serviceMap.find id).isSome

/-- A message about a client goes to the service of the client's owner. -/
def Targets (tr : List Label) (σ : Shared) (r : ServiceRef) (m : BaseMessage) : Prop :=
  ∀ fd ∈ m.client, ∃ id, Owner tr fd id ∧ σ.serviceMap.find id = some r

/-- The id that a frame goes on with is the one given to `Listen`. -/
def Frame.aimed (ids : List UInt32) (tr : List Label) (σ : Shared) : Frame → Prop
  | .listen (.socket _ id) => Held ids σ id
  | .listen (.bind fd _ id) | .listen (.listen fd id) | .listen (.addConnection fd id) =>
    ListensFor tr fd id
  | .accept (.accept conn) => ListensFor tr conn.fd conn.serviceId
  | .accept (.addConnection fd conn) | .accept (.addEvent fd conn) => Owner tr fd conn.serviceId
  | .send (.find target m) => ∀ fd ∈ m.client, Owner tr fd target
  | .send (.pushMessage r m) => Targets tr σ r m
  | _ => True

structure RoutingOk (ids : List UInt32) (tr : List Label) (σ : Shared) (F : Multiset Frame) :
    Prop where
  held : ∀ fd id, ListensFor tr fd id → Held ids σ id
  frames : ∀ f ∈ F, f.aimed ids tr σ
  listeners : ∀ key c, σ.connectionMap.find key = some c → c.type = .listen →
    ListensFor tr c.fd c.serviceId
  clients : ∀ key c, σ.connectionMap.find key = some c → c.type = .client →
    Owner tr c.fd c.serviceId
  pushed : ∀ l ∈ tr, ∀ r m, l.op = .pushMessage r m → Targets tr σ r m

section
variable {l : Label} {f : Frame} {fs : List Frame} {R : Multiset Frame} {op : Op}

theorem find_kept (hkept : ∀ id ∈ op.unregisters, id ∉ ids) (hid : id ∈ ids)
    (hfind : σ.serviceMap.find id = some r) : (σ.apply op).serviceMap.find id = some r := by
  refine find_serviceMap_stays hfind ?_
  rintro rfl
  exact hkept id rfl hid

theorem Held.apply (h : Held ids σ id) (hkept : ∀ id ∈ op.unregisters, id ∉ ids) :
    Held ids (σ.apply op) id := by
  obtain ⟨hid, hsome⟩ := h
  obtain ⟨r, hr⟩ := Option.isSome_iff_exists.mp hsome
  exact ⟨hid, by rw [find_kept hkept hid hr, Option.isSome_some]⟩

theorem Targets.apply (h : Targets tr σ r m) (hkept : ∀ id ∈ op.unregisters, id ∉ ids)
    (hheld : ∀ fd id, ListensFor tr fd id → Held ids σ id) :
    Targets (tr ++ [l]) (σ.apply op) r m := by
  intro fd hfd
  obtain ⟨id, ho, hfind⟩ := h fd hfd
  obtain ⟨conn, ha, hl⟩ := ho
  exact ⟨id, ⟨conn, ha.append, hl.append⟩, find_kept hkept (hheld _ id hl).1 hfind⟩

theorem aimed_apply (h : f.aimed ids tr σ) (hkept : ∀ id ∈ op.unregisters, id ∉ ids)
    (hheld : ∀ fd id, ListensFor tr fd id → Held ids σ id) :
    f.aimed ids (tr ++ [l]) (σ.apply op) := by
  cases f with
  | listen pc =>
    cases pc with
    | socket => exact Held.apply h hkept
    | bind | listen | addConnection => exact ListensFor.append h
    | _ => trivial
  | accept pc =>
    cases pc with
    | accept => exact ListensFor.append h
    | addConnection | addEvent => exact Owner.append h
  | send pc =>
    cases pc with
    | find target m => exact fun fd hfd => (h fd hfd).append
    | pushMessage r m => exact Targets.apply h hkept hheld
    | _ => trivial
  | _ => trivial

/-- The functions that know no connection. -/
theorem aimed_of_routine (hf : f.routine ∉ [.listen, .accept, .send]) : f.aimed ids tr σ := by
  cases f with
  | listen | accept | send => simp [Frame.routine] at hf
  | _ => trivial

theorem aimed_new (hi : RoutingOk ids tr σ (l.frame ::ₘ R))
    (h : Frame.step σ l.frame l.choice = some (l.op, fs)) (hc : acceptFails l = false)
    (hsent : ∀ m ∈ l.choice.sent, m.client = none)
    (hlistened : ∀ id ∈ l.choice.listens, id ∈ ids ∧ (σ.serviceMap.find id).isSome) :
    ∀ g ∈ fs, g.aimed ids (tr ++ [l]) (σ.apply l.op) := by
  intro g hg
  have hf := hi.frames l.frame (Multiset.mem_cons_self _ R)
  obtain ⟨hcall, -⟩ := routine_step h g hg
  have hmem : l ∈ tr ++ [l] := by simp
  obtain ⟨thread, frame, choice, op⟩ := l
  cases frame with
  | caller =>
    cases callerStep_cases h with
    | sendMessage =>
      rcases List.mem_pair.mp hg with rfl | rfl
      · intro fd hfd
        rw [hsent _ rfl] at hfd
        cases hfd
      · trivial
    | listen =>
      rcases List.mem_pair.mp hg with rfl | rfl
      · exact hlistened _ rfl
      · trivial
    | newScriptService | newGatewayService =>
      simp only [newScriptServiceFrames, newServiceFrames, List.cons_append, List.nil_append,
        List.mem_cons, List.not_mem_nil, or_false] at hg
      rcases hg with rfl | rfl | rfl | rfl <;> trivial
    | closeConnection | modifyEvent => rcases List.mem_pair.mp hg with rfl | rfl <;> trivial
  | script =>
    cases scriptStep_cases h with
    | jsSend =>
      rcases List.mem_pair.mp hg with rfl | rfl
      · intro fd hfd; cases hfd
      · trivial
    | jsNewService =>
      simp only [newScriptServiceFrames, List.cons_append, List.nil_append, List.mem_cons,
        List.not_mem_nil, or_false] at hg
      rcases hg with rfl | rfl | rfl | rfl <;> trivial
    | jsKill => rcases List.mem_pair.mp hg with rfl | rfl <;> trivial
    | jsSetServiceId => rw [List.mem_singleton.mp hg]; trivial
    | jsExports | jsReturn => cases hg
  | socket pc =>
    cases SocketPc.step_cases h with
    | event hfind =>
      rcases eventFrames_cases hg with ⟨htype, -, rfl⟩ | ⟨htype, rfl⟩ | rfl
      · exact (hi.listeners _ _ hfind htype).append
      · intro fd hfd
        cases hfd
        exact (hi.clients _ _ hfind htype).append
      · trivial
    | _ => rw [List.mem_singleton.mp hg]; trivial
  | accept pc =>
    cases AcceptPc.step_cases h with
    | accepted =>
      rw [List.mem_singleton.mp hg]
      exact ⟨_, ⟨_, hmem, _, _, rfl, rfl⟩, ListensFor.append hf⟩
    | failed => cases hc
    | addConnection => rw [List.mem_singleton.mp hg]; exact Owner.append hf
    | added | notAdded =>
      rw [List.mem_singleton.mp hg]
      intro fd hfd
      cases hfd
      exact Owner.append hf
  | listen pc =>
    cases ListenPc.step_cases h with
    | opened => rw [List.mem_singleton.mp hg]; exact ⟨_, hmem, _, rfl, rfl⟩
    | bound | listening => rw [List.mem_singleton.mp hg]; exact ListensFor.append hf
    | ret => cases hg
    | _ => rw [List.mem_singleton.mp hg]; trivial
  | send pc =>
    cases SendPc.step_cases h with
    | found hfind =>
      rw [List.mem_singleton.mp hg]
      exact fun fd hfd => ⟨_, (hf fd hfd).append, hfind⟩
    | unknown | lost => cases hg
    | wakeUp =>
      obtain ⟨p', -, rfl⟩ := List.mem_map.mp hg
      trivial
    | _ => rw [List.mem_singleton.mp hg]; trivial
  | _ =>
    refine aimed_of_routine fun hroutine => ?_
    simp only [List.mem_cons, List.not_mem_nil, or_false] at hroutine
    rcases hroutine with heq | heq | heq <;> rw [heq] at hcall <;>
      simp [Frame.routine, Routine.calls] at hcall

theorem ListensFor.origin (h : ListensFor (tr ++ [l]) fd id) :
    ListensFor tr fd id ∨ ∃ port, l.frame = .listen (.socket port id) := by
  obtain ⟨l', hl', port, hf, hop⟩ := h
  rcases List.mem_append.mp hl' with hl' | hl'
  · exact .inl ⟨l', hl', port, hf, hop⟩
  · rw [List.mem_singleton.mp hl'] at hf
    exact .inr ⟨port, hf⟩

/-- An entry takes the id of the call that makes it. -/
theorem emplace_aimed (h : Frame.step σ f c = some (.emplaceConnection fd conn, fs))
    (hf : f.aimed ids tr σ) : (conn.type = .listen → ListensFor tr conn.fd conn.serviceId) ∧
      (conn.type = .client → Owner tr conn.fd conn.serviceId) := by
  cases Frame.step_cases h with
  | accept hs => cases hs; exact ⟨nofun, fun _ => hf⟩
  | listen hs => cases hs; exact ⟨fun _ => hf, nofun⟩
  | network hs | socket hs | close hs | gateway hs | modify hs => cases hs
  | offline ho => cases ho.outside

theorem RoutingOk.step (hi : RoutingOk ids tr σ (l.frame ::ₘ R))
    (h : Frame.step σ l.frame l.choice = some (l.op, fs)) (hc : acceptFails l = false)
    (hsent : ∀ m ∈ l.choice.sent, m.client = none)
    (hlistened : ∀ id ∈ l.choice.listens, id ∈ ids ∧ (σ.serviceMap.find id).isSome)
    (hkept : ∀ id ∈ l.op.unregisters, id ∉ ids) :
    RoutingOk ids (tr ++ [l]) (σ.apply l.op) ((fs : Multiset Frame) + R) := by
  have hf := hi.frames l.frame (Multiset.mem_cons_self _ R)
  refine ⟨?_, ?_, ?_, ?_, ?_⟩
  · intro fd id hl
    rcases hl.origin with hl | ⟨port, heq⟩
    · exact (hi.held fd id hl).apply hkept
    · rw [heq] at hf
      exact Held.apply hf hkept
  · intro g hg
    rcases Multiset.mem_add.mp hg with hg | hg
    · exact aimed_new hi h hc hsent hlistened g hg
    · exact aimed_apply (hi.frames g (Multiset.mem_cons_of_mem hg)) hkept hi.held
  · intro key c hfind htype
    rcases find_connection_apply hfind with hfind | ⟨fd, hop, -⟩
    · exact (hi.listeners key c hfind htype).append
    · rw [hop] at h
      exact ((emplace_aimed h hf).1 htype).append
  · intro key c hfind htype
    rcases find_connection_apply hfind with hfind | ⟨fd, hop, -⟩
    · exact (hi.clients key c hfind htype).append
    · rw [hop] at h
      exact ((emplace_aimed h hf).2 htype).append
  · intro l' hl' r m hop
    rcases List.mem_append.mp hl' with hl' | hl'
    · exact (hi.pushed l' hl' r m hop).apply hkept hi.held
    · rw [List.mem_singleton.mp hl'] at hop
      rw [hop] at h
      rw [(pushMessage_op h).1] at hf
      exact Targets.apply hf hkept hi.held

end

theorem Exec.routingOk (h : system.Exec (Routed ids) (initial n p k) tr s) :
    RoutingOk ids tr s.shared s.frames := by
  refine h.invariant (I := RoutingOk ids) ⟨?_, ?_, ?_, ?_, ?_⟩ ?_
  · rintro fd id ⟨l, hl, -⟩; cases hl
  · intro f hf
    rcases mem_initial_frames hf with ⟨i, -, rfl⟩ | rfl | rfl | rfl <;> trivial
  · intro key c hfind; cases hfind
  · intro key c hfind; cases hfind
  · intro l hl; cases hl
  · intro tr s l fs R _ hc _ hm hi
    exact hi.step hm hc.accepted hc.sent hc.listened hc.kept

-- ---------------------------------------------------------------------------
-- Other threads
-- ---------------------------------------------------------------------------

/-- The client that a `SendMessage` before its push is about. -/
def Frame.posts : Frame → Option Int32
  | .send (.find _ m) | .send (.pushMessage _ m) => m.client
  | _ => none

theorem posts_step (h : Frame.step σ f c = some (op, fs)) (hsent : ∀ m ∈ c.sent, m.client = none)
    (hf : f.isSocketWorker = false) (hp : f.posts = none) : ∀ g ∈ fs, g.posts = none := by
  intro g hg
  cases g with
  | send pc =>
    rcases send_origin h hg with ⟨pc', rfl⟩ | ⟨target, m, rfl, hmake⟩
    · cases SendPc.step_cases h with
      | found => cases List.mem_singleton.mp hg; exact hp
      | unknown | lost => cases hg
      | wakeUp =>
        obtain ⟨p', -, heq⟩ := List.mem_map.mp hg
        cases heq
        rfl
      | _ => cases List.mem_singleton.mp hg; rfl
    · cases hmake with
      | caller => exact hsent m rfl
      | send => rfl
      | onAccept | onRW => cases hf
  | _ => rfl

/-- Only the socket worker sends messages about clients. -/
theorem Exec.unposted (h : system.Exec (Routed ids) (initial n p k) tr s) :
    ∀ t stack, s.threads[t]? = some stack → t ≠ n → ∀ f ∈ stack, f.posts = none := by
  refine h.stacks (I := fun _ _ t stack => t ≠ n → ∀ f ∈ stack, f.posts = none) ?_ ?_ ?_
  · intro t stack ht _ f hf
    rcases mem_initial_frames (State.mem_frames.mpr ⟨t, stack, ht, hf⟩) with
      ⟨i, -, rfl⟩ | rfl | rfl | rfl <;> rfl
  · intro tr s l fs rest hr hc htop hm hi hne f hf
    have hold := hi hne
    rcases List.mem_append.mp hf with hf | hf
    · have hsock := (Reach.socketThread ⟨tr, hr⟩).others _ _ hne htop l.frame List.mem_cons_self
      exact posts_step hm hc.sent hsock (hold _ List.mem_cons_self) f hf
    · exact hold f (List.mem_cons_of_mem _ hf)
  · intro tr s l s' t stack _ _ _ _ _ hi
    exact hi

-- ---------------------------------------------------------------------------
-- The loop
-- ---------------------------------------------------------------------------

/-- The messages of `OnRW` for the events on the client that can be read or
written. -/
def rwOf (fd : Int32) (events : List EpollEvent) : List BaseMessage :=
  (events.filter fun e => e.fd = fd ∧ (e.epollIn || e.epollOut)).map fun e =>
    ⟨.socketRw, .socketRw ⟨e.fd, e.epollIn, e.epollOut, e.file⟩⟩

def Op.reported (fd : Int32) : Op → List BaseMessage
  | .epollWait events => rwOf fd events
  | _ => []

/-- One message for each report of the client, in the order of the reports. -/
def reported (fd : Int32) (tr : List Label) : List BaseMessage := tr.flatMap (·.op.reported fd)

/-- The message of `OnAccept`, where the step is the `accept` of the client. -/
def welcome (fd : Int32) (l : Label) : List BaseMessage :=
  match l.frame, l.op with
  | .accept (.accept conn), .accept _ fd' _ => if fd' = fd then [acceptMessage conn fd'] else []
  | _, _ => []

/-- What the services are to be told of the client. -/
def due (fd : Int32) (tr : List Label) : List BaseMessage :=
  tr.flatMap fun l => welcome fd l ++ l.op.reported fd

def Op.notices (fd : Int32) : Op → List BaseMessage
  | .pushMessage _ m => if m.client = some fd then [m] else []
  | _ => []

/-- The messages about the client that were pushed, to whichever service. -/
def notices (fd : Int32) (tr : List Label) : List BaseMessage := tr.flatMap (·.op.notices fd)

/-- The messages about the client that a frame is still to push. -/
def Frame.unsent (fd : Int32) : Frame → List BaseMessage
  | .accept (.addConnection fd' conn) | .accept (.addEvent fd' conn) =>
    if fd' = fd then [acceptMessage conn fd'] else []
  | .send (.find _ m) | .send (.pushMessage _ m) => if m.client = some fd then [m] else []
  | .socket (.dispatch events) => rwOf fd events
  | _ => []

/-- The messages about the client that thread `n` is still to push. -/
def unsent (n : Nat) (s : State) (fd : Int32) : List BaseMessage :=
  (s.threads[n]?.getD []).flatMap (Frame.unsent fd)

theorem rwOf_eq_nil (h : ∀ e ∈ events, e.fd ≠ fd) : rwOf fd events = [] := by
  rw [rwOf, List.filter_eq_nil_iff.mpr, List.map_nil]
  intro e he
  simp [h e he]

theorem opens_of_welcome (h : welcome fd l ≠ []) : l.op.opens = some (fd, .client) := by
  unfold welcome at h
  split at h
  · split at h
    · rename_i hop heq; rw [hop, heq]; rfl
    · exact absurd rfl h
  · exact absurd rfl h

theorem epollWait_op (h : Frame.step σ f c = some (.epollWait events, fs)) :
    f = .socket .epollWait ∧ fs = [.socket (.dispatch events)] ∧
      ∀ e ∈ events, σ.kernel.reports e := by
  cases Frame.step_cases h with
  | socket hs => cases hs with | wait _ hrep => exact ⟨rfl, rfl, hrep⟩
  | network hs | accept hs | listen hs | close hs | gateway hs | modify hs => cases hs
  | offline ho => cases ho.outside

/-- Only an open number is reported. -/
theorem open_of_reported (hk : KernelOk σ.kernel) (h : Frame.step σ f c = some (op, fs))
    (hne : op.reported fd ≠ []) : ∃ x, σ.kernel.descriptors fd = some x := by
  cases op with
  | epollWait events =>
    by_contra hnone
    refine hne (rwOf_eq_nil ?_)
    rintro e he rfl
    exact hnone ⟨_, (hk.of_reports ((epollWait_op h).2.2 e he)).1⟩
  | _ => exact absurd rfl hne

theorem due_append : due fd (tr ++ [l]) = due fd tr ++ (welcome fd l ++ l.op.reported fd) := by
  simp [due]

theorem reported_append : reported fd (tr ++ [l]) = reported fd tr ++ l.op.reported fd := by
  simp [reported]

/-- Nothing is due about a number that is not open yet. -/
theorem Exec.due_free (h : system.Exec NoClose (initial n p k) tr s) :
    ∀ fd, s.shared.kernel.descriptors fd = none → due fd tr = [] := by
  refine h.invariant (I := fun tr σ _ => ∀ fd, σ.kernel.descriptors fd = none → due fd tr = [])
    (fun _ _ => rfl) ?_
  intro tr s l fs R hr _ hF hm hi fd hnone
  have hg := grows_step hm (Reach.frame_closing ⟨tr, hr⟩ hF)
  have hold : s.shared.kernel.descriptors fd = none := by
    refine Option.eq_none_iff_forall_ne_some.mpr fun x hx => ?_
    have hx' : (s.shared.apply l.op).kernel.descriptors fd = some x := hg.descriptors fd x hx
    rw [show (s.shared.apply l.op).kernel.descriptors fd = none from hnone] at hx'
    cases hx'
  rw [due_append, hi fd hold, List.nil_append, List.append_eq_nil_iff]
  constructor
  · by_contra hne
    obtain ⟨x, hx, -⟩ : (s.shared.apply l.op).OpenAs fd .client :=
      openAs_opened (opens_of_welcome hne)
    rw [show (s.shared.apply l.op).kernel.descriptors fd = none from hnone] at hx
    cases hx
  · by_contra hne
    obtain ⟨x, hx⟩ := open_of_reported (Reach.kernelOk ⟨tr, hr⟩) hm hne
    rw [hold] at hx
    cases hx

/-- The accept notification of a client is due first, and once. -/
theorem Exec.due_accepted (h : system.Exec NoClose (initial n p k) tr s) :
    ∀ fd conn, AcceptedBy tr fd conn → due fd tr = acceptMessage conn fd :: reported fd tr := by
  refine h.invariant (I := fun tr _ _ => ∀ fd conn, AcceptedBy tr fd conn →
    due fd tr = acceptMessage conn fd :: reported fd tr) ?_ ?_
  · rintro fd conn ⟨l, hl, -⟩; cases hl
  · intro tr s l fs R hr _ hF hm hi fd conn ⟨l', hl', f, received, hf, hop⟩
    rw [due_append, reported_append]
    rcases List.mem_append.mp hl' with hl' | hl'
    · have hopened := Exec.opened_stays hr l' hl' fd .client (by rw [hop]; rfl)
      have hnone : welcome fd l = [] := by
        by_contra hne
        exact hopened.ne (free_of_opens hm (opens_of_welcome hne)) rfl
      rw [hi fd conn ⟨l', hl', f, received, hf, hop⟩, hnone, List.nil_append, List.cons_append]
    · rw [List.mem_singleton.mp hl'] at hf hop
      have hopens : l.op.opens = some (fd, .client) := by rw [hop]; rfl
      have hdue := Exec.due_free hr fd (Kernel.free_iff.mp (free_of_opens hm hopens)).2
      have hold : reported fd tr = [] := by
        simp only [due, List.flatMap_eq_nil_iff, List.append_eq_nil_iff] at hdue
        exact List.flatMap_eq_nil_iff.mpr fun l hl => (hdue l hl).2
      rw [hdue, hold, welcome, hf, hop]
      simp [Op.reported]

/-- An event that the loop holds has its entry. -/
theorem Reach.dispatched (h : system.Reach NoClose (initial n p k) s) :
    ∀ events, .socket (.dispatch events) ∈ s.frames → ∀ e ∈ events,
      ∃ c, s.shared.connectionMap.find e.fd.toUInt32 = some c ∧ c.fd = e.fd ∧
        s.shared.OpenAs e.fd c.type := by
  refine h.invariant (I := fun σ F => ∀ events, .socket (.dispatch events) ∈ F → ∀ e ∈ events,
    ∃ c, σ.connectionMap.find e.fd.toUInt32 = some c ∧ c.fd = e.fd ∧ σ.OpenAs e.fd c.type) ?_ ?_
  · intro events hf
    rcases mem_initial_frames hf with ⟨i, -, heq⟩ | heq | heq | heq <;> cases heq
  · intro s l fs R hr _ hF hm hi events hg e he
    have hm : Frame.step s.shared l.frame l.choice = some (l.op, fs) := hm
    have hcl := Reach.frame_closing hr hF
    have hk := Reach.kernelOk hr
    have hkept : ∀ events, .socket (.dispatch events) ∈ l.frame ::ₘ R → ∀ e ∈ events,
        ∃ c, (s.shared.apply l.op).connectionMap.find e.fd.toUInt32 = some c ∧ c.fd = e.fd ∧
          (s.shared.apply l.op).OpenAs e.fd c.type := by
      intro events hg e he
      obtain ⟨c, hfind, hfd, ho⟩ := hi events hg e he
      exact ⟨c, (grows_step hm hcl).find _ _ hfind, hfd, openAs_step hk hm hcl ho⟩
    rcases Multiset.mem_add.mp hg with hg | hg
    · have hsame := (routine_step hm _ hg).2.resolve_right nofun
      obtain ⟨thread, frame, choice, op⟩ := l
      cases frame with
      | socket pc =>
        cases SocketPc.step_cases hm with
        | wait _ hrep =>
          cases List.mem_singleton.mp hg
          obtain ⟨hd, hint, -⟩ := hk.of_reports (hrep e he)
          have hn := Reach.networkOk (Reach.careful hr)
          obtain ⟨c, hfind, hfd, -, hkind⟩ := hn.entry_of_registered (Reach.enteredOk hr) hint hd
          exact ⟨c, hfind, hfd, openAs_step hk hm hcl ⟨_, hd, hkind⟩⟩
        | done => cases List.mem_singleton.mp hg
        | unknown =>
          cases List.mem_singleton.mp hg
          exact hkept _ (Multiset.mem_cons_self _ R) e (List.mem_cons_of_mem _ he)
        | event =>
          rcases eventFrames_cases hg with ⟨-, -, heq⟩ | ⟨-, heq⟩ | heq <;> cases heq
          exact hkept _ (Multiset.mem_cons_self _ R) e (List.mem_cons_of_mem _ he)
      | _ => cases hsame
    · exact hkept events (Multiset.mem_cons_of_mem hg) e he

theorem rwOf_cons (fd : Int32) (e : EpollEvent) (events : List EpollEvent) :
    rwOf fd (e :: events) = rwOf fd [e] ++ rwOf fd events := by
  simp only [rwOf, ← List.map_append, ← List.filter_append, List.singleton_append]

/-- `OnEvent` goes on with the message of an event on a client. -/
theorem unsent_onEventFrames (hcfd : c.fd = e.fd) (ho : σ.OpenAs e.fd c.type)
    (hfd : ¬ σ.OpenAs fd .listen) :
    (onEventFrames c e).flatMap (Frame.unsent fd) = rwOf fd [e] := by
  unfold onEventFrames
  split
  · rename_i htype
    have hne : e.fd ≠ fd := by
      rintro rfl
      rw [htype] at ho
      exact hfd ho
    split <;> simp [Frame.unsent, rwOf, hne]
  · by_cases hflags : (e.epollIn || e.epollOut) = true
    · by_cases heq : e.fd = fd <;>
        simp [hflags, Frame.unsent, rwOf, rwMessage, BaseMessage.client, hcfd, heq]
    · simp [hflags, rwOf]

section
attribute [local simp] Op.notices Frame.unsent welcome Op.reported

/-- What the loop pushes and still holds after a step is what it held before
and what has become due. -/
theorem outbox_step {rest : List Frame} (hst : SocketStack (l.frame :: rest))
    (h : Frame.step σ l.frame l.choice = some (l.op, fs)) (hc : acceptFails l = false)
    (haimed : l.frame.aimed ids tr σ) (hheld : ∀ fd id, ListensFor tr fd id → Held ids σ id)
    (hevents : ∀ events, .socket (.dispatch events) ∈ l.frame :: rest → ∀ e ∈ events,
      ∃ c, σ.connectionMap.find e.fd.toUInt32 = some c ∧ c.fd = e.fd ∧ σ.OpenAs e.fd c.type)
    (hfd : ¬ σ.OpenAs fd .listen) :
    l.op.notices fd ++ (fs ++ rest).flatMap (Frame.unsent fd) =
      (l.frame :: rest).flatMap (Frame.unsent fd) ++ (welcome fd l ++ l.op.reported fd) := by
  obtain ⟨thread, frame, choice, op⟩ := l
  dsimp only at hst h haimed hevents ⊢
  cases hst with
  | loop =>
    cases SocketPc.step_cases h with
    | wait => simp
    | done => simp [rwOf]
    | unknown hnone =>
      obtain ⟨c, hfind, -⟩ := hevents _ List.mem_cons_self _ List.mem_cons_self
      rw [hnone] at hfind
      cases hfind
    | @event e c events hfind =>
      obtain ⟨c', hfind', hcfd, ho⟩ := hevents _ List.mem_cons_self _ List.mem_cons_self
      rw [hfind] at hfind'
      cases hfind'
      simp [unsent_onEventFrames hcfd ho hfd, ← rwOf_cons]
  | @accept pc events =>
    cases AcceptPc.step_cases h with
    | @accepted x fd' conn received _ _ hfree =>
      by_cases heq : fd' = fd
      · subst heq
        -- events were reported before the number was handed out
        have hnone : rwOf fd' events = [] := by
          refine rwOf_eq_nil fun e he => ?_
          obtain ⟨c, -, -, ho⟩ := hevents events (by simp) e he
          exact ho.ne hfree
        simp [hnone]
      · simp [heq]
    | failed => cases hc
    | addConnection => simp
    | added | notAdded => simp [BaseMessage.client, acceptMessage]
  | @send pc events =>
    cases SendPc.step_cases h with
    | @unknown target m hnone =>
      have hother : m.client ≠ some fd := by
        intro hclient
        obtain ⟨conn, -, hl⟩ := haimed fd hclient
        have hsome := (hheld _ _ hl).2
        rw [hnone] at hsome
        cases hsome
      simp [hother]
    | wakeUp hw => cases hw <;> simp
    | _ => simp

end

/-- The other threads push nothing about clients, and nothing becomes due. -/
theorem quiet_elsewhere (fd : Int32) (h : Frame.step σ l.frame l.choice = some (l.op, fs))
    (hsock : l.frame.isSocketWorker = false) (hposts : l.frame.posts = none) :
    l.op.notices fd = [] ∧ welcome fd l ++ l.op.reported fd = [] := by
  obtain ⟨thread, frame, choice, op⟩ := l
  dsimp only at h hsock hposts ⊢
  refine ⟨?_, List.append_eq_nil_iff.mpr ⟨?_, ?_⟩⟩
  · cases op with
    | pushMessage r m =>
      rw [(pushMessage_op h).1] at hposts
      have hclient : m.client = none := hposts
      simp [Op.notices, hclient]
    | _ => rfl
  · cases frame with
    | accept => cases hsock
    | _ => rfl
  · cases op with
    | epollWait events =>
      rw [(epollWait_op h).1] at hsock
      cases hsock
    | _ => rfl

theorem notices_append : notices fd (tr ++ [l]) = notices fd tr ++ l.op.notices fd := by
  simp [notices]

/-- What was pushed about a client and what the loop still holds is what is
due, in order. -/
theorem Exec.outbox (h : system.Exec (Routed ids) (initial n p k) tr s) :
    ∀ t stack, s.threads[t]? = some stack → t = n → ∀ fd, ¬ s.shared.OpenAs fd .listen →
      notices fd tr ++ stack.flatMap (Frame.unsent fd) = due fd tr := by
  refine h.stacks (I := fun tr σ t stack => t = n → ∀ fd, ¬ σ.OpenAs fd .listen →
    notices fd tr ++ stack.flatMap (Frame.unsent fd) = due fd tr) ?_ ?_ ?_
  · intro t stack ht _ fd _
    refine List.flatMap_eq_nil_iff.mpr fun f hf => ?_
    rcases mem_initial_frames (State.mem_frames.mpr ⟨t, stack, ht, hf⟩) with
      ⟨i, -, rfl⟩ | rfl | rfl | rfl <;> rfl
  · intro tr s l fs rest hr hc htop hm hi htn fd hfd
    have hreach : system.Reach NoClose (initial n p k) s := Reach.noClose_of_routed ⟨tr, hr⟩
    have hheld : ∀ f ∈ l.frame :: rest, f ∈ s.frames := fun f hf =>
      State.mem_frames.mpr ⟨_, _, htop, hf⟩
    have hcl := Reach.closing hreach l.frame (hheld _ List.mem_cons_self)
    have hold : ¬ s.shared.OpenAs fd .listen := fun ho =>
      hfd (openAs_step (Reach.kernelOk hreach) hm hcl ho)
    obtain ⟨⟨stack, hn, hst⟩, -⟩ := Reach.socketThread ⟨tr, hr⟩
    rw [← htn, htop] at hn
    cases hn
    have hrouting := Exec.routingOk hr
    have hstep := outbox_step hst hm hc.accepted (hrouting.frames _ (hheld _ List.mem_cons_self))
      hrouting.held (fun events hmem => Reach.dispatched hreach events (hheld _ hmem)) hold
    calc notices fd (tr ++ [l]) ++ (fs ++ rest).flatMap (Frame.unsent fd)
      _ = notices fd tr ++ (l.op.notices fd ++ (fs ++ rest).flatMap (Frame.unsent fd)) := by
        rw [notices_append, List.append_assoc]
      _ = notices fd tr ++ (l.frame :: rest).flatMap (Frame.unsent fd) ++
          (welcome fd l ++ l.op.reported fd) := by rw [hstep, List.append_assoc]
      _ = due fd (tr ++ [l]) := by rw [hi htn fd hold, due_append]
  · intro tr s l s' t stack hr hc hs hne ht hi htn fd hfd
    obtain ⟨rest, fs, htop, hm, -, hsh⟩ := hs.moves
    have hreach : system.Reach NoClose (initial n p k) s := Reach.noClose_of_routed ⟨tr, hr⟩
    have hl : l.thread ≠ n := fun heq => hne (htn.trans heq.symm)
    have hmem : l.frame ∈ s.frames := State.mem_frames.mpr ⟨_, _, htop, List.mem_cons_self⟩
    have hold : ¬ s.shared.OpenAs fd .listen := by
      intro ho
      refine hfd ?_
      rw [hsh]
      exact openAs_step (Reach.kernelOk hreach) hm (Reach.closing hreach l.frame hmem) ho
    obtain ⟨hpush, hdue⟩ := quiet_elsewhere fd hm
      ((Reach.socketThread ⟨tr, hr⟩).others _ _ hl htop l.frame List.mem_cons_self)
      (Exec.unposted hr _ _ htop hl l.frame List.mem_cons_self)
    rw [notices_append, due_append, hpush, hdue, List.append_nil, List.append_nil]
    exact hi htn fd hold

-- ---------------------------------------------------------------------------
-- Notifications
-- ---------------------------------------------------------------------------

/-- All that was pushed about a client went to one service. -/
theorem RoutingOk.pushedTo (hi : RoutingOk ids tr σ F)
    (hrun : system.Exec NoClose (initial n p k) tr s) (ho : Owner tr fd id)
    (hfind : σ.serviceMap.find id = some r) :
    (pushedTo r tr).filter (·.client = some fd) = notices fd tr := by
  rw [XianNet.pushedTo, List.filter_flatMap, notices]
  refine List.flatMap_congr fun l hl => ?_
  cases hop : l.op with
  | pushMessage r' m =>
    by_cases hclient : m.client = some fd
    · obtain ⟨id', ho', hfind'⟩ := hi.pushed l hl r' m hop fd hclient
      rw [ho'.unique hrun ho, hfind] at hfind'
      cases hfind'
      simp [Op.pushedTo, Op.notices, hclient]
    · by_cases hr : r' = r <;> simp [Op.pushedTo, Op.notices, hclient, hr]
  | _ => rfl

/-- Every message about a client goes to the service whose id was given to the
`Listen` of its listener. There the accept notification comes first and once,
then one message for each report, with its flags and in its order; what was
not pushed yet the loop still holds. -/
theorem notices_routed (h : system.Exec (Routed ids) (initial n p k) tr s) :
    (∀ l ∈ tr, ∀ r m fd, l.op = .pushMessage r m → m.client = some fd →
      (∃ id, Owner tr fd id) ∧ ∀ id, Owner tr fd id → s.shared.serviceMap.find id = some r) ∧
    ∀ fd id, Owner tr fd id → ∃ r conn, s.shared.serviceMap.find id = some r ∧
      (pushedTo r tr).filter (·.client = some fd) ++ unsent n s fd =
        acceptMessage conn fd :: reported fd tr := by
  have hi := Exec.routingOk h
  have hrun : system.Exec NoClose (initial n p k) tr s := h.mono fun _ _ hc => hc.noClose
  constructor
  · intro l hl r m fd hop hclient
    obtain ⟨id, ho, hfind⟩ := hi.pushed l hl r m hop fd hclient
    refine ⟨⟨id, ho⟩, fun id' ho' => ?_⟩
    rw [ho'.unique hrun ho, hfind]
  · intro fd id ho
    obtain ⟨conn, ha, hl⟩ := ho
    obtain ⟨r, hfind⟩ := Option.isSome_iff_exists.mp (hi.held conn.fd id hl).2
    refine ⟨r, conn, hfind, ?_⟩
    obtain ⟨⟨stack, hn, -⟩, -⟩ := Reach.socketThread ⟨tr, h⟩
    have hclient : ¬ s.shared.OpenAs fd .listen := by
      obtain ⟨l, hl, f, received, -, hop⟩ := ha
      intro hlisten
      cases (Exec.opened_stays hrun l hl fd .client (by rw [hop]; rfl)).type hlisten
    rw [hi.pushedTo hrun ⟨conn, ha, hl⟩ hfind, ← Exec.due_accepted hrun fd conn ha,
      ← Exec.outbox h n stack hn rfl fd hclient, unsent, hn]
    rfl

/-- A client that was accepted as 6 and sent a byte. -/
theorem notices_routed_client : ∃ tr s id conn,
    system.Exec (Routed [0]) (initial 1 (fun i => 1 <<< i) 1) tr s ∧ Owner tr 6 id ∧
      s.shared.serviceMap.find id = some 0 ∧ pushedTo 0 tr = acceptMessage conn 6 :: reported 6 tr ∧
      reported 6 tr = [⟨.socketRw, .socketRw ⟨6, true, false, 1⟩⟩] := by
  have h : ((system.record (Routed [0]) (initial 1 (fun i => 1 <<< i) 1)
      (creates 3 ++ listens 3 5 0 ++ [(2, .connect 0)] ++ polls 1 5 0 ++ accepts 1 6 [] ++
        steps 1 6 ++ [(2, .deliver 1 [104])] ++ polls 1 6 1 ++ steps 1 2)).any fun r =>
        pushedTo 0 r.1 = [⟨.socketAccept, .socketAccept ⟨5, 6⟩⟩,
          ⟨.socketRw, .socketRw ⟨6, true, false, 1⟩⟩] ∧
        reported 6 r.1 = [⟨.socketRw, .socketRw ⟨6, true, false, 1⟩⟩] ∧ unsent 1 r.2 6 = []) =
      true := by decide +kernel
  obtain ⟨tr, s, hs, hpush, hreported, hunsent⟩ := Machine.exists_of_record h
  obtain ⟨htargets, hnotices⟩ := notices_routed hs
  have hmem : ⟨.socketAccept, .socketAccept ⟨5, 6⟩⟩ ∈ pushedTo 0 tr := by
    rw [hpush]; exact List.mem_cons_self
  obtain ⟨l, hl, hop⟩ := List.mem_flatMap.mp hmem
  obtain ⟨⟨id, ho⟩, hid⟩ := htargets l hl 0 _ 6 (mem_pushedTo.mp hop) rfl
  obtain ⟨r, conn, hfind, hall⟩ := hnotices 6 id ho
  rw [hid id ho] at hfind
  cases hfind
  refine ⟨tr, s, id, conn, hs, ho, hid id ho, ?_, hreported⟩
  rw [← hall, hunsent, List.append_nil, hpush]
  rfl

end XianNet
