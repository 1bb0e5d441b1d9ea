import XianNet.Interleaving.History
import XianNet.ServiceLaws

/-!
# Mailboxes

What was pushed to a service, in the order of its lock, is what workers
dequeued and what still waits, and every dequeued message goes to one handler.
The dispatch casts a message by its tag, and the tag names the class because
each of the three places that make a message says so.
-/

namespace XianNet

open Interleaving

variable {σ : Shared} {C : State → Label → Prop} {s : State} {tr : List Label}

-- ---------------------------------------------------------------------------
-- First in, first out
-- ---------------------------------------------------------------------------

def Op.pushedTo (r : ServiceRef) : Op → List BaseMessage
  | .pushMessage r' m => if r' = r then [m] else []
  | _ => []

def Op.poppedFrom (r : ServiceRef) : Op → List BaseMessage
  | .popMessage r' m => if r' = r then [m] else []
  | _ => []

theorem mem_pushedTo {op : Op} : m ∈ op.pushedTo r ↔ op = .pushMessage r m := by
  cases op with
  | pushMessage r' m' =>
    by_cases hr : r' = r
    · subst hr; simp [Op.pushedTo, eq_comm]
    · simp [Op.pushedTo, hr]
  | _ => simp [Op.pushedTo]

/-- The messages pushed to `r`, in the order of its lock. -/
def pushedTo (r : ServiceRef) (tr : List Label) : List BaseMessage :=
  tr.flatMap (·.op.pushedTo r)

/-- The messages that all calls of `ProcessMessages` on `r` dequeued. -/
def poppedFrom (r : ServiceRef) (tr : List Label) : List BaseMessage :=
  tr.flatMap (·.op.poppedFrom r)

theorem mailbox_step (h : Frame.step σ f c = some (op, fs)) (hr : RefsOk σ F)
    (r : ServiceRef) :
    (σ.services r).messageQueue ++ op.pushedTo r =
      op.poppedFrom r ++ ((σ.apply op).services r).messageQueue := by
  cases op with
  | pushMessage r' m =>
    rw [messageQueue_pushMessage]
    by_cases hr' : r' = r
    · subst hr'; simp [Op.pushedTo, Op.poppedFrom]
    · simp [Op.pushedTo, Op.poppedFrom, hr', Ne.symm hr']
  | popMessage r' m =>
    obtain ⟨w, i, messages, -, hq, -, -⟩ := popMessage_op h
    rw [messageQueue_popMessage]
    by_cases hr' : r' = r
    · subst hr'; simp [Op.pushedTo, Op.poppedFrom, hq]
    · simp [Op.pushedTo, Op.poppedFrom, hr', Ne.symm hr']
  | raiseFlag => rw [messageQueue_raiseFlag]; exact List.append_nil _
  | clearFlag => rw [messageQueue_clearFlag]; exact List.append_nil _
  | pushGlobal | popGlobal | lockMutex | unlockMutex | incrementSleep | decrementSleep
  | joinWaitSet | signal => exact List.append_nil _
  | _ => rw [(sameScheduling_step h hr rfl).messages]; exact List.append_nil _

/-- Only `PushMessage` fills an empty queue. -/
theorem empty_step (h : Frame.step σ f c = some (op, fs)) (hr : RefsOk σ F)
    (hf : ∀ m, f ≠ .send (.pushMessage r m)) (hq : (σ.services r).messageQueue = []) :
    ((σ.apply op).services r).messageQueue = [] := by
  have hstep := mailbox_step h hr r
  rw [hq, List.nil_append] at hstep
  refine List.eq_nil_iff_forall_not_mem.mpr fun m hm => ?_
  have hpush : m ∈ op.pushedTo r := by rw [hstep]; exact List.mem_append_right _ hm
  rw [mem_pushedTo.mp hpush] at h
  exact hf m (pushMessage_op h).1

theorem mailbox_fifo (h : system.Exec C (initial n p k) tr s) (r : ServiceRef) :
    pushedTo r tr = poppedFrom r tr ++ (s.shared.services r).messageQueue := by
  refine h.fifo (fun σ => (σ.services r).messageQueue) (·.op.pushedTo r) (·.op.poppedFrom r) ?_
  intro pre s₁ l s₂ hr _ hs
  obtain ⟨fs, R, hm, -, -, hsh⟩ := hs.frames
  rw [hsh]
  exact mailbox_step hm (Reach.refsOk ⟨pre, hr⟩) r

-- ---------------------------------------------------------------------------
-- One handler for each message
-- ---------------------------------------------------------------------------

/-- The message of `r` whose handler is about to start. -/
def Frame.handles (r : ServiceRef) : Frame → Option BaseMessage
  | .handler r' m => if r' = r then some m else none
  | _ => none

/-- The messages whose handlers on `r` were started. -/
def handled (r : ServiceRef) (tr : List Label) : List BaseMessage :=
  tr.flatMap fun l => (l.frame.handles r).toList

/-- A handler is called for the message that was just dequeued. -/
theorem handler_origin (h : Frame.step σ f c = some (op, fs)) (hg : .handler r m ∈ fs) :
    op = .popMessage r m := by
  obtain ⟨hcall, -⟩ := routine_step h _ hg
  cases f with
  | worker w pc =>
    cases WorkerPc.step_cases h with
    | popMessage => rcases List.mem_pair.mp hg with heq | heq <;> cases heq; rfl
    | _ => cases List.mem_singleton.mp hg
  | _ => simp [Frame.routine, Routine.calls] at hcall

/-- `ProcessMessages` calls one handler for each message it dequeues, and
nobody else calls one. -/
theorem handles_step (h : Frame.step σ f c = some (op, fs)) (r : ServiceRef) :
    fs.filterMap (Frame.handles r) = op.poppedFrom r := by
  cases op with
  | popMessage r' m =>
    obtain ⟨w, i, messages, -, -, -, rfl⟩ := popMessage_op h
    by_cases hr : r' = r <;> simp [Frame.handles, Op.poppedFrom, hr]
  | _ =>
    refine List.filterMap_eq_nil_iff.mpr fun g hg => ?_
    cases g with
    | handler => cases handler_origin h hg
    | _ => rfl

theorem handled_once (h : system.Exec C (initial n p k) tr s) (r : ServiceRef) :
    (poppedFrom r tr : Multiset BaseMessage) =
      handled r tr + s.frames.filterMap (Frame.handles r) := by
  have hzero : (initial n p k).frames.filterMap (Frame.handles r) = 0 :=
    filterMap_initial fun f hf => by
      rcases mem_initial_frames hf with ⟨i, -, rfl⟩ | rfl | rfl | rfl <;> rfl
  have hbal := h.balance (fun _ F => F.filterMap (Frame.handles r)) (·.op.poppedFrom r)
    (fun l => (l.frame.handles r).toList) ?_
  · rwa [hzero, zero_add] at hbal
  · intro pre s l fs R _ _ _ hm
    simp only [Multiset.filterMap_add, Multiset.filterMap_coe, handles_step hm r]
    cases hf : l.frame.handles r with
    | none => simp [Multiset.filterMap_cons_none _ _ hf, add_comm]
    | some m => simp [Multiset.filterMap_cons_some _ _ _ hf, add_comm]

-- ---------------------------------------------------------------------------
-- Where messages come from
-- ---------------------------------------------------------------------------

/-- The message a frame carries. -/
def Frame.message : Frame → Option BaseMessage
  | .send (.find _ m) | .send (.pushMessage _ m) | .handler _ m => some m
  | _ => none

/-- A step makes a message: a caller's own, or one of the program's three. -/
inductive Makes (σ : Shared) : Frame → Choice → BaseMessage → Prop
  | caller : Makes σ .caller (.sendMessage target m) m
  | send : Makes σ (.script r phase) (.jsSend target functionName content)
      (scriptMessage (σ.services r) (ScriptService.toString functionName))
  | onAccept : Makes σ (.accept (.addEvent fd conn)) c (acceptMessage conn fd)
  | onRW : σ.connectionMap.find e.fd.toUInt32 = some conn → conn.type = .client →
      Makes σ (.socket (.dispatch (e :: events))) c (rwMessage conn e)

/-- A `SendMessage` goes on, or starts with a message that is made there. -/
theorem send_origin (h : Frame.step σ f c = some (op, fs)) (hg : .send pc ∈ fs) :
    (∃ pc', f = .send pc') ∨ ∃ target m, pc = .find target m ∧ Makes σ f c m := by
  obtain ⟨hcall, -⟩ := routine_step h _ hg
  cases f with
  | send pc' => exact .inl ⟨pc', rfl⟩
  | caller =>
    cases callerStep_cases h with
    | sendMessage =>
      rcases List.mem_pair.mp hg with heq | heq <;> cases heq
      exact .inr ⟨_, _, rfl, .caller⟩
    | _ => simp [newScriptServiceFrames, newServiceFrames] at hg
  | script =>
    cases scriptStep_cases h with
    | jsSend =>
      rcases List.mem_pair.mp hg with heq | heq <;> cases heq
      exact .inr ⟨_, _, rfl, .send⟩
    | _ => simp [newScriptServiceFrames] at hg
  | socket =>
    cases SocketPc.step_cases h with
    | event hfind =>
      rcases eventFrames_cases hg with ⟨-, -, heq⟩ | ⟨htype, heq⟩ | heq <;> cases heq
      exact .inr ⟨_, _, rfl, .onRW hfind htype⟩
    | _ => cases List.mem_singleton.mp hg
  | accept =>
    cases AcceptPc.step_cases h with
    | added | notAdded =>
      cases List.mem_singleton.mp hg
      exact .inr ⟨_, _, rfl, .onAccept⟩
    | _ => cases List.mem_singleton.mp hg
  | _ => simp [Frame.routine, Routine.calls] at hcall

/-- A message that a step goes on with was there, or waited in a queue, or is
made in this step. -/
theorem message_step (h : Frame.step σ f c = some (op, fs)) (hg : g ∈ fs)
    (hm : g.message = some m) :
    f.message = some m ∨ (∃ r, m ∈ (σ.services r).messageQueue) ∨ Makes σ f c m := by
  cases g with
  | send pc =>
    rcases send_origin h hg with ⟨pc', rfl⟩ | ⟨target, m', rfl, hmake⟩
    · cases SendPc.step_cases h with
      | found => cases List.mem_singleton.mp hg; exact .inl hm
      | unknown | lost => cases hg
      | wakeUp =>
        obtain ⟨p', -, heq⟩ := List.mem_map.mp hg
        cases heq
        cases hm
      | _ => cases List.mem_singleton.mp hg; cases hm
    · cases hm
      exact .inr (.inr hmake)
  | handler r m' =>
    cases hm
    rw [handler_origin h hg] at h
    obtain ⟨w, i, messages, -, hq, -, -⟩ := popMessage_op h
    exact .inr (.inl ⟨r, by simp [hq]⟩)
  | _ => cases hm

theorem queue_origin (h : Frame.step σ f c = some (op, fs)) (hr : RefsOk σ F)
    (hm : m ∈ ((σ.apply op).services r).messageQueue) :
    m ∈ (σ.services r).messageQueue ∨ f.message = some m := by
  have hmem : m ∈ (σ.services r).messageQueue ++ op.pushedTo r := by
    rw [mailbox_step h hr r]
    exact List.mem_append_right _ hm
  rcases List.mem_append.mp hmem with hm | hm
  · exact .inl hm
  · rw [mem_pushedTo.mp hm] at h
    rw [(pushMessage_op h).1]
    exact .inr rfl

/-- Every message on its way meets `P`. -/
structure Carried (P : BaseMessage → Prop) (σ : Shared) (F : Multiset Frame) : Prop where
  frames : ∀ f ∈ F, ∀ m, f.message = some m → P m
  queues : ∀ r, ∀ m ∈ (σ.services r).messageQueue, P m

theorem Carried.step {P : BaseMessage → Prop} (hi : Carried P σ (f ::ₘ R)) (hr : RefsOk σ (f ::ₘ R))
    (h : Frame.step σ f c = some (op, fs)) (hnew : ∀ m, Makes σ f c m → P m) :
    Carried P (σ.apply op) ((fs : Multiset Frame) + R) := by
  have hf := hi.frames f (Multiset.mem_cons_self f R)
  constructor
  · intro g hg m hm
    rcases Multiset.mem_add.mp hg with hg | hg
    · rcases message_step h hg hm with hm | ⟨r, hm⟩ | hm
      · exact hf m hm
      · exact hi.queues r m hm
      · exact hnew m hm
    · exact hi.frames g (Multiset.mem_cons_of_mem hg) m hm
  · intro r m hm
    rcases queue_origin h hr hm with hm | hm
    · exact hi.queues r m hm
    · exact hf m hm

theorem Carried.initial {P : BaseMessage → Prop} :
    Carried P (initial n p k).shared (initial n p k).frames := by
  constructor
  · intro f hf m hm
    rcases mem_initial_frames hf with ⟨i, -, rfl⟩ | rfl | rfl | rfl <;> cases hm
  · intro r m hm; cases hm

-- ---------------------------------------------------------------------------
-- Tags and classes
-- ---------------------------------------------------------------------------

/-- A message of one of the places that make messages: the script callback
`send`, `OnAccept` and `OnRW`. -/
inductive Created : BaseMessage → Prop
  | send : Created (scriptMessage sender functionName)
  | onAccept : Created (acceptMessage conn clientFd)
  | onRW : Created (rwMessage conn e)

/-- The tag of the class. -/
def MessageBody.type : MessageBody → MessageType
  | .service _ => .service
  | .socketAccept _ => .socketAccept
  | .socketRw _ => .socketRw

/-- The method for the class of the message. -/
def MessageBody.method (r : ServiceRef) : MessageBody → Frame
  | .service m => .processServiceMessage r m
  | .socketAccept m => .processSocketAcceptMessage r m
  | .socketRw m => .processSocketRwMessage r m

theorem Created.type (h : Created m) : m.type = m.body.type := by
  cases h <;> rfl

/-- A tag that names the class selects the method of the class. -/
theorem handlerFrames_eq (h : m.type = m.body.type) :
    handlerFrames r m = some [m.body.method r] := by
  obtain ⟨type, body⟩ := m
  obtain rfl : type = body.type := h
  cases body <;> rfl

/-- A dispatch that goes through is by a tag that names the class. -/
theorem handlerFrames_cases (h : handlerFrames r m = some fs) :
    m.type = m.body.type ∧ fs = [m.body.method r] := by
  obtain ⟨type, body⟩ := m
  cases type <;> cases body <;> cases h <;> exact ⟨rfl, rfl⟩

/-- Only the dispatch calls the methods. -/
theorem method_origin {b : MessageBody} (h : Frame.step σ f c = some (op, fs))
    (hg : b.method r ∈ fs) : f = .handler r ⟨b.type, b⟩ := by
  obtain ⟨hcall, -⟩ := routine_step h _ hg
  cases f with
  | handler r' m =>
    obtain ⟨fs', hfs, heq⟩ := Option.map_eq_some_iff.mp h
    cases heq
    obtain ⟨htype, rfl⟩ := handlerFrames_cases hfs
    obtain ⟨type, body⟩ := m
    obtain rfl : type = body.type := htype
    rw [List.mem_singleton] at hg
    cases b <;> cases body <;> cases hg <;> rfl
  | _ => cases b <;> simp [MessageBody.method, Frame.routine, Routine.calls] at hcall

/-- The message that a caller passes to `SendMessage` in this step. -/
def Choice.sent : Choice → Option BaseMessage
  | .sendMessage _ m => some m
  | _ => none

theorem Makes.created (h : Makes σ f c m) (hc : ∀ m ∈ c.sent, Created m) : Created m := by
  cases h with
  | caller => exact hc m rfl
  | send => exact .send
  | onAccept => exact .onAccept
  | onRW => exact .onRW

theorem Exec.created (h : system.Exec C (initial n p k) tr s)
    (hsent : ∀ l ∈ tr, ∀ m ∈ l.choice.sent, Created m) : Carried Created s.shared s.frames := by
  refine Machine.Exec.invariant (I := fun _ => Carried Created) (h.of_forall hsent) .initial ?_
  intro tr s l fs R hr hc hF hm hi
  exact hi.step (hF ▸ Reach.refsOk ⟨tr, hr⟩) hm fun m hmake => hmake.created hc.2

/-- Every message is dequeued in the order of the pushes and handed to one
handler, once; that is the one of its class where messages are made by the
program. -/
theorem dequeued_once (h : system.Exec Any (initial n p k) tr s) (r : ServiceRef) :
    pushedTo r tr = poppedFrom r tr ++ (s.shared.services r).messageQueue ∧
      (poppedFrom r tr : Multiset BaseMessage) =
        handled r tr + s.frames.filterMap (Frame.handles r) ∧
      ((∀ l ∈ tr, ∀ m ∈ l.choice.sent, Created m) → ∀ m, .handler r m ∈ s.frames →
        m.type = m.body.type ∧ ∀ c, Frame.step s.shared (.handler r m) c =
          some (.silent, [m.body.method r])) := by
  refine ⟨mailbox_fifo h r, handled_once h r, ?_⟩
  intro hsent m hm
  have htype := ((Exec.created h hsent).frames _ hm m rfl).type
  refine ⟨htype, fun c => ?_⟩
  simp [Frame.step, handlerFrames_eq htype]

/-- A message that a caller sent and a worker dequeued. -/
theorem dequeued_once_sent : ∃ tr s, system.Exec Any (initial 1 (fun i => 1 <<< i) 1) tr s ∧
    pushedTo 0 tr = [scriptMessage {} ""] ∧ (s.shared.services 0).messageQueue = [] ∧
    poppedFrom 0 tr = [scriptMessage {} ""] ∧
    ∀ c, Frame.step s.shared (.handler 0 (scriptMessage {} "")) c =
      some (.silent, [.processServiceMessage 0 ⟨0, "", ""⟩]) := by
  have h : ((system.record Any (initial 1 (fun i => 1 <<< i) 1)
      (creates 3 ++ sends 3 0 5 ++ steps 0 3)).any fun r =>
        (r.1.all fun l => l.choice.sent.all (· = scriptMessage {} "")) ∧
        .handler 0 (scriptMessage {} "") ∈ r.2.frames ∧
        pushedTo 0 r.1 = [scriptMessage {} ""] ∧
        (r.2.shared.services 0).messageQueue = []) = true := by
    decide +kernel
  obtain ⟨tr, s, hs, hsent, hm, hpush, hq⟩ := Machine.exists_of_record h
  obtain ⟨hfifo, -, hhandler⟩ := dequeued_once hs 0
  have hcreated : ∀ l ∈ tr, ∀ m ∈ l.choice.sent, Created m := by
    intro l hl m hml
    have hall := List.all_eq_true.mp hsent l hl
    rw [hml] at hall
    obtain rfl : m = scriptMessage {} "" := by simpa using hall
    exact .send
  refine ⟨tr, s, hs, hpush, hq, ?_, ?_⟩
  · rw [← hpush, hfifo, hq, List.append_nil]
  · exact (hhandler hcreated _ hm).2

end XianNet
