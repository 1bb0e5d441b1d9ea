import Mathlib.Algebra.BigOperators.Intervals
import XianNet.Gateway
import XianNet.Write

/-!
# A reply for each report

A report of a client travels from `epoll_wait` through the event loop, the
gateway's queue and its handler to one call of `Write`. In the program nothing
of it is lost or made twice on the way (`server_replies`).
-/

namespace XianNet

open Interleaving

variable {cfg : Config} {σ : Shared} {s₀ s : ServerState} {tr : List ServerLabel} {fd : Int32}
variable {f : Frame} {fs : List Frame} {R : Multiset Frame} {op : Op} {c : Choice}

-- ---------------------------------------------------------------------------
-- Replies that are asked for
-- ---------------------------------------------------------------------------

/-- How often the gateway calls `Write` for the number to answer the message. -/
def SocketRWMessage.asks (fd : Int32) (b : SocketRWMessage) : Nat :=
  if b.fd = fd then b.canRead.toNat + b.canWrite.toNat else 0

def BaseMessage.asks (fd : Int32) (m : BaseMessage) : Nat :=
  match m.body with
  | .socketRw b => b.asks fd
  | _ => 0

def asked (fd : Int32) (messages : List BaseMessage) : Nat :=
  (messages.map (BaseMessage.asks fd)).sum

/-- The calls of `Write` for the number that a frame still leads to. -/
def Frame.promises (fd : Int32) : Frame → Nat
  | .socket (.dispatch events) => asked fd (rwOf fd events)
  | .send (.find _ m) | .send (.pushMessage _ m) | .handler _ m => m.asks fd
  | .processSocketRwMessage _ b => b.asks fd
  | .gateway (.write fd' _) => if fd' = fd then 1 else 0
  | _ => 0

/-- The calls that the queues still lead to. -/
def queued (fd : Int32) (σ : Shared) : Nat :=
  ∑ r ∈ Finset.range σ.allocated, asked fd (σ.services r).messageQueue

def inFlight (fd : Int32) (σ : Shared) (F : Multiset Frame) : Nat :=
  weigh (Frame.promises fd) F + queued fd σ

@[simp] theorem asked_nil : asked fd [] = 0 := rfl

@[simp] theorem asked_append (ms ms' : List BaseMessage) :
    asked fd (ms ++ ms') = asked fd ms + asked fd ms' := by
  simp [asked]

@[simp] theorem asked_singleton (m : BaseMessage) : asked fd [m] = m.asks fd := by
  simp [asked]

theorem client_of_asks {m : BaseMessage} (h : m.asks fd ≠ 0) : m.client.isSome := by
  unfold BaseMessage.asks at h
  unfold BaseMessage.client
  split at h
  · rename_i hbody; rw [hbody]; rfl
  · exact absurd rfl h

/-- `OnEvent` passes the event on if it is of interest. -/
theorem promises_onEventFrames {conn : Connection} {e : EpollEvent} (hcfd : conn.fd = e.fd)
    (ho : σ.OpenAs e.fd conn.type) (hfd : ¬ σ.OpenAs fd .listen) :
    weigh (Frame.promises fd) (onEventFrames conn e : Multiset Frame) = asked fd (rwOf fd [e]) := by
  unfold onEventFrames
  split
  · rename_i htype
    have hne : e.fd ≠ fd := by
      rintro rfl
      rw [htype] at ho
      exact hfd ho
    split <;> simp [Frame.promises, rwOf, hne]
  · by_cases hflags : (e.epollIn || e.epollOut) = true
    · by_cases heq : e.fd = fd <;>
        simp [hflags, Frame.promises, rwOf, rwMessage, BaseMessage.asks, SocketRWMessage.asks, hcfd,
          heq]
    · simp [hflags, rwOf]

theorem promises_socketRwFrames (b : SocketRWMessage) :
    weigh (Frame.promises fd) (socketRwFrames b : Multiset Frame) = b.asks fd := by
  unfold socketRwFrames SocketRWMessage.asks
  cases b.canRead <;> cases b.canWrite <;> by_cases h : b.fd = fd <;> simp [Frame.promises, h]

/-- The dispatch passes the message on to the method of its class. -/
theorem promises_handlerFrames (h : handlerFrames r m = some fs) :
    weigh (Frame.promises fd) (fs : Multiset Frame) = m.asks fd := by
  rw [(handlerFrames_cases h).2]
  obtain ⟨type, body⟩ := m
  cases body <;> rfl

theorem promises_processServiceMessageFrames {service : BaseService} {m : ServiceMessage} :
    weigh (Frame.promises fd) (processServiceMessageFrames service r m : Multiset Frame) = 0 := by
  refine weigh_eq_zero fun g hg => ?_
  rw [processServiceMessageFrames_calls hg]
  rfl

-- ---------------------------------------------------------------------------
-- One step
-- ---------------------------------------------------------------------------

/-- What the frame carries does not get lost. -/
structure Carries (σ : Shared) (f : Frame) : Prop where
  find : ∀ target m, f = .send (.find target m) → m.client.isSome →
    (σ.serviceMap.find target).isSome
  process : ∀ r b, f = .processSocketRwMessage r b → (σ.services r).cls = .gateway
  dispatch : ∀ events, f = .socket (.dispatch events) → ∀ e ∈ events,
    ∃ conn, σ.connectionMap.find e.fd.toUInt32 = some conn ∧ conn.fd = e.fd ∧
      σ.OpenAs e.fd conn.type

def Op.pushed : Op → List BaseMessage
  | .pushMessage _ m => [m]
  | _ => []

def Op.popped : Op → List BaseMessage
  | .popMessage _ m => [m]
  | _ => []

section
attribute [local simp] Frame.replies Frame.promises Op.pushed Op.popped Op.reported

/-- A step passes on what its frame promises, or pays it with a call of `Write`. -/
theorem promises_step (h : Frame.step σ f c = some (op, fs)) (hc : c.isForeign = false)
    (hf : Carries σ f) (hfd : ¬ σ.OpenAs fd .listen) :
    (f.replies fd).length + weigh (Frame.promises fd) (fs : Multiset Frame) + asked fd op.pushed =
      f.promises fd + asked fd op.popped + asked fd (op.reported fd) := by
  cases Frame.step_inv h with
  | worker hs =>
    cases hs with
    | block hb => cases hb <;> rfl
    | popMessage => simp
    | _ => rfl
  | send hs =>
    cases hs with
    | @unknown target m hnone =>
      have hzero : m.asks fd = 0 := by
        by_contra hne
        have hsome := hf.find target m rfl (client_of_asks hne)
        rw [hnone] at hsome
        cases hsome
      simp [hzero]
    | wakeUp hw => cases hw <;> rfl
    | found => simp
    | pushMessage => simp
    | _ => rfl
  | service hs =>
    cases hs with
    | handler hfs =>
      rw [promises_handlerFrames hfs]
      simp
    | processServiceMessage =>
      rw [promises_processServiceMessageFrames]
      simp
    | processSocketRwMessage =>
      rw [processSocketRwMessageFrames, hf.process _ _ rfl, promises_socketRwFrames]
      simp
    | sendMessage => cases hc
    | onInitialization =>
      unfold onInitializationFrames
      split <;> rfl
    | onExit =>
      unfold onExitFrames
      split <;> rfl
    | _ => rfl
  | network hs => cases hs <;> rfl
  | socket hs =>
    cases hs with
    | wait => simp
    | done => rfl
    | unknown hnone =>
      obtain ⟨conn, hfind, -⟩ := hf.dispatch _ rfl _ List.mem_cons_self
      rw [hnone] at hfind
      cases hfind
    | @event conn e events hfind =>
      obtain ⟨conn', hfind', hcfd, ho⟩ := hf.dispatch _ rfl _ List.mem_cons_self
      rw [hfind] at hfind'
      cases hfind'
      rw [← Multiset.coe_add, weigh_add, promises_onEventFrames hcfd ho hfd]
      simp [rwOf_cons fd e events]
  | accept hs => cases hs <;> rfl
  | listen hs => cases hs <;> rfl
  | close hs => cases hs <;> rfl
  | gateway hs =>
    cases hs with
    | @writeNothing fd' | @written fd' => by_cases h : fd' = fd <;> simp [h]
    | _ => simp
  | modify hs => cases hs <;> rfl

end

theorem sum_asked (hlt : r < n) (m : BaseMessage) :
    ∑ r' ∈ Finset.range n, asked fd (if r = r' then [m] else []) = asked fd [m] := by
  have heq : ∀ r' ∈ Finset.range n, asked fd (if r = r' then [m] else []) =
      if r = r' then asked fd [m] else 0 := by
    intro r' _
    split <;> rfl
  rw [Finset.sum_congr rfl heq, Finset.sum_ite_eq, if_pos (Finset.mem_range.mpr hlt)]

theorem sum_pushedTo {op : Op} (hr : ∀ r ∈ op.refs, r < n) :
    ∑ r ∈ Finset.range n, asked fd (op.pushedTo r) = asked fd op.pushed := by
  cases op with
  | pushMessage r m => exact sum_asked (hr r (List.mem_singleton_self r)) m
  | _ => exact Finset.sum_eq_zero fun _ _ => rfl

theorem sum_poppedFrom {op : Op} (hr : ∀ r ∈ op.refs, r < n) :
    ∑ r ∈ Finset.range n, asked fd (op.poppedFrom r) = asked fd op.popped := by
  cases op with
  | popMessage r m => exact sum_asked (hr r (List.mem_singleton_self r)) m
  | _ => exact Finset.sum_eq_zero fun _ _ => rfl

/-- A new service has no messages. -/
theorem asked_queue_apply (h : Frame.step σ f c = some (op, fs)) :
    queued fd (σ.apply op) =
      ∑ r ∈ Finset.range σ.allocated, asked fd ((σ.apply op).services r).messageQueue := by
  cases op with
  | newService service =>
    have hblank : service.messageQueue = [] := by
      rcases newService_op h with ⟨name, u, rfl, -⟩ | ⟨name, u, rfl, -⟩ <;> rfl
    show ∑ r ∈ Finset.range (σ.allocated + 1), _ = _
    rw [Finset.sum_range_succ]
    simp [Shared.apply, hblank]
  | _ => rfl

theorem asked_queue_step (h : Frame.step σ f c = some (op, fs)) (hr : RefsOk σ (f ::ₘ R)) :
    queued fd σ + asked fd op.pushed = asked fd op.popped + queued fd (σ.apply op) := by
  have hrefs : ∀ r ∈ op.refs, r < σ.allocated := fun r hop =>
    hr.frames f (Multiset.mem_cons_self f R) r ((step_known h).1 r hop)
  rw [asked_queue_apply h, queued, ← sum_pushedTo hrefs, ← sum_poppedFrom hrefs,
    ← Finset.sum_add_distrib, ← Finset.sum_add_distrib]
  refine Finset.sum_congr rfl fun r _ => ?_
  rw [← asked_append, ← asked_append, mailbox_step h hr r]

theorem inFlight_step (h : Frame.step σ f c = some (op, fs)) (hr : RefsOk σ (f ::ₘ R))
    (hc : c.isForeign = false) (hf : Carries σ f) (hfd : ¬ σ.OpenAs fd .listen) :
    (f.replies fd).length + inFlight fd (σ.apply op) ((fs : Multiset Frame) + R) =
      inFlight fd σ (f ::ₘ R) + asked fd (op.reported fd) := by
  have hpromises := promises_step h hc hf hfd
  have hqueue : queued fd σ + _ = _ := asked_queue_step h hr
  simp only [inFlight, weigh_add, weigh_cons]
  omega

-- ---------------------------------------------------------------------------
-- The program
-- ---------------------------------------------------------------------------

theorem Exec.handling_pushed (h : system.Exec C (initial n p k) tr' s')
    (hf : .handler r m ∈ s'.frames) : ∃ l ∈ tr', l.op = .pushMessage r m := by
  have hpop : m ∈ poppedFrom r tr' := by
    rw [← Multiset.mem_coe, handled_once h r]
    exact Multiset.mem_add.mpr (.inr ((Multiset.mem_filterMap _ _).mpr ⟨_, hf, if_pos rfl⟩))
  have hpush : m ∈ pushedTo r tr' := by
    rw [mailbox_fifo h r]
    exact List.mem_append_left _ hpop
  obtain ⟨l, hl, hm⟩ := List.mem_flatMap.mp hpush
  exact ⟨l, hl, mem_pushedTo.mp hm⟩

theorem Exec.method_pushed {b : MessageBody} (h : system.Exec C (initial n p k) tr' s')
    (hf : b.method r ∈ s'.frames) : ∃ l ∈ tr', l.op = .pushMessage r ⟨b.type, b⟩ := by
  refine h.invariant (I := fun tr _ F => b.method r ∈ F →
    ∃ l ∈ tr, l.op = .pushMessage r ⟨b.type, b⟩) ?_ ?_ hf
  · intro hf
    rcases mem_initial_frames hf with ⟨i, -, heq⟩ | heq | heq | heq <;> cases b <;> cases heq
  · intro tr s l fs R hr _ hF hm hi hf
    have hold : ∃ l ∈ tr, l.op = .pushMessage r ⟨b.type, b⟩ := by
      rcases Multiset.mem_add.mp hf with hf | hf
      · have hmem : .handler r ⟨b.type, b⟩ ∈ s.frames := by
          rw [hF, method_origin hm hf]
          exact Multiset.mem_cons_self _ R
        exact Exec.handling_pushed hr hmem
      · exact hi (Multiset.mem_cons_of_mem hf)
    obtain ⟨l', hl', hpush⟩ := hold
    exact ⟨l', List.mem_append_left _ hl', hpush⟩

theorem Exec.carries (h0 : cfg.initial = some s₀) (h : (server cfg).Exec C s₀ tr s)
    (h32 : s.shared.allocated ≤ 2 ^ 32) (hf : .frame f ∈ s.frames) : Carries s.shared f := by
  have hrun := Exec.ofServer h0 h
  have hmem : f ∈ s.toSystem.frames := by
    rw [State.frames_map]
    exact Multiset.mem_map_of_mem ServerFrame.toFrame hf
  constructor
  · rintro target m rfl hm
    obtain ⟨gateway, hfind, -⟩ := Exec.find_notification h0 h h32 hf hm
    rw [hfind]
    rfl
  · rintro r b rfl
    obtain ⟨l, hl, hop⟩ := Exec.method_pushed (b := .socketRw b) hrun hmem
    obtain ⟨l', hl', rfl⟩ := List.mem_map.mp hl
    have hone := (Exec.notified h0 h h32).1 l' hl' r _ hop rfl
    exact (hone.unique r hone.created).mpr rfl
  · rintro events rfl e he
    exact Reach.dispatched ⟨_, hrun.mono fun _ _ hc => hc.noClose⟩ events hmem e he

theorem inFlight_initial : inFlight fd (Shared.initial n) (initial n p k).frames = 0 := by
  have hpromises : weigh (Frame.promises fd) (initial n p k).frames = 0 := by
    refine weigh_eq_zero fun f hf => ?_
    rcases mem_initial_frames hf with ⟨i, -, rfl⟩ | rfl | rfl | rfl <;> rfl
  rw [inFlight, hpromises]
  rfl

theorem replies_append {tr' : List Label} {l : Label} :
    replies fd (tr' ++ [l]) = replies fd tr' ++ l.frame.replies fd := by
  simp [replies]

/-- The calls of `Write` that were made and those on their way are all that the
reports ask for. -/
theorem Exec.replied (h0 : cfg.initial = some s₀) (h : (server cfg).Exec C s₀ tr s)
    (h32 : s.shared.allocated ≤ 2 ^ 32) (hfd : ¬ s.shared.OpenAs fd .listen) :
    (replies fd (toSystem tr)).length + inFlight fd s.shared s.toSystem.frames =
      asked fd (reported fd (toSystem tr)) := by
  induction h with
  | refl =>
    have hzero : inFlight fd _ (initial cfg.threads cfg.processingNum 1).frames = 0 :=
      inFlight_initial
    rw [← Config.initial_toSystem h0] at hzero
    obtain ⟨workers, -, rfl⟩ := Option.map_eq_some_iff.mp h0
    exact (Nat.zero_add _).trans hzero
  | @step tr s₁ l s₂ hr hc hs ih =>
    obtain ⟨gs, R, hm, hF, hF', hsh⟩ := hs.frames
    obtain ⟨hforeign, hstep⟩ := server_step hm
    have hle : s₁.shared.allocated ≤ s₂.shared.allocated := by
      rw [hsh]
      exact allocated_le_apply _ _
    have hreach : system.Reach NoClose _ (s₁.map ServerFrame.toFrame) :=
      ⟨_, (Exec.ofServer h0 hr).mono fun _ _ hc => hc.noClose⟩
    have hmem : (s₁.map ServerFrame.toFrame).frames =
        l.frame.toFrame ::ₘ R.map ServerFrame.toFrame := by
      rw [State.frames_map, hF, Multiset.map_cons]
    have hold : ¬ s₁.shared.OpenAs fd .listen := fun ho => hfd <| by
      rw [hsh]
      exact openAs_step (Reach.kernelOk hreach) hstep (Reach.frame_closing hreach hmem) ho
    have hcarries : Carries s₁.shared l.frame.toFrame := by
      cases hl : l.frame with
      | main => exact ⟨nofun, nofun, nofun⟩
      | frame f => exact Exec.carries h0 hr (hle.trans h32) (by
        rw [hF, hl]
        exact Multiset.mem_cons_self _ R)
    have hflight := inFlight_step hstep (hmem ▸ Reach.refsOk hreach) hforeign hcarries hold
    have hi := ih (hle.trans h32) hold
    have htr : toSystem (tr ++ [l]) = toSystem tr ++ [l.map ServerFrame.toFrame] := List.map_append
    rw [htr, replies_append, reported_append, asked_append, List.length_append, State.frames_map,
      hF', hsh, Multiset.map_add, Multiset.map_coe]
    rw [hmem] at hi
    calc (replies fd (toSystem tr)).length + (l.frame.toFrame.replies fd).length +
          inFlight fd (s₁.shared.apply l.op) _
      _ = (replies fd (toSystem tr)).length + inFlight fd s₁.shared _ +
          asked fd (l.op.reported fd) := by rw [Nat.add_assoc, hflight, Nat.add_assoc]
      _ = asked fd (reported fd (toSystem tr)) + asked fd (l.op.reported fd) := by rw [hi]

-- ---------------------------------------------------------------------------
-- What is reported, and what is replied
-- ---------------------------------------------------------------------------

variable {tr' : List Label} {s' : State}

/-- Nobody asks for `EPOLLOUT`. -/
theorem Exec.noEpollOut (h : system.Exec Contained (initial n p k) tr' s') :
    ∀ x i, (s'.shared.kernel.files x).interest = some i → i.epollOut = false := by
  refine h.invariant (I := fun _ σ _ => ∀ x i, (σ.kernel.files x).interest = some i →
    i.epollOut = false) nofun ?_
  intro tr s l fs R _ hc _ _ hi x i hint
  have hforeign := hc.ops
  obtain ⟨file, hfile, hstep⟩ := file_step s.shared l.op x
  have hint : ((s.shared.apply l.op).kernel.files x).interest = some i := hint
  rw [hfile] at hint
  generalize l.op = op at hforeign hstep
  cases hstep with
  | opened | accepted | closed | removed => cases hint
  | added => cases hint; rfl
  | modified => cases hforeign
  | _ => exact hi x i hint

theorem asks_of_rwOf (hm : m ∈ rwOf fd events) (hout : ∀ e ∈ events, e.epollOut = false) :
    m.asks fd = 1 := by
  obtain ⟨e, he, rfl⟩ := List.mem_map.mp hm
  obtain ⟨he, hflags⟩ := List.mem_filter.mp he
  have hno := hout e he
  simp only [hno, Bool.or_false, decide_eq_true_eq] at hflags
  simp [BaseMessage.asks, SocketRWMessage.asks, hflags.1, hflags.2, hno]

/-- Every report of the program is for one reply. -/
theorem Exec.asks_reported (h : system.Exec Contained (initial n p k) tr' s') :
    ∀ m ∈ reported fd tr', m.asks fd = 1 := by
  induction h with
  | refl => exact nofun
  | @step tr s₁ l s₂ hr _ hs ih =>
    intro m hm
    rw [reported_append] at hm
    rcases List.mem_append.mp hm with hm | hm
    · exact ih m hm
    · obtain ⟨fs, R, hstep, -, -, -⟩ := hs.frames
      generalize l.op = op at hm hstep
      cases op with
      | epollWait events =>
        refine asks_of_rwOf hm fun e he => ?_
        have hrep := (epollWait_op hstep).2.2 e he
        refine Bool.eq_false_iff.mpr fun hout => ?_
        simp only [Kernel.reports, hout, Bool.and_eq_true, Bool.not_true, Bool.false_or,
          beq_iff_eq] at hrep
        cases Exec.noEpollOut hr _ _ hrep.2
      | _ => cases hm

theorem asked_of_asks {messages : List BaseMessage} (h : ∀ m ∈ messages, m.asks fd = 1) :
    asked fd messages = messages.length := by
  have hmap : messages.map (BaseMessage.asks fd) = messages.map fun _ => 1 :=
    List.map_congr_left h
  rw [asked, hmap, List.map_const', List.sum_replicate_nat, Nat.mul_one]

theorem Exec.asked_reported (h0 : cfg.initial = some s₀) (h : (server cfg).Exec C s₀ tr s) :
    asked fd (reported fd (toSystem tr)) = (reported fd (toSystem tr)).length :=
  asked_of_asks (Exec.asks_reported (Exec.ofServer h0 h))

theorem content_of_socketRw {b : SocketRWMessage}
    (h : .gateway (.write fd content) ∈ socketRwFrames b) : content = "hello world" := by
  unfold socketRwFrames at h
  rcases List.mem_append.mp h with h | h <;> split at h
  · rcases List.mem_pair.mp h with heq | heq <;> cases heq
    rfl
  · cases h
  · cases List.mem_singleton.mp h
    rfl
  · cases h

theorem content_of_write (h : Frame.step σ f c = some (op, fs))
    (hg : .gateway (.write fd content) ∈ fs) : content = "hello world" := by
  have hcall := (routine_step h _ hg).1
  cases f with
  | processSocketRwMessage r b =>
    cases h
    unfold processSocketRwMessageFrames at hg
    split at hg
    · cases hg
    · exact content_of_socketRw hg
  | gateway =>
    cases GatewayPc.step_cases h with
    | readMore => cases List.mem_singleton.mp hg
    | _ => cases hg
  | _ => simp [Frame.routine, Routine.calls] at hcall

/-- The gateway has one thing to say. -/
theorem Exec.says_hello (h : system.Exec C (initial n p k) tr' s') :
    (∀ fd content, .gateway (.write fd content) ∈ s'.frames → content = "hello world") ∧
      ∀ fd, ∀ content ∈ replies fd tr', content = "hello world" := by
  refine h.invariant (I := fun tr _ F =>
    (∀ fd content, .gateway (.write fd content) ∈ F → content = "hello world") ∧
      ∀ fd, ∀ content ∈ replies fd tr, content = "hello world") ⟨?_, nofun⟩ ?_
  · intro fd content hf
    rcases mem_initial_frames hf with ⟨i, -, heq⟩ | heq | heq | heq <;> cases heq
  · intro tr s l fs R _ _ _ hm ⟨hframes, hreplies⟩
    constructor
    · intro fd content hf
      rcases Multiset.mem_add.mp hf with hf | hf
      · exact content_of_write hm hf
      · exact hframes fd content (Multiset.mem_cons_of_mem hf)
    · intro fd content hcontent
      rw [replies_append] at hcontent
      rcases List.mem_append.mp hcontent with hcontent | hcontent
      · exact hreplies fd content hcontent
      · rcases replies_cases fd l.frame with hnone | ⟨content', hl⟩
        · rw [hnone] at hcontent; cases hcontent
        · rw [hl, replies_write, List.mem_singleton] at hcontent
          rw [hcontent]
          exact hframes fd content' (hl ▸ Multiset.mem_cons_self _ R)

-- ---------------------------------------------------------------------------
-- The server
-- ---------------------------------------------------------------------------

/-- Until ids come back, the gateway's calls of `Write` on a client's number and
what is on its way to one of them are as many as the reports that `epoll_wait`
returned for the number, and every call is for the same text. -/
theorem server_replies (h0 : cfg.initial = some s₀) (h : (server cfg).Exec Any s₀ tr s)
    (h32 : s.shared.allocated ≤ 2 ^ 32) (hfd : ¬ s.shared.OpenAs fd .listen) :
    (replies fd (toSystem tr)).length + inFlight fd s.shared s.toSystem.frames =
        (reported fd (toSystem tr)).length ∧
      ∀ content ∈ replies fd (toSystem tr), content = "hello world" := by
  refine ⟨?_, (Exec.says_hello (Exec.ofServer h0 h)).2 fd⟩
  rw [Exec.replied h0 h h32 hfd, Exec.asked_reported h0 h]

/-- The message with the byte is the gateway's, and its reply is still to come. -/
theorem server_replies_due : ∃ tr s, (reported 6 (toSystem tr)).length = 1 ∧
    (replies 6 (toSystem tr)).length + inFlight 6 (s : ServerState).shared s.toSystem.frames =
      1 := by
  obtain ⟨s₀, tr, s, h0, hrun, hfew, hfd, hreported⟩ := exists_served serves
    (fun r => r.2.shared.allocated = 2 ∧ (r.2.shared.kernel.descriptors 6 = some 1 ∧
      (r.2.shared.kernel.files 1).isClient) ∧ (reported 6 (toSystem r.1)).length = 1) (by
        decide +kernel)
  have hclient : s.shared.OpenAs 6 .client := ⟨1, hfd⟩
  have hfew : s.shared.allocated = 2 := hfew
  obtain ⟨hall, -⟩ := server_replies h0 hrun (by omega) fun ho => nomatch hclient.type ho
  exact ⟨tr, s, hreported, hall.trans hreported⟩

theorem Exec.allocated_le (h : (server cfg).Exec C s₀ tr s) :
    s₀.shared.allocated ≤ s.shared.allocated := by
  induction h with
  | refl => exact Nat.le_refl _
  | step _ _ hs ih =>
    obtain ⟨-, -, -, -, -, hsh⟩ := hs.frames
    rw [hsh]
    exact ih.trans (allocated_le_apply _ _)

/-- Nobody replies to a number that is not open yet. -/
theorem Exec.replies_free (h0 : cfg.initial = some s₀) (h : (server cfg).Exec C s₀ tr s)
    (h32 : s.shared.allocated ≤ 2 ^ 32) (hfree : s.shared.kernel.descriptors fd = none) :
    replies fd (toSystem tr) = [] := by
  have hclosed : ¬ s.shared.OpenAs fd .listen := by
    rintro ⟨x, hx, -⟩
    rw [hfree] at hx
    cases hx
  have hflight := Exec.replied h0 h h32 hclosed
  have hdue := Exec.due_free ((Exec.ofServer h0 h).mono fun _ _ hc => hc.noClose) fd hfree
  have hreported : reported fd (toSystem tr) = [] := by
    simp only [due, List.flatMap_eq_nil_iff, List.append_eq_nil_iff] at hdue
    exact List.flatMap_eq_nil_iff.mpr fun l hl => (hdue l hl).2
  rw [hreported, asked_nil] at hflight
  exact List.length_eq_zero_iff.mp (Nat.eq_zero_of_add_eq_zero hflight).1

theorem replies_of_opens (h : Frame.step σ f c = some (op, fs)) (hop : op.opens = some x) :
    f.replies fd = [] := by
  rcases replies_cases fd f with hnone | ⟨content, rfl⟩
  · exact hnone
  · cases GatewayPc.step_cases h <;> cases hop

theorem takesAll_of_nil {l : Label} (h : l.frame.replies fd = []) : TakesAll fd l := by
  intro content hcontent
  rw [h] at hcontent
  cases hcontent

/-- The bytes of a connection, from the step that opened it. -/
theorem Exec.sent_iff {before after : List Label} {l : Label}
    (h : system.Exec Contained (initial n p k) (before ++ l :: after) s')
    (hop : l.op.opens = some (fd, t)) (hnone : replies fd before = []) :
    ∃ x, s'.shared.kernel.descriptors fd = some x ∧
      ((s'.shared.kernel.files x).sent = (replies fd (before ++ l :: after)).flatMap bytesOf ↔
        ∀ l' ∈ before ++ l :: after, TakesAll fd l') := by
  have hclosing : ∀ l' ∈ after, l'.op.closes ≠ some fd := by
    intro l' hl' hclose
    have hforeign := Exec.ops_native (h.mono fun _ _ hc => hc.native) l'
      (List.mem_append_right _ (List.mem_cons_of_mem _ hl'))
    generalize l'.op = op at hclose hforeign
    cases op with
    | close => cases hforeign
    | _ => cases hclose
  obtain ⟨s₁, hbefore, h⟩ := h.split
  obtain ⟨s₂, -, hs, hafter⟩ := h.cons
  have hafter : system.Exec Any s₂ after s' := hafter.mono fun _ _ _ => trivial
  have hreach : system.Reach Any (initial n p k) s₂ :=
    ⟨_, (hbefore.mono fun _ _ _ => trivial).step trivial hs⟩
  obtain ⟨fs, R, hm, -, -, hsh⟩ := hs.frames
  have hself : l.frame.replies fd = [] := replies_of_opens hm hop
  have hd : s₂.shared.kernel.descriptors fd = some s₁.shared.kernel.allocated := by
    rw [hsh]
    exact (descriptors_opened hop).trans (if_pos rfl)
  have hblank : (s₂.shared.kernel.files s₁.shared.kernel.allocated).sent = [] := by
    rw [hsh]
    exact sent_opened hop
  have hall : replies fd (before ++ l :: after) = replies fd after := by
    rw [replies, List.flatMap_append, List.flatMap_cons, hself]
    exact congrArg (· ++ _) hnone
  have hsent := Exec.sent_whole_iff hreach hafter hclosing hd
  rw [hblank, List.nil_append] at hsent
  refine ⟨_, Exec.descriptors_kept (hafter.of_forall hclosing) (fun _ _ hc => hc.2) hd, ?_⟩
  rw [hall, hsent, List.forall_mem_append, List.forall_mem_cons]
  refine ⟨fun htakes => ⟨fun l' hl' => takesAll_of_nil ?_, takesAll_of_nil hself, htakes⟩,
    fun htakes => htakes.2.2⟩
  exact List.flatMap_eq_nil_iff.mp hnone l' hl'

/-- After a client was accepted: whenever nothing is on its way to it, it has
got one greeting for each report if and only if the kernel took all of each. -/
theorem server_answers (h0 : cfg.initial = some s₀) (h : (server cfg).Exec Any s₀ tr s)
    (h32 : s.shared.allocated ≤ 2 ^ 32)
    (haccept : ∃ l ∈ tr, l.op.opens = some (fd, .client))
    (hrest : inFlight fd s.shared s.toSystem.frames = 0) :
    ∃ x, s.shared.kernel.descriptors fd = some x ∧
      ((s.shared.kernel.files x).sent = (List.replicate (reported fd (toSystem tr)).length
          "hello world").flatMap bytesOf ↔
        ∀ l ∈ toSystem tr, TakesAll fd l) := by
  obtain ⟨l, hl, hop⟩ := haccept
  have hrun := Exec.ofServer h0 h
  have hclient := Exec.opened_stays (hrun.mono fun _ _ hc => hc.noClose) _
    (List.mem_map_of_mem hl) fd .client hop
  have hflight := Exec.replied h0 h h32 fun ho => nomatch hclient.type ho
  rw [hrest, Nat.add_zero, Exec.asked_reported h0 h] at hflight
  have hsame : replies fd (toSystem tr) =
      List.replicate (reported fd (toSystem tr)).length "hello world" :=
    List.eq_replicate_iff.mpr ⟨hflight, (Exec.says_hello hrun).2 fd⟩
  rw [← hsame]
  obtain ⟨before, after, rfl⟩ := List.append_of_mem hl
  have htr : toSystem (before ++ l :: after) =
      toSystem before ++ l.map ServerFrame.toFrame :: toSystem after := List.map_append
  rw [htr] at hrun ⊢
  refine Exec.sent_iff hrun hop ?_
  obtain ⟨s₁, hbefore, hrest⟩ := h.split
  obtain ⟨s₂, -, hs, -⟩ := hrest.cons
  obtain ⟨gs, R, hm, -, -, -⟩ := hs.frames
  exact Exec.replies_free h0 hbefore ((Exec.allocated_le hrest).trans h32)
    (Kernel.free_iff.mp (free_of_opens (server_step hm).2 hop)).2

/-- The client has got its greeting. -/
theorem server_answers_whole : ∃ s, (s : ServerState).shared.kernel.descriptors 6 = some 1 ∧
    (s.shared.kernel.files 1).sent = bytesOf "hello world" := by
  obtain ⟨s₀, tr, s, h0, hrun, hfew, haccept, hrest, hfd, hreported, htakes⟩ := exists_served
    (serves ++ steps 0 2 ++ [(0, .result 1), (0, .result 0), (0, .result 11)])
    (fun r => r.2.shared.allocated = 2 ∧ (∃ l ∈ r.1, l.op.opens = some (6, .client)) ∧
      inFlight 6 r.2.shared (State.map ServerFrame.toFrame r.2).frames = 0 ∧
      r.2.shared.kernel.descriptors 6 = some 1 ∧ (reported 6 (toSystem r.1)).length = 1 ∧
      ∀ l ∈ toSystem r.1, TakesAll 6 l) (by decide +kernel)
  have hfew : s.shared.allocated = 2 := hfew
  have hfd : s.shared.kernel.descriptors 6 = some 1 := hfd
  have hreported : (reported 6 (toSystem tr)).length = 1 := hreported
  obtain ⟨x, hx, hsent⟩ := server_answers h0 hrun (by omega) haccept hrest
  rw [hfd] at hx
  cases hx
  refine ⟨s, hfd, ?_⟩
  rw [hsent.mpr htakes, hreported]
  simp

end XianNet
