import XianNet.Exclusion
import XianNet.Interleaving.Actors
import XianNet.Progress

/-!
# Services as actors

What the scheduler is for: a service handles the messages sent to it one at a
time and in the order in which they came, whichever worker it is that has it.
As long as nobody wins a swap in the window of `held_twice`, the workers with
their queues and flags do nothing else. This is so for each service by itself:
the services that it holds of are actors, whatever the others do
(`actors_refine`).
-/

namespace XianNet

open Interleaving

variable {σ : Shared} {C : State → Label → Prop} {s s' : State} {p : Nat → Int} {f : Frame}
variable {K : Set ServiceRef}

-- ---------------------------------------------------------------------------
-- Handlers
-- ---------------------------------------------------------------------------

def Frame.processing : Frame → Option ServiceRef
  | .worker _ (.processMessages r _) => some r
  | _ => none

/-- The service whose handler the stack is in, called by `ProcessMessages` at
the bottom. -/
def handling (stack : List Frame) : Option ServiceRef := stack.tail.getLast?.bind Frame.processing

/-- The service whose handler thread `t` is in. -/
def handlerOf (s : State) (t : Nat) : Option ServiceRef := s.threads[t]?.bind handling

theorem handlerOf_eq {t : Nat} (ht : s.threads[t]? = some stack) :
    handlerOf s t = handling stack := by
  rw [handlerOf, ht, Option.bind_some]

theorem handling_call (hcalls : calls ≠ []) : handling (calls ++ [loop]) = loop.processing := by
  cases calls with
  | nil => exact absurd rfl hcalls
  | cons f calls => simp [handling]

/-- What a step that does `op` makes of the handler of its thread. -/
inductive HandlerStep (op : Op) : Option ServiceRef → Option ServiceRef → Prop
  | start : op = .popMessage r m → HandlerStep op none (some r)
  | finish : (∀ r m, op ≠ .pushMessage r m ∧ op ≠ .popMessage r m) → HandlerStep op (some r) none
  | same : (∀ r m, op ≠ .popMessage r m) → HandlerStep op o o

theorem LoopOf.handling_step (hi : LoopOf n p t [] f) (h : Frame.step σ f c = some (op, fs)) :
    HandlerStep op none (handling fs) := by
  have hworker : ∀ w pc, f = .worker w pc → HandlerStep op none (handling fs) := by
    rintro w pc rfl
    cases WorkerPc.step_cases h with
    | popMessage => exact .start rfl
    | block hb => exact .same fun r m hop => by rw [hop] at hb; cases hb
    | _ => exact .same nofun
  by_cases ht : t < n
  · cases hi with
    | worker => exact hworker _ _ rfl
    | processing => exact hworker _ _ rfl
    | socket heq => exact absurd ht (Nat.not_lt.mpr (Nat.le_of_eq heq.symm))
    | network hlt | caller hlt => exact absurd ht (Nat.lt_asymm hlt)
  · obtain ⟨calls, loop, rfl, -, hloop⟩ := (hi.step h).loop
    have hnone : handling (calls ++ [loop]) = none := by
      by_cases hcalls : calls = []
      · rw [hcalls]; rfl
      · rw [handling_call hcalls]
        cases hloop with
        | worker hlt | processing hlt => exact absurd hlt ht
        | _ => rfl
    rw [hnone]
    refine .same ?_
    rintro r m rfl
    obtain ⟨w, i, -, rfl, -⟩ := popMessage_op h
    cases hi with
    | worker hlt | processing hlt => exact ht hlt

theorem StackOk.handling_step (hi : StackOk n p t (f :: rest))
    (h : Frame.step σ f c = some (op, fs)) :
    HandlerStep op (handling (f :: rest)) (handling (fs ++ rest)) := by
  obtain ⟨calls, loop, hstack, hcalls, hloop⟩ := hi.loop
  cases calls with
  | nil =>
    cases hstack
    rw [List.append_nil]
    exact hloop.handling_step h
  | cons g calls =>
    obtain ⟨rfl, rfl⟩ : f = g ∧ rest = calls ++ [loop] := List.cons.inj hstack
    have hpop : ∀ r m, op ≠ .popMessage r m := by
      rintro r m rfl
      obtain ⟨w, i, -, rfl, -⟩ := popMessage_op h
      cases hcalls _ List.mem_cons_self
    rw [← List.cons_append, handling_call (List.cons_ne_nil _ _), ← List.append_assoc]
    by_cases hnil : fs ++ calls = []
    · rw [hnil]
      cases loop.processing with
      | none => exact .same hpop
      | some r =>
        refine .finish fun r m => ⟨?_, hpop r m⟩
        rintro rfl
        rw [(pushMessage_op h).2] at hnil
        cases hnil
    · rw [handling_call hnil]
      exact .same hpop

-- ---------------------------------------------------------------------------
-- The actors behind the services
-- ---------------------------------------------------------------------------

/-- What the step is to the service that it is about, if all are actors: a
message is posted, or its handler starts or has come to its end. -/
def handlerEvents (s : State) (l : Label) (s' : State) :
    List (ActorEvent ServiceRef BaseMessage) :=
  match l.op with
  | .pushMessage r m => [.post r m]
  | .popMessage r m => [.start r m]
  | _ =>
    match handlerOf s l.thread, handlerOf s' l.thread with
    | some r, none => [.finish r]
    | _, _ => []

/-- The services of `K` are the actors. -/
def actorEvents (K : Set ServiceRef) [DecidablePred (· ∈ K)] (s : State) (l : Label) (s' : State) :
    List (ActorEvent ServiceRef BaseMessage) :=
  (handlerEvents s l s').filter (·.actor ∈ K)

/-- The step does not win the flag swap of a service of `K` while a worker holds
it. -/
def NoneHeld (K : Set ServiceRef) (s : State) (l : Label) : Prop := ∀ r ∈ K, Unheld r s l

structure Acts (K : Set ServiceRef) (s : State) (a : Actors ServiceRef BaseMessage) : Prop where
  mailbox : ∀ r ∈ K, a.mailbox r = (s.shared.services r).messageQueue
  current : ∀ r ∈ K, (a.current r).isSome ↔ ∃ t, handlerOf s t = some r

theorem holds_of_handler (h : handlerOf s t = some r) : Holds s t r := by
  obtain ⟨stack, ht, hr⟩ := Option.bind_eq_some_iff.mp h
  obtain ⟨f, hf, hr⟩ := Option.bind_eq_some_iff.mp hr
  refine ⟨stack, ht, f, List.mem_of_mem_tail (List.mem_of_getLast? hf), ?_⟩
  cases f with
  | worker w pc => cases pc <;> cases hr; simp [Frame.holding]
  | _ => cases hr

/-- With `Unheld`, the thread that holds a service is the one in its handler. -/
theorem Reach.one_handler {t : Nat} (h : system.Reach (NoneHeld K) (initial n p k) s)
    (hK : r ∈ K) (hs : Holds s t r) (hr : handlerOf s t' = some r) : t' = t := by
  have hheld := Reach.heldOk (h.mono fun _ _ hc => hc r hK)
  exact hheld.holder (holds_of_handler hr) hs

-- ---------------------------------------------------------------------------
-- The refinement
-- ---------------------------------------------------------------------------

section
variable {l : Label} {a : Actors ServiceRef BaseMessage}

theorem mailbox_same {op : Op} (h : Frame.step σ f c = some (op, fs)) (hr : RefsOk σ F)
    (hop : ∀ r m, op ≠ .pushMessage r m ∧ op ≠ .popMessage r m) (r : ServiceRef) :
    ((σ.apply op).services r).messageQueue = (σ.services r).messageQueue := by
  have hbox := mailbox_step h hr r
  have hpush : op.pushedTo r = [] :=
    List.eq_nil_iff_forall_not_mem.mpr fun m hm => (hop r m).1 (mem_pushedTo.mp hm)
  have hpop : op.poppedFrom r = [] := by
    cases op <;> first | rfl | exact absurd rfl (hop _ _).2
  rwa [hpush, hpop, List.append_nil, List.nil_append, eq_comm] at hbox

theorem handlerEvents_other (hop : ∀ r m, l.op ≠ .pushMessage r m ∧ l.op ≠ .popMessage r m) :
    handlerEvents s l s' = match handlerOf s l.thread, handlerOf s' l.thread with
      | some r, none => [.finish r]
      | _, _ => [] := by
  unfold handlerEvents
  split
  · rename_i r m heq
    exact absurd heq (hop r m).1
  · rename_i r m heq
    exact absurd heq (hop r m).2
  · rfl

theorem exists_handler_iff (hs : system.Step s l s') :
    (∃ t, handlerOf s' t = some r) ↔
      handlerOf s' l.thread = some r ∨ ∃ t ≠ l.thread, handlerOf s t = some r := by
  have hothers : ∀ t ≠ l.thread, handlerOf s' t = handlerOf s t := fun t ht => by
    rw [handlerOf, handlerOf, hs.stays (Ne.symm ht)]
  constructor
  · rintro ⟨t, ht⟩
    by_cases heq : t = l.thread
    · exact .inl (heq ▸ ht)
    · exact .inr ⟨t, heq, hothers t heq ▸ ht⟩
  · rintro (ht | ⟨t, heq, ht⟩)
    · exact ⟨_, ht⟩
    · exact ⟨t, (hothers t heq).trans ht⟩

/-- A thread that is in no handler of `r` may be left out. -/
theorem exists_handler_others (ht₀ : handlerOf s t₀ ≠ some r) :
    (∃ t ≠ t₀, handlerOf s t = some r) ↔ ∃ t, handlerOf s t = some r := by
  constructor
  · rintro ⟨t, -, ht⟩
    exact ⟨t, ht⟩
  · rintro ⟨t, ht⟩
    exact ⟨t, fun heq => ht₀ (heq ▸ ht), ht⟩

theorem exists_handler_same (hs : system.Step s l s')
    (heq : handlerOf s' l.thread = handlerOf s l.thread) :
    (∃ t, handlerOf s' t = some r) ↔ ∃ t, handlerOf s t = some r := by
  rw [exists_handler_iff hs, heq]
  constructor
  · rintro (ht | ⟨t, -, ht⟩)
    · exact ⟨_, ht⟩
    · exact ⟨t, ht⟩
  · rintro ⟨t, ht⟩
    by_cases htl : t = l.thread
    · exact .inl (htl ▸ ht)
    · exact .inr ⟨t, htl, ht⟩

theorem Acts.same (hi : Acts K s a)
    (hbox : ∀ r' ∈ K, (s'.shared.services r').messageQueue = (s.shared.services r').messageQueue)
    (hhandlers : ∀ r' ∈ K, (∃ t, handlerOf s' t = some r') ↔ ∃ t, handlerOf s t = some r') :
    Acts K s' a :=
  ⟨fun r hK => (hi.mailbox r hK).trans (hbox r hK).symm,
    fun r hK => (hi.current r hK).trans (hhandlers r hK).symm⟩

variable [DecidablePred (· ∈ K)]

theorem actorEvents_one {e : ActorEvent ServiceRef BaseMessage} (h : handlerEvents s l s' = [e])
    (hK : e.actor ∈ K) : actorEvents K s l s' = [e] := by
  simp [actorEvents, h, hK]

/-- A service that is no actor has no part in it. -/
theorem Acts.skip {e : ActorEvent ServiceRef BaseMessage} (hi : Acts K s a)
    (he : handlerEvents s l s' = [e]) (hK : e.actor ∉ K)
    (hbox : ∀ r' ≠ e.actor,
      (s'.shared.services r').messageQueue = (s.shared.services r').messageQueue)
    (hhandlers : ∀ r' ≠ e.actor,
      (∃ t, handlerOf s' t = some r') ↔ ∃ t, handlerOf s t = some r') :
    ∃ a', Drives Actors.Step a (actorEvents K s l s') a' ∧ Acts K s' a' := by
  have hne : ∀ r' ∈ K, r' ≠ e.actor := fun _ hr' heq => hK (heq ▸ hr')
  refine ⟨a, ?_, hi.same (fun r' hr' => hbox r' (hne r' hr'))
    fun r' hr' => hhandlers r' (hne r' hr')⟩
  have hnil : actorEvents K s l s' = [] := by simp [actorEvents, he, hK]
  rw [hnil]
  exact .refl

theorem Acts.post (hi : Acts K s a) (hop : l.op = .pushMessage r m)
    (hsh : s'.shared = s.shared.apply (.pushMessage r m))
    (hhandlers : ∀ r', (∃ t, handlerOf s' t = some r') ↔ ∃ t, handlerOf s t = some r') :
    ∃ a', Drives Actors.Step a (actorEvents K s l s') a' ∧ Acts K s' a' := by
  have he : handlerEvents s l s' = [.post r m] := by rw [handlerEvents, hop]
  by_cases hK : r ∈ K
  · rw [actorEvents_one he hK]
    refine ⟨_, .single .post, ⟨?_, fun r' hr' => (hi.current r' hr').trans (hhandlers r').symm⟩⟩
    intro r' hr'
    simp only [Function.update_apply, hsh, messageQueue_pushMessage, hi.mailbox r' hr']
    by_cases hr : r' = r
    · rw [if_pos hr, if_pos hr, hi.mailbox r hK]
    · rw [if_neg hr, if_neg hr]
  · refine hi.skip he hK (fun r' hne => ?_) fun r' _ => hhandlers r'
    rw [hsh, messageQueue_pushMessage]
    exact if_neg hne

theorem Acts.start (hi : Acts K s a) (hop : l.op = .popMessage r m)
    (hsh : s'.shared = s.shared.apply (.popMessage r m))
    (hq : (s.shared.services r).messageQueue = m :: box)
    (hnone : r ∈ K → ∀ t, handlerOf s t ≠ some r)
    (hhandlers : ∀ r', (∃ t, handlerOf s' t = some r') ↔ r' = r ∨ ∃ t, handlerOf s t = some r') :
    ∃ a', Drives Actors.Step a (actorEvents K s l s') a' ∧ Acts K s' a' := by
  have he : handlerEvents s l s' = [.start r m] := by rw [handlerEvents, hop]
  by_cases hK : r ∈ K
  · have hfree : a.current r = none := by
      refine Option.not_isSome_iff_eq_none.mp fun hsome => ?_
      obtain ⟨t, ht⟩ := (hi.current r hK).mp hsome
      exact hnone hK t ht
    rw [actorEvents_one he hK]
    refine ⟨_, .single (.start hfree ((hi.mailbox r hK).trans hq)), ⟨?_, ?_⟩⟩
    · intro r' hr'
      simp only [Function.update_apply, hsh, messageQueue_popMessage, hq, List.tail_cons,
        hi.mailbox r' hr']
    · intro r' hr'
      simp only [Function.update_apply, hhandlers]
      by_cases hr : r' = r
      · simp [hr]
      · simpa [hr] using hi.current r' hr'
  · refine hi.skip he hK (fun r' hne => ?_) fun r' hne => ?_
    · rw [hsh, messageQueue_popMessage]
      exact if_neg hne
    · rw [hhandlers]
      exact or_iff_right hne

theorem Acts.finish (hi : Acts K s a) (he : handlerEvents s l s' = [.finish r])
    (ht : handlerOf s t = some r)
    (hbox : ∀ r', (s'.shared.services r').messageQueue = (s.shared.services r').messageQueue)
    (hgone : r ∈ K → ∀ t, handlerOf s' t ≠ some r)
    (hhandlers : ∀ r' ≠ r, (∃ t, handlerOf s' t = some r') ↔ ∃ t, handlerOf s t = some r') :
    ∃ a', Drives Actors.Step a (actorEvents K s l s') a' ∧ Acts K s' a' := by
  by_cases hK : r ∈ K
  · obtain ⟨m, hm⟩ := Option.isSome_iff_exists.mp ((hi.current r hK).mpr ⟨t, ht⟩)
    rw [actorEvents_one he hK]
    refine ⟨_, .single (.finish hm), ⟨fun r' hr' => (hi.mailbox r' hr').trans (hbox r').symm, ?_⟩⟩
    intro r' hr'
    simp only [Function.update_apply]
    by_cases hr : r' = r
    · simpa [hr] using hgone hK
    · rw [if_neg hr, hi.current r' hr', hhandlers r' hr]
  · exact hi.skip he hK (fun r' _ => hbox r') hhandlers

theorem Acts.step (hi : Acts K s a) (h : system.Reach (NoneHeld K) (initial n p k) s)
    (hs : system.Step s l s') :
    ∃ a', Drives Actors.Step a (actorEvents K s l s') a' ∧ Acts K s' a' := by
  obtain ⟨rest, fs, ht, hm, ht', hsh⟩ := hs.moves
  have hrefs := Reach.refsOk h
  have hstep := (Reach.stackOk h ht).handling_step hm
  have hbefore := handlerOf_eq ht
  have hafter := handlerOf_eq ht'
  generalize handling (l.frame :: rest) = before at hstep hbefore
  generalize handling (fs ++ rest) = after at hstep hafter
  cases hstep with
  | @start r m hop =>
    rw [hop] at hm hsh
    obtain ⟨w, i, messages, hf, hq, -, -⟩ := popMessage_op hm
    refine hi.start hop hsh hq (fun hK t hr => ?_) fun r' => ?_
    · have hheld : Holds s l.thread r :=
        ⟨_, ht, _, List.mem_cons_self, by simp [hf, Frame.holding]⟩
      rw [Reach.one_handler h hK hheld hr, hbefore] at hr
      cases hr
    · have hfree : handlerOf s l.thread ≠ some r' := by simp [hbefore]
      rw [exists_handler_iff hs, exists_handler_others hfree, hafter, Option.some_inj, eq_comm]
  | @finish r hop =>
    have he : handlerEvents s l s' = [.finish r] := by
      rw [handlerEvents_other hop, hbefore, hafter]
    refine hi.finish he hbefore (fun r' => hsh ▸ mailbox_same hm hrefs hop r') (fun hK t hr => ?_)
      fun r' hne => ?_
    · rcases (exists_handler_iff hs).mp ⟨t, hr⟩ with hr | ⟨t, hne, hr⟩
      · rw [hafter] at hr
        cases hr
      · exact hne (Reach.one_handler h hK (holds_of_handler hbefore) hr)
    · have hother : handlerOf s l.thread ≠ some r' := by
        rw [hbefore]
        exact fun heq => hne (Option.some.inj heq).symm
      rw [exists_handler_iff hs, exists_handler_others hother, hafter]
      exact or_iff_right (by simp)
  | same hop =>
    have hhandlers := fun r' => exists_handler_same (r := r') hs (hafter.trans hbefore.symm)
    by_cases hpush : ∃ r m, l.op = .pushMessage r m
    · obtain ⟨r, m, hpush⟩ := hpush
      exact hi.post hpush (hsh.trans (by rw [hpush]; rfl)) hhandlers
    · have hno : ∀ r m, l.op ≠ .pushMessage r m ∧ l.op ≠ .popMessage r m :=
        fun r m => ⟨fun heq => hpush ⟨r, m, heq⟩, hop r m⟩
      have hnil : handlerEvents s l s' = [] := by
        rw [handlerEvents_other hno, hbefore, hafter]
        cases before <;> rfl
      refine ⟨a, ?_, hi.same (fun r' _ => hsh ▸ mailbox_same hm hrefs hno r')
        fun r' _ => hhandlers r'⟩
      rw [actorEvents, hnil]
      exact .refl

end

theorem handlerEvents_posted (s s' : State) (l : Label) (r : ServiceRef) :
    (handlerEvents s l s').flatMap (ActorEvent.posted r) = l.op.pushedTo r := by
  by_cases hpush : ∃ r' m, l.op = .pushMessage r' m
  · obtain ⟨r', m, hop⟩ := hpush
    rw [handlerEvents, hop]
    exact List.append_nil _
  · have hnil : l.op.pushedTo r = [] :=
      List.eq_nil_iff_forall_not_mem.mpr fun m hm => hpush ⟨r, m, mem_pushedTo.mp hm⟩
    rw [hnil, handlerEvents]
    split
    · rename_i r' m hop
      exact absurd ⟨r', m, hop⟩ hpush
    · rfl
    · split <;> rfl

theorem Acts.initial : Acts K (initial n p k) Actors.idle := by
  refine ⟨fun _ _ => rfl, fun r _ => ⟨nofun, ?_⟩⟩
  rintro ⟨t, ht⟩
  obtain ⟨stack, hst, ht⟩ := Option.bind_eq_some_iff.mp ht
  obtain ⟨loop, rfl, -⟩ := initial_stack hst
  cases ht

section
variable [DecidablePred (· ∈ K)]

theorem actorEvents_posted (hK : r ∈ K) (s s' : State) (l : Label) :
    (actorEvents K s l s').flatMap (ActorEvent.posted r) = l.op.pushedTo r := by
  rw [← handlerEvents_posted s s' l r, actorEvents]
  generalize handlerEvents s l s' = es
  induction es with
  | nil => rfl
  | cons e es ih =>
    by_cases he : e.actor ∈ K
    · simp [he, ih]
    · have hne : e.actor ≠ r := fun heq => he (heq ▸ hK)
      simp [he, ih, ActorEvent.posted_of_ne hne]

/-- The services of `K`, if none of these is queued while it is held, are actors
that the run drives: each handles one message at a time, those that were pushed
to it in the order of its lock. -/
theorem actors_refine (h : system.Exec (NoneHeld K) (initial n p k) tr s) :
    ∃ es a, system.Shows (NoneHeld K) (actorEvents K) (initial n p k) tr es s ∧
      Drives Actors.Step Actors.idle es a ∧
      ∀ r ∈ K, a.mailbox r = (s.shared.services r).messageQueue ∧
        ((a.current r).isSome ↔ ∃ t, handlerOf s t = some r) ∧
        pushedTo r tr = a.done r ++ (a.current r).toList ++ a.mailbox r := by
  obtain ⟨es, a, hshows, hdrives, hacts⟩ := h.refines (Acts K) (actorEvents K) .initial
    fun pre s₁ l s₂ a hpre _ hs hi => hi.step ⟨pre, hpre⟩ hs
  refine ⟨es, a, hshows, hdrives, fun r hK => ⟨hacts.mailbox r hK, hacts.current r hK, ?_⟩⟩
  rw [← Actors.served_in_order hdrives r,
    hshows.flatMap fun s l s' => actorEvents_posted hK s s' l]
  rfl

end

/-- Two workers; one of them is in the handler of the first of two messages. -/
theorem actors_refine_busy : ∃ (tr : List Label) (s : State) (a : Actors ServiceRef BaseMessage),
    system.Exec (Unheld 0) (initial 2 (fun i => 1 <<< i) 1) tr s ∧
    (∃ es, Drives Actors.Step Actors.idle es a) ∧ (a.current 0).isSome ∧ (a.mailbox 0).length = 1 ∧
    pushedTo 0 tr = a.done 0 ++ (a.current 0).toList ++ a.mailbox 0 := by
  have h : ((system.record (Unheld 0) (initial 2 (fun i => 1 <<< i) 1)
      (creates 4 ++ sends 4 0 5 ++ sends 4 0 3 ++ steps 0 3)).any fun r =>
        (r.2.shared.services 0).messageQueue.length = 1 ∧ handlerOf r.2 0 = some 0) = true := by
    decide +kernel
  obtain ⟨tr, s, hs, hlength, hhandler⟩ := Machine.exists_of_record h
  have hrun : system.Exec (NoneHeld {0}) (initial 2 (fun i => 1 <<< i) 1) tr s :=
    hs.mono fun _ _ hc r hr => hr ▸ hc
  obtain ⟨es, a, -, hdrives, hacts⟩ := actors_refine hrun
  obtain ⟨hbox, hcurrent, hpushed⟩ := hacts 0 rfl
  exact ⟨tr, s, a, hs, ⟨es, hdrives⟩, hcurrent.mpr ⟨0, hhandler⟩, by rw [hbox]; exact hlength,
    hpushed⟩

end XianNet
