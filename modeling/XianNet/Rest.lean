import XianNet.Drain
import XianNet.Progress
import XianNet.SocketThread

/-!
# Coming to rest

From wherever a run without a lost wake-up has got to, there is a way to rest:
the threads finish what they are in, and the workers that are awake then empty
the queue, so that no message is left behind (`comes_to_rest`). Nothing new is
asked for on the way.
-/

namespace XianNet

open Interleaving

variable {σ : Shared} {C : State → Label → Prop} {s s' : State} {p : Nat → Int} {f g : Frame}

-- ---------------------------------------------------------------------------
-- Wake-up tests in time
-- ---------------------------------------------------------------------------

theorem StackOk.worker_lt (hi : StackOk n p t stack) (hf : .worker w pc ∈ stack) : t < n := by
  obtain ⟨calls, loop, rfl, hcalls, hloop⟩ := hi.loop
  rcases List.mem_append.mp hf with hf | hf
  · exact absurd (hcalls _ hf) (by simp [Frame.isLoop])
  · rw [← List.mem_singleton.mp hf] at hloop
    cases hloop with
    | worker ht | processing ht => exact ht

theorem LoopOf.isLoop (hi : LoopOf n p t calls loop) : loop.isLoop := by
  cases hi <;> rfl

/-- A worker that sends is awake itself. -/
theorem timely_worker (h : system.Reach C (initial n p k) s) (hs : system.Step s l s')
    (hl : l.thread < n) : Timely s l := by
  intro hwake
  obtain ⟨rest, fs, ht, -, -⟩ := Machine.Step.eq hs
  obtain ⟨calls, loop, heq, -, hloop⟩ := (Reach.stackOk h ht).loop
  have hmem : loop ∈ s.frames := State.mem_frames.mpr ⟨_, _, ht, by rw [heq]; simp⟩
  cases calls with
  | nil =>
    have hself := hloop.isLoop
    rw [← (List.cons.inj heq).1] at hself
    cases hf : l.frame <;> rw [hf] at hwake hself <;> first | cases hwake | cases hself
  | cons g calls =>
    cases hloop with
    | processing =>
      refine .inl ⟨_, hmem, ?_⟩
      have hno : l.thread ∉ s.shared.waitSet := fun hw => by
        cases (Reach.sleepOk h).waiting _ _ hmem hw
      simp [Frame.awake, Frame.falling, hno]
    | socket ht => exact absurd hl (Nat.not_lt.mpr (Nat.le_of_eq ht.symm))
    | network hlt | caller hlt => exact absurd hl (Nat.lt_asymm hlt)

/-- Nobody is falling asleep when all workers are at their loops or asleep. -/
theorem timely_calm (h : system.Reach C (initial n p k) s) (hcalm : ∀ t < n, Calm t s) :
    Timely s l := by
  refine fun _ => .inr ?_
  intro f hf
  obtain ⟨t, stack, ht, hf⟩ := State.mem_frames.mp hf
  cases f with
  | worker w pc =>
    obtain ⟨f, ht', hcalm⟩ := hcalm t ((Reach.stackOk h ht).worker_lt hf)
    rw [ht] at ht'
    cases ht'
    rw [← List.mem_singleton.mp hf] at hcalm
    cases pc with
    | block b => cases b <;> first | rfl | cases hcalm
    | _ => rfl
  | _ => rfl

-- ---------------------------------------------------------------------------
-- Everybody back to the loop
-- ---------------------------------------------------------------------------

/-- In time, and with tags that name the class. -/
def Proper (s : State) (l : Label) : Prop := Timely s l ∧ Typed s l

instance (s : State) (l : Label) : Decidable (Proper s l) :=
  inferInstanceAs (Decidable (_ ∧ _))

theorem Lowers.typed (h : Lowers s l) : Typed s l := by
  intro hf
  have hcalm := h.calm
  rw [hf] at hcalm
  cases hcalm

/-- The functions that take work from outside. -/
def Frame.idle : Frame → Bool
  | .caller | .network | .socket .epollWait => true
  | _ => false

/-- The step takes nothing from outside but what the kernel has to give, is no
call that the program does not make, and creates no service. -/
structure Inside (s : State) (l : Label) : Prop where
  idle : l.frame.idle = false
  native : l.choice.isForeign = false
  granted : Granted s l
  creates : ∀ service, l.op ≠ .newService service

theorem Inside.typed (h : Inside s l) : Typed s l := by
  intro hf
  have hidle := h.idle
  rw [hf] at hidle
  cases hidle

theorem Lowers.inside (h : Lowers s l) (hs : system.Step s l s') : Inside s l := by
  obtain ⟨hcalm, hforeign, hgranted, hlower⟩ := h
  refine ⟨?_, hforeign, hgranted, ?_⟩
  · cases hf : l.frame with
    | caller | network => rw [hf] at hcalm; cases hcalm
    | socket pc =>
      rw [hf] at hcalm
      cases pc with
      | epollWait => cases hcalm
      | dispatch => rfl
    | _ => rfl
  · -- Who calls `NewService` goes on behind it.
    intro service hop
    obtain ⟨fs, R, hm, -, -, -⟩ := hs.frames
    have hlower := hlower _ hm
    rw [hop] at hm
    have hmem : l.frame ∈ (fs : Multiset Frame) ∧ 1 < fs.length := by
      rcases newService_op hm with ⟨_, _, -, rfl⟩ | ⟨_, _, -, rfl⟩ <;>
        simp [newScriptServiceFrames, newServiceFrames]
    rcases hlower with hlt | ⟨g, hone, -⟩
    · exact absurd (le_weigh hmem.1) (Nat.not_le.mpr hlt)
    · have hone : fs = [g] := hone
      rw [hone] at hmem
      exact absurd hmem.2 (Nat.lt_irrefl 1)

/-- No worker has the mutex. -/
def Free (s : State) : Prop := ∀ f ∈ s.frames, f.critical = false

theorem Free.but (h : Free s) : FreeBut t s :=
  fun _ _ _ ht' _ hf => h _ (State.mem_frames.mpr ⟨_, _, ht', hf⟩)

theorem critical_of_calm (h : f.calm) : f.critical = false := by
  cases f with
  | worker w pc =>
    cases pc with
    | block b => cases b <;> first | rfl | cases h
    | _ => rfl
  | _ => rfl

theorem FreeBut.free (h : FreeBut t s) (hcalm : Calm t s) : Free s := by
  intro f hf
  obtain ⟨t', stack, ht', hf⟩ := State.mem_frames.mp hf
  by_cases heq : t' = t
  · subst heq
    obtain ⟨g, ht, hcalm⟩ := hcalm
    rw [ht] at ht'
    cases ht'
    rw [List.mem_singleton.mp hf]
    exact critical_of_calm hcalm
  · exact h t' stack heq ht' f hf

/-- The steps towards rest, of thread `t`. -/
abbrev Settling (t : Nat) (s : State) (l : Label) : Prop := (Timely s l ∧ Lowers s l) ∧ l.thread = t

theorem Alone.settles (hi : Alone n p k t s) (hT : t < n ∨ ∀ t' < n, Calm t' s) :
    ∃ tr s', system.Exec (Settling t) s tr s' ∧ Calm t s' ∧ FreeBut t s' := by
  obtain ⟨tr, s', hrun, hcalm⟩ := hi.finishes
  refine ⟨tr, s', hrun.strengthen ?_, hcalm, ?_⟩
  · intro pre s₁ l s₂ hpre hc hs
    refine ⟨⟨?_, hc.1⟩, hc.2⟩
    have hreach : system.Reach Any (initial n p k) s₁ :=
      (hi.reached.mono fun _ _ _ => trivial).exec (hpre.mono fun _ _ _ => trivial)
    by_cases ht : t < n
    · exact timely_worker hreach hs (hc.2 ▸ ht)
    · refine timely_calm hreach ?_
      intro t' ht'
      obtain ⟨f, hf, hcalm⟩ := hT.resolve_left ht t' ht'
      exact ⟨f, (hpre.others_stay fun heq => ht (heq ▸ ht')).trans hf, hcalm⟩
  · intro t' stack hne ht'
    rw [hrun.others_stay hne] at ht'
    exact hi.free t' stack hne ht'

theorem Reach.freeBut (h : system.Reach C (initial n p k) s) (ht : s.threads[t]? = some stack)
    (hf : f ∈ stack) (hcrit : f.critical) : FreeBut t s := by
  intro t' stack' hne ht' g hg
  by_contra hg'
  rw [Bool.not_eq_false] at hg'
  have htwo := State.two_le_countP (Frame.critical · = true) ht ht' (Ne.symm hne) hf hcrit hg hg'
  have hi := Reach.mutexOk h
  have hle := s.shared.mutexLocked.toNat_le
  rw [MutexOk, weigh_toNat] at hi
  omega

/-- Whoever has the mutex goes first. -/
theorem Reach.exists_free (h : system.Reach Proper (initial n p k) s) :
    ∃ tr s', system.Exec (fun s l => Timely s l ∧ Lowers s l) s tr s' ∧ Free s' := by
  by_cases hfree : Free s
  · exact ⟨[], s, .refl s, hfree⟩
  · obtain ⟨f, hf, hcrit⟩ : ∃ f ∈ s.frames, f.critical := by simpa [Free] using hfree
    obtain ⟨t, stack, ht, hf⟩ := State.mem_frames.mp hf
    have hlt : t < n := by
      cases f with
      | worker => exact (Reach.stackOk h ht).worker_lt hf
      | _ => cases hcrit
    have halone : Alone n p k t s := ⟨h.mono fun _ _ hc => hc.2, Reach.freeBut h ht hf hcrit, _, ht⟩
    obtain ⟨tr, s', hrun, hcalm, hfree'⟩ := halone.settles (.inl hlt)
    exact ⟨tr, s', hrun.mono fun _ _ hc => hc.1, hfree'.free hcalm⟩

/-- Then the workers, one after the other, and then the rest. -/
theorem Reach.exists_calm (h : system.Reach Proper (initial n p k) s) (hfree : Free s)
    (hm : m ≤ s.threads.length) :
    ∃ tr s', system.Exec (fun s l => Timely s l ∧ Lowers s l) s tr s' ∧ Free s' ∧
      ∀ t < m, Calm t s' := by
  induction m with
  | zero => exact ⟨[], s, .refl s, hfree, nofun⟩
  | succ m ih =>
    obtain ⟨tr, s₁, hrun, hfree₁, hcalm₁⟩ := ih (Nat.le_of_succ_le hm)
    have hreach₁ : system.Reach Proper (initial n p k) s₁ :=
      h.exec (hrun.mono fun _ _ hc => ⟨hc.1, hc.2.typed⟩)
    have hlt : m < s₁.threads.length := by rw [hrun.length_threads]; exact hm
    have halone : Alone n p k m s₁ :=
      ⟨hreach₁.mono fun _ _ hc => hc.2, hfree₁.but, _, List.getElem?_eq_getElem hlt⟩
    have hT : m < n ∨ ∀ t < n, Calm t s₁ := by
      by_cases hmn : m < n
      · exact .inl hmn
      · exact .inr fun t ht => hcalm₁ t (ht.trans_le (Nat.not_lt.mp hmn))
    obtain ⟨tr', s', hrun', hcalm, hfree'⟩ := halone.settles hT
    refine ⟨tr ++ tr', s', hrun.trans (hrun'.mono fun _ _ hc => hc.1), hfree'.free hcalm, ?_⟩
    intro t ht
    by_cases htm : t = m
    · exact htm ▸ hcalm
    · obtain ⟨f, hf, hcalm⟩ := hcalm₁ t (by omega)
      exact ⟨f, (hrun'.others_stay htm).trans hf, hcalm⟩

/-- Every thread is at its loop, or asleep. -/
def AtRest (s : State) : Prop := ∀ t < s.threads.length, Calm t s

theorem Reach.exists_atRest (h : system.Reach Proper (initial n p k) s) :
    ∃ tr s', system.Exec (fun s l => Timely s l ∧ Lowers s l) s tr s' ∧ AtRest s' := by
  obtain ⟨tr, s₁, hrun, hfree⟩ := Reach.exists_free h
  have hreach : system.Reach Proper (initial n p k) s₁ :=
    h.exec (hrun.mono fun _ _ hc => ⟨hc.1, hc.2.typed⟩)
  obtain ⟨tr', s', hrun', -, hcalm⟩ := Reach.exists_calm hreach hfree (Nat.le_refl _)
  refine ⟨tr ++ tr', s', hrun.trans hrun', ?_⟩
  intro t ht
  rw [hrun'.length_threads] at ht
  exact hcalm t ht

-- ---------------------------------------------------------------------------
-- One round
-- ---------------------------------------------------------------------------

theorem AtRest.top {t : Nat} {stack : List Frame} (h : AtRest s) (ht : s.threads[t]? = some stack) :
    ∃ f, stack = [f] ∧ f.calm := by
  obtain ⟨f, hf, hcalm⟩ := h t (List.getElem?_eq_some_iff.mp ht).1
  rw [ht] at hf
  exact ⟨f, Option.some.inj hf, hcalm⟩

theorem AtRest.calm (h : AtRest s) (hf : f ∈ s.frames) : f.calm := by
  obtain ⟨t, stack, ht, hf⟩ := State.mem_frames.mp hf
  obtain ⟨g, rfl, hcalm⟩ := h.top ht
  rwa [List.mem_singleton.mp hf]

theorem notSend_of_calm (h : f.calm) : f.isSend = false := by
  cases f <;> first | rfl | cases h

/-- On the way to rest only the socket worker still calls `SendMessage`. -/
theorem sends_of_lower (h : Frame.step σ f c = some (op, fs)) (hf : f.calm = false)
    (hlower : system.Lowers Frame.rank Frame.size σ f op fs) (hg : g ∈ fs) (hsend : g.isSend) :
    f.isSend ∨ f.isSocketWorker := by
  have hcall := (routine_step h g hg).1
  cases g with
  | send pc =>
    cases f with
    | caller => cases hf
    | send => exact .inl rfl
    | socket | accept => exact .inr rfl
    | script =>
      rcases hlower with hlt | ⟨g, -, -, hlt⟩
      · obtain ⟨gs, hs, rfl⟩ := List.append_of_mem hg
        have hpos := pc.rank_pos
        simp only [← Multiset.coe_add, weigh_add, weigh_coe_cons, Frame.rank] at hlt
        omega
      · cases hlt
    | _ => simp [Frame.routine, Routine.calls] at hcall
  | _ => cases hsend

/-- The steps of thread `t` inside that start no `SendMessage`. -/
abbrev Inward (t : Nat) (s : State) (l : Label) : Prop := (NoSend s l ∧ Inside s l) ∧ l.thread = t

theorem Settling.inward (h : system.Reach Any (initial n p k) s) (ht : t < n)
    (hs : ∀ f ∈ s.frames, f.isSend = false) (hrun : system.Exec (Settling t) s tr s') :
    system.Exec (Inward t) s tr s' ∧ ∀ f ∈ s'.frames, f.isSend = false := by
  induction hrun with
  | refl => exact ⟨.refl _, hs⟩
  | @step tr s₁ l s₂ hpre hc hl ih =>
    obtain ⟨hexec, hs₁⟩ := ih
    have hreach := h.exec (hpre.mono fun _ _ _ => trivial)
    have hno : NoSend s₁ l := by
      intro r hr g hg
      by_contra hsend
      rw [Bool.not_eq_false] at hsend
      obtain ⟨rest, fs, htop, hm, -⟩ := Machine.Step.eq hl
      have hmem : l.frame ∈ s₁.frames := State.mem_frames.mpr ⟨_, _, htop, List.mem_cons_self⟩
      rcases sends_of_lower hr hc.1.2.calm (hc.1.2.lowers r hr) hg hsend with hf | hf
      · rw [hs₁ _ hmem] at hf
        cases hf
      · have hn := (Reach.socketThread hreach).eq_of_holds ⟨_, htop, List.mem_cons_self⟩ hf
        rw [hc.2] at hn
        omega
    have hexec' := hexec.step ⟨⟨hno, hc.1.2.inside hl⟩, hc.2⟩ hl
    exact ⟨hexec', NoSend.frames (hexec'.mono fun _ _ hc => hc.1.1) hs⟩

/-- A worker that goes on at its own loop. -/
theorem inward_worker (hm : Frame.step s.shared (.worker w pc) .go = some (op, [.worker w pc'])) :
    Inward t s ⟨t, .worker w pc, .go, op⟩ := by
  refine ⟨⟨?_, rfl, rfl, ⟨nofun, nofun⟩, ?_⟩, rfl⟩
  · intro r hr
    cases Option.some.inj (hm.symm.trans hr)
    exact List.forall_mem_singleton.mpr rfl
  · rintro service rfl
    rcases newService_op hm with ⟨_, _, -, hfs⟩ | ⟨_, _, -, hfs⟩ <;>
      simp [newScriptServiceFrames, newServiceFrames] at hfs

theorem potential_noSend (hp : ∀ i < n, 1 ≤ p i) (h : system.Reach Any (initial n p k) s)
    (hs : ∀ f ∈ s.frames, f.isSend = false) (hrun : system.Exec NoSend s tr s') :
    tr.countP (·.op.isPopGlobal) + potential s' ≤ potential s :=
  hrun.countP_le fun _ _ _ _ hpre _ hstep =>
    potential_step hp (h.exec (hpre.mono fun _ _ _ => trivial)) (NoSend.frames hpre hs) hstep

theorem AtRest.freeBut (h : AtRest s) : FreeBut t s :=
  fun _ _ _ ht' _ hf => critical_of_calm (h.calm (State.mem_frames.mpr ⟨_, _, ht', hf⟩))

theorem AtRest.exec (h : AtRest s) (hrun : system.Exec (fun s l => C s l ∧ l.thread = t) s tr s')
    (hcalm : Calm t s') : AtRest s' := by
  intro t' ht'
  by_cases heq : t' = t
  · exact heq ▸ hcalm
  · rw [hrun.length_threads] at ht'
    obtain ⟨f, hf, hcalm⟩ := h t' ht'
    exact ⟨f, (hrun.others_stay heq).trans hf, hcalm⟩

/-- A worker that a signal took out of the wait set comes back to its loop. -/
theorem AtRest.wakes (h : system.Reach C (initial n p k) s) (hrest : AtRest s)
    (ht : s.threads[t]? = some [.worker w (.block .waiting)]) (hw : w.id ∉ s.shared.waitSet) :
    ∃ tr s', system.Exec (Inward t) s tr s' ∧ s'.threads[t]? = some [.worker w .popFront] ∧
      s'.shared.globalServiceQueue = s.shared.globalServiceQueue := by
  have hfree := Reach.unlocked h hrest.freeBut ht rfl
  have hlock : Frame.step s.shared (.worker w (.block .waiting)) .go =
      some (.lockMutex, [.worker w (.block .decrement)]) := by
    simp [Frame.step, WorkerPc.step, BlockPc.step, hw, hfree]
  have hdecrement : ∀ σ, Frame.step σ (.worker w (.block .decrement)) .go =
      some (.decrementSleep, [.worker w (.block .unlock)]) := fun _ => rfl
  have hunlock : ∀ σ, Frame.step σ (.worker w (.block .unlock)) .go =
      some (.unlockMutex, [.worker w .popFront]) := fun _ => rfl
  obtain ⟨s₁, hs₁, hsh₁, ht₁⟩ := Machine.exists_step (M := system) ht hlock
  obtain ⟨s₂, hs₂, hsh₂, ht₂⟩ := Machine.exists_step (M := system) ht₁ (hdecrement s₁.shared)
  obtain ⟨s₃, hs₃, hsh₃, ht₃⟩ := Machine.exists_step (M := system) ht₂ (hunlock s₂.shared)
  refine ⟨_, s₃, ((Machine.Exec.single (inward_worker hlock) hs₁).step
    (inward_worker (hdecrement s₁.shared)) hs₂).step (inward_worker (hunlock s₂.shared)) hs₃,
    ht₃, ?_⟩
  rw [hsh₃, hsh₂, hsh₁]
  rfl

/-- Whatever a worker does alone is in time. -/
theorem Inward.proper (h : system.Reach Any (initial n p k) s) (ht : t < n)
    (hrun : system.Exec (Inward t) s tr s') :
    system.Exec (fun s l => Proper s l ∧ Inside s l) s tr s' := by
  refine hrun.strengthen fun pre s₁ l s₂ hpre hc hs => ?_
  have hreach := h.exec (hpre.mono fun _ _ _ => trivial)
  exact ⟨⟨timely_worker hreach hs (hc.2 ▸ ht), hc.1.2.typed⟩, hc.1.2⟩

/-- While the queue is not empty some worker is awake, and takes a round. -/
theorem AtRest.round (hn : 0 < n) (hp : ∀ i < n, 1 ≤ p i)
    (h : system.Reach Proper (initial n p k) s) (hrest : AtRest s)
    (hq : s.shared.globalServiceQueue ≠ []) :
    ∃ tr s', system.Exec (fun s l => Proper s l ∧ Inside s l) s tr s' ∧ AtRest s' ∧
      potential s' < potential s := by
  have hany : system.Reach Any (initial n p k) s := h.mono fun _ _ _ => trivial
  obtain ⟨f, hf, hattends⟩ := Reach.attended_timely hn (h.mono fun _ _ hc => hc.1) hq
  obtain ⟨t, stack, ht, hf⟩ := State.mem_frames.mp hf
  obtain ⟨g, rfl, hcalm⟩ := hrest.top ht
  obtain rfl := List.mem_singleton.mp hf
  obtain ⟨w, pc, rfl, hw⟩ : ∃ w pc, f = .worker w pc ∧ w.id ∉ s.shared.waitSet := by
    rcases hattends with ha | ha
    · cases f with
      | worker w pc =>
        simp only [Frame.awake, Bool.and_eq_true, decide_eq_true_eq] at ha
        exact ⟨w, pc, rfl, ha.1⟩
      | _ => cases ha
    · cases f with
      | send => cases hcalm
      | _ => cases ha
  have htn := (Reach.stackOk h ht).worker_lt (List.mem_singleton_self _)
  obtain ⟨tr₁, s₁, hrun₁, ht₁, hq₁⟩ : ∃ tr s₁, system.Exec (Inward t) s tr s₁ ∧
      s₁.threads[t]? = some [.worker w .popFront] ∧
      s₁.shared.globalServiceQueue = s.shared.globalServiceQueue := by
    cases pc with
    | popFront => exact ⟨[], s, .refl s, ht, rfl⟩
    | block b =>
      cases b with
      | waiting => exact hrest.wakes h ht hw
      | _ => cases hcalm
    | _ => cases hcalm
  obtain ⟨r, queue, hcons⟩ := List.exists_cons_of_ne_nil (hq₁ ▸ hq)
  have hpop : Frame.step s₁.shared (.worker w .popFront) .go =
      some (.popGlobal r, [.worker w (.clearFlag r)]) := by
    simp [Frame.step, WorkerPc.step, hcons, SpinlockQueue.popFront]
  obtain ⟨s₂, hs₂, -, ht₂⟩ := Machine.exists_step (M := system) ht₁ hpop
  have hrun₂ := hrun₁.step (inward_worker hpop) hs₂
  have hsend : ∀ f ∈ s.frames, f.isSend = false := fun f hf => notSend_of_calm (hrest.calm hf)
  have hsend₂ := NoSend.frames (hrun₂.mono fun _ _ hc => hc.1.1) hsend
  have hany₂ := hany.exec (hrun₂.mono fun _ _ _ => trivial)
  have halone : Alone n p k t s₂ := by
    refine ⟨?_, ?_, _, ht₂⟩
    · exact (h.mono fun _ _ hc => hc.2).exec
        ((Inward.proper hany htn hrun₂).mono fun _ _ hc => hc.1.2)
    · intro t' stack hne ht'
      rw [hrun₂.others_stay hne] at ht'
      exact hrest.freeBut t' stack hne ht'
  obtain ⟨tr₃, s', hrun₃, hcalm', -⟩ := halone.settles (.inl htn)
  have hrun := hrun₂.trans (Settling.inward hany₂ htn hsend₂ hrun₃).1
  refine ⟨_, s', Inward.proper hany htn hrun, hrest.exec hrun hcalm', ?_⟩
  have hle := potential_noSend hp hany hsend (hrun.mono fun _ _ hc => hc.1.1)
  simp only [List.countP_append, List.countP_singleton, Op.isPopGlobal] at hle
  simp only [↓reduceIte] at hle
  omega

theorem AtRest.drains (hn : 0 < n) (hp : ∀ i < n, 1 ≤ p i)
    (h : system.Reach Proper (initial n p k) s) (hrest : AtRest s) :
    ∃ tr s', system.Exec (fun s l => Proper s l ∧ Inside s l) s tr s' ∧ AtRest s' ∧
      s'.shared.globalServiceQueue = [] := by
  induction hpot : potential s using Nat.strong_induction_on generalizing s with
  | _ m ih =>
    by_cases hq : s.shared.globalServiceQueue = []
    · exact ⟨[], s, .refl s, hrest, hq⟩
    · obtain ⟨tr, s₁, hrun, hrest₁, hlt⟩ := hrest.round hn hp h hq
      obtain ⟨tr', s', hrun', hend⟩ :=
        ih _ (hpot ▸ hlt) (h.exec (hrun.mono fun _ _ hc => hc.1)) hrest₁ rfl
      exact ⟨tr ++ tr', s', hrun.trans hrun', hend⟩

-- ---------------------------------------------------------------------------
-- Rest
-- ---------------------------------------------------------------------------

theorem midRound_of_calm (h : f.calm) : f.midRound = false := by
  cases f with
  | worker w pc =>
    cases pc with
    | popFront | block => rfl
    | _ => cases h
  | _ => rfl

theorem Reach.rests (hn : 0 < n) (hp : ∀ i < n, 1 ≤ p i)
    (h : system.Reach Proper (initial n p k) s) :
    ∃ tr s', system.Exec (fun s l => Proper s l ∧ Inside s l) s tr s' ∧ AtRest s' ∧
      s'.shared.globalServiceQueue = [] := by
  obtain ⟨tr, s₁, hrun, hrest₁⟩ := Reach.exists_atRest h
  have hproper : system.Exec (fun s l => Proper s l ∧ Inside s l) s tr s₁ :=
    hrun.strengthen fun _ _ _ _ _ hc hs => ⟨⟨hc.1, hc.2.typed⟩, hc.2.inside hs⟩
  have hreach₁ := h.exec (hproper.mono fun _ _ hc => hc.1)
  obtain ⟨tr', s', hrun', hend⟩ := hrest₁.drains hn hp hreach₁
  exact ⟨tr ++ tr', s', hproper.trans hrun', hend⟩

/-- With nobody on the way and the queue empty, no message is left. -/
theorem AtRest.owes (hrest : AtRest s) : ∀ f ∈ s.frames, ∀ r, ¬ f.owes r := fun _ hf _ =>
  not_owes (notSend_of_calm (hrest.calm hf)) (midRound_of_calm (hrest.calm hf))

theorem AtRest.mailbox (hrest : AtRest s) (h : system.Reach Any (initial n p k) s)
    (hq : s.shared.globalServiceQueue = []) (he : (s.shared.services r).isExisting = false) :
    (s.shared.services r).messageQueue = [] := by
  by_contra hne
  rcases Reach.pending h r ⟨he, hne⟩ with hm | ⟨f, hf, ho⟩
  · rw [hq] at hm; cases hm
  · exact hrest.owes f hf r ho

/-- As long as no wake-up was lost, no message is: from every state there is a
run, in which nobody asks for anything new and the kernel gives what it has,
that leaves every thread at its loop or asleep, no service queued and no message
behind. -/
theorem comes_to_rest (hn : 0 < n) (hp : ∀ i < n, 1 ≤ p i)
    (h : system.Reach Proper (initial n p k) s) :
    ∃ tr s', system.Exec (fun s l => Timely s l ∧ l.frame.idle = false ∧ Granted s l) s tr s' ∧
      AtRest s' ∧ s'.shared.globalServiceQueue = [] ∧
      (∀ r, (s'.shared.services r).isExisting = false →
        (s'.shared.services r).messageQueue = []) ∧
      ∀ r, (s'.shared.services r).isInGlobalQueue = false := by
  obtain ⟨tr, s', hrun, hrest, hq⟩ := Reach.rests hn hp h
  have hreach := h.exec (hrun.mono fun _ _ hc => hc.1)
  refine ⟨tr, s', hrun.mono fun _ _ hc => ⟨hc.1.1, hc.2.idle, hc.2.granted⟩, hrest, hq, fun r he =>
    hrest.mailbox (hreach.mono fun _ _ _ => trivial) hq he, fun r => ?_⟩
  have ht := Reach.tokensOk hreach r
  rw [hq, weigh_eq_zero fun f hf => by_contra fun hne => hrest.owes f hf r (owes_of_token hne)] at ht
  cases hflag : (s'.shared.services r).isInGlobalQueue
  · rfl
  · rw [hflag] at ht; cases ht

/-- A message is in the mailbox, its service in the queue and the worker asleep,
and the sender has not made its test yet. -/
theorem comes_to_rest_queued : ∃ s, system.Reach Proper (initial 1 (fun i => 1 <<< i) 1) s ∧
    s.shared.globalServiceQueue = [0] ∧ s.shared.waitSet = [0] ∧
    ∃ tr s', system.Exec (fun s l => Timely s l ∧ l.frame.idle = false ∧ Granted s l) s tr s' ∧
      AtRest s' ∧ s'.shared.globalServiceQueue = [] ∧
      (s'.shared.services 0).isInGlobalQueue = false := by
  have h : ((system.run Proper (initial 1 (fun i => 1 <<< i) 1)
      (steps 0 4 ++ creates 3 ++ sends 3 0 4)).any fun s =>
        s.shared.globalServiceQueue = [0] ∧ s.shared.waitSet = [0]) = true := by decide +kernel
  obtain ⟨s, hs, hq, hw⟩ := Machine.exists_of_run h
  obtain ⟨tr, s', hrun, hrest, hq', -, hflag⟩ :=
    comes_to_rest (by decide) (fun i hi => by simp [Nat.lt_one_iff.mp hi]) hs
  exact ⟨s, hs, hq, hw, tr, s', hrun, hrest, hq', hflag 0⟩

end XianNet
