import XianNet.Interleaving.Rules
import XianNet.Workers

/-!
# Lost wake-ups

No lock covers the empty `Pop` that sends a worker to sleep and the wait
itself, and the sender reads `sleep_count_` without one. `stalled` is the run
the comment in `CheckAndWeakUpWorker` accepts: a push falls between the two,
and every worker sleeps over a queued service. A test that wakes nobody while
nobody is awake is the only way to get there (`not_stalled_of_heard`), and such
a test was under way between the two.
-/

namespace XianNet

open Interleaving

variable {σ : Shared} {C : State → Label → Prop} {s : State} {p : Nat → Int}

/-- Between an empty `Pop` and the wait set. -/
def Frame.falling : Frame → Bool
  | .worker _ (.block .lock) | .worker _ (.block .increment) | .worker _ (.block .wait) => true
  | _ => false

/-- A worker that neither sleeps nor is on its way to it. -/
def Frame.awake (σ : Shared) : Frame → Bool
  | .worker w pc => w.id ∉ σ.waitSet && !(Frame.worker w pc).falling
  | _ => false

def Frame.isWakeUp : Frame → Bool
  | .send (.wakeUp _) => true
  | _ => false

/-- A service is queued, every worker waits with no wake-up on its way, and no
thread is in `SendMessage`. -/
def Stalled (n : Nat) (s : State) : Prop :=
  s.shared.globalServiceQueue ≠ [] ∧ (∀ i < n, i ∈ s.shared.waitSet) ∧
    ∀ f ∈ s.frames, f.isSend = false

instance (n : Nat) (s : State) : Decidable (Stalled n s) :=
  inferInstanceAs (Decidable (_ ∧ _ ∧ _))

/-- The step is not one of `CheckAndWeakUpWorker` while some worker is falling
asleep and none is awake. -/
def Timely (s : State) (l : Label) : Prop :=
  l.frame.isWakeUp → (∃ f ∈ s.frames, f.awake s.shared) ∨ ∀ f ∈ s.frames, f.falling = false

instance (s : State) (l : Label) : Decidable (Timely s l) :=
  have : Decidable (∃ f ∈ s.frames, Frame.awake s.shared f = true) :=
    Multiset.decidableExistsMultiset
  inferInstanceAs (Decidable (_ → _ ∨ _))

/-- `CheckAndWeakUpWorker` returns here, and wakes nobody. -/
def Frame.misses (σ : Shared) : Frame → Bool
  | .send (.wakeUp .testSleeping) => σ.sleepCount = 0
  | .send (.wakeUp (.compareSize awake)) => σ.globalServiceQueue.length < awake
  | .send (.wakeUp .signal) => σ.waitSet = []
  | _ => false

/-- A test that wakes nobody leaves an awake worker, an empty queue or another
test behind. -/
def Heard (s : State) (l : Label) : Prop :=
  l.frame.misses s.shared → (∃ f ∈ s.frames, f.awake s.shared) ∨
    s.shared.globalServiceQueue = [] ∨ 1 < s.frames.countP (·.isWakeUp)

instance (s : State) (l : Label) : Decidable (Heard s l) :=
  have : Decidable (∃ f ∈ s.frames, Frame.awake s.shared f = true) :=
    Multiset.decidableExistsMultiset
  inferInstanceAs (Decidable (_ → _ ∨ _ ∨ _))

-- ---------------------------------------------------------------------------
-- Everybody asleep
-- ---------------------------------------------------------------------------

section
variable {F : Multiset Frame}

theorem SleepOk.all_waiting (hi : SleepOk n p σ F) (ha : ∀ f ∈ F, f.awake σ = false)
    (hf : ∀ f ∈ F, f.falling = false) (hm : .worker w pc ∈ F) :
    w.id ∈ σ.waitSet ∧ pc = .block .waiting := by
  have hw : w.id ∈ σ.waitSet := by
    by_contra hno
    have hawake := ha _ hm
    simp [Frame.awake, hno, hf _ hm] at hawake
  exact ⟨hw, hi.waiting w pc hm hw⟩

theorem SleepOk.sleepCount_eq (hi : SleepOk n p σ F)
    (h : ∀ w pc, .worker w pc ∈ F → pc = .block .waiting) : σ.sleepCount = n := by
  have hcard := congrArg Multiset.card hi.workers
  rw [card_filterMap, Multiset.card_map, Multiset.card_range] at hcard
  rw [hi.sleepCount, ← hcard]
  refine congrArg Nat.cast (weigh_congr ?_)
  intro f hf
  cases f with
  | worker w pc => rw [h w pc hf]; rfl
  | _ => rfl

end

-- ---------------------------------------------------------------------------
-- Who will find the queue
-- ---------------------------------------------------------------------------

/-- A wake-up test that will signal, if nobody is awake to make it needless. -/
def Frame.willWake : Frame → Bool
  | .send (.wakeUp (.compareSize d)) => d ≤ 0
  | .send (.wakeUp _) => true
  | _ => false

theorem isWakeUp_of_willWake {f : Frame} (h : f.willWake) : f.isWakeUp := by
  cases f with
  | send pc =>
    cases pc with
    | wakeUp => rfl
    | _ => cases h
  | _ => cases h

/-- The worker is awake, or the test is one that counts. -/
def Frame.attends (counts : Frame → Bool) (σ : Shared) (f : Frame) : Prop :=
  f.awake σ = true ∨ counts f = true

section
variable {R : Multiset Frame} {counts : Frame → Bool}

theorem attends_apply (hi : SleepOk n p σ (f ::ₘ R)) (h : Frame.step σ f c = some (op, fs))
    (hg : g ∈ R) (ha : g.attends counts σ) : g.attends counts (σ.apply op) := by
  rcases ha with ha | ha
  · cases g with
    | worker w pc =>
      refine .inl ?_
      simp only [Frame.awake, Bool.and_eq_true, decide_eq_true_eq] at ha ⊢
      refine ⟨?_, ha.2⟩
      intro hm
      rcases mem_waitSet_apply hm with hold | rfl
      · exact ha.1 hold
      · obtain ⟨w', rfl, hid⟩ := step_joinWaitSet h
        exact hi.ne hg hid
    | _ => cases ha
  · exact .inr ha

/-- Somebody attends after the step, or nobody is needed who was not before. -/
def Attended (counts : Frame → Bool) (σ : Shared) (f : Frame) (op : Op) (fs : List Frame)
    (R : Multiset Frame) : Prop :=
  (∃ g ∈ (fs : Multiset Frame) + R, g.attends counts (σ.apply op)) ∨
    (σ.globalServiceQueue ≠ [] ∧ ¬ f.attends counts σ)

theorem Attended.here (hg : g ∈ fs) (hc : counts g) : Attended counts σ f op fs R :=
  .inl ⟨g, Multiset.mem_add.mpr (.inl hg), .inr hc⟩

/-- A worker that moved, and not towards sleep, is awake. -/
theorem attends_worker (hi : SleepOk n p σ (.worker w pc ::ₘ R)) (h : pc.step σ w = some (op, fs))
    (hop : ∀ i, op ≠ .joinWaitSet i) (hg : .worker w pc' ∈ fs)
    (hf : (Frame.worker w pc').falling = false) : Attended counts σ f op fs R := by
  have hno := notMem_waitSet_of_step (hi.waiting _ _ (Multiset.mem_cons_self _ _)) h
  refine .inl ⟨_, Multiset.mem_add.mpr (.inl hg), .inl ?_⟩
  simp only [Frame.awake, hf, Bool.not_false, Bool.and_true, decide_eq_true_eq]
  intro hm
  rcases mem_waitSet_apply hm with hold | hjoin
  · exact hno hold
  · exact hop _ hjoin

theorem attended_worker (hcounts : ∀ f, counts f → f.isWakeUp)
    (hi : SleepOk n p σ (.worker w pc ::ₘ R)) (h : pc.step σ w = some (op, fs))
    (hq : (σ.apply op).globalServiceQueue ≠ []) : Attended counts σ (.worker w pc) op fs R := by
  cases WorkerPc.step_cases h with
  | popNull hnil => exact absurd hnil hq
  | popMessage =>
    exact attends_worker hi h (fun _ hop => nomatch hop)
      (List.mem_cons_of_mem _ (List.mem_singleton_self _)) rfl
  | block hp =>
    cases hp with
    | lock | increment | wait =>
      refine .inr ⟨hq, ?_⟩
      rintro (ha | hc)
      · simp [Frame.awake, Frame.falling] at ha
      · cases hcounts _ hc
    | waiting | decrement | unlock =>
      exact attends_worker hi h (fun _ hop => nomatch hop) (List.mem_singleton_self _) rfl
  | _ => exact attends_worker hi h (fun _ hop => nomatch hop) (List.mem_singleton_self _) rfl

theorem attended_step (hcounts : ∀ f, counts f → f.isWakeUp) (hi : SleepOk n p σ (f ::ₘ R))
    (hr : RefsOk σ (f ::ₘ R)) (h : Frame.step σ f c = some (op, fs))
    (hq : (σ.apply op).globalServiceQueue ≠ [])
    (hsend : ∀ pc, f = .send pc → Attended counts σ f op fs R) : Attended counts σ f op fs R := by
  cases f with
  | worker w pc => exact attended_worker hcounts hi h hq
  | send pc => exact hsend pc rfl
  | _ =>
    have hs := (step_other rfl h).same hr
    refine .inr ⟨hs.queue ▸ hq, ?_⟩
    rintro (ha | hc)
    · cases ha
    · cases hcounts _ hc

/-- Either somebody is awake, or all workers are in the wait set. -/
theorem SleepOk.awake_or_waiting (hi : SleepOk n p σ F)
    (hT : (∃ f ∈ F, Frame.awake σ f) ∨ ∀ f ∈ F, Frame.falling f = false) :
    (∃ f ∈ F, Frame.awake σ f) ∨ ((∀ i < n, i ∈ σ.waitSet) ∧ σ.sleepCount = n) := by
  by_cases hex : ∃ f ∈ F, Frame.awake σ f
  · exact .inl hex
  · have ha : ∀ f ∈ F, Frame.awake σ f = false := fun f hf => by
      by_contra hne
      exact hex ⟨f, hf, by simpa using hne⟩
    have hf := hT.resolve_left hex
    refine .inr ⟨?_, hi.sleepCount_eq fun w pc hm => (hi.all_waiting ha hf hm).2⟩
    intro i hlt
    obtain ⟨pc, hm⟩ := hi.exists_worker hlt
    exact (hi.all_waiting ha hf hm).1

/-- The worker that the signal takes out of the wait set is awake. -/
theorem attended_woken (hi : SleepOk n p σ (.send pc ::ₘ R)) (hw : w ∈ σ.waitSet) :
    Attended counts σ f (.signal (some w)) fs R := by
  obtain ⟨pc, hm⟩ := hi.exists_worker (hi.waiters.2 w hw)
  cases hi.waiting _ _ hm hw
  have hmR := (Multiset.mem_cons.mp hm).resolve_left (fun heq => nomatch heq)
  refine .inl ⟨_, Multiset.mem_add.mpr (.inr hmR), .inl ?_⟩
  simp [Frame.awake, Frame.falling, Shared.apply, hi.waiters.1.mem_erase_iff]

/-- Whoever is awake besides the sender stays so. -/
theorem attended_awake (hi : SleepOk n p σ (.send pc ::ₘ R))
    (h : Frame.step σ (.send pc) c = some (op, fs)) (ha : ∃ g ∈ .send pc ::ₘ R, g.awake σ) :
    Attended counts σ f op fs R := by
  obtain ⟨g, hg, ha⟩ := ha
  rcases Multiset.mem_cons.mp hg with rfl | hg
  · cases ha
  · exact .inl ⟨g, Multiset.mem_add.mpr (.inr hg), attends_apply hi h hg (.inl ha)⟩

theorem not_attends_send {pc : SendPc} (h : counts (.send pc) = false) :
    ¬ (Frame.send pc).attends counts σ := by
  rintro (ha | hc)
  · cases ha
  · rw [h] at hc
    cases hc

theorem attended_timely (hn : 0 < n) (hi : SleepOk n p σ (.send pc ::ₘ R))
    (hT : (Frame.send pc).isWakeUp → (∃ f ∈ .send pc ::ₘ R, f.awake σ) ∨
      ∀ f ∈ .send pc ::ₘ R, f.falling = false)
    (h : pc.step σ c = some (op, fs)) (hq : (σ.apply op).globalServiceQueue ≠ []) :
    Attended Frame.willWake σ (.send pc) op fs R := by
  cases SendPc.step_cases h with
  | push => exact .here (List.mem_singleton_self _) rfl
  | @wakeUp wp op next hp =>
    rcases hi.awake_or_waiting (hT rfl) with ha | ⟨hall, hcount⟩
    · exact attended_awake hi h ha
    · cases hp with
      | awake h0 => exact absurd (hcount.symm.trans h0) (by omega)
      | asleep | short => exact .here (List.mem_singleton_self _) rfl
      | read =>
        refine .here (List.mem_singleton_self _) ?_
        simp [Frame.willWake, hi.threadSize, hcount]
      | @enough awake hlt =>
        refine .inr ⟨hq, not_attends_send ?_⟩
        have hpos : 0 < awake := (Int.natCast_nonneg _).trans_lt hlt
        simpa [Frame.willWake] using hpos
      | woken hw => exact attended_woken hi hw
      | nobody hnil =>
        have hmem := hall 0 hn
        rw [hnil] at hmem
        cases hmem
  | _ => exact .inr ⟨hq, not_attends_send rfl⟩

theorem attended_heard (hi : SleepOk n p σ (.send pc ::ₘ R))
    (hH : (Frame.send pc).misses σ → (∃ f ∈ .send pc ::ₘ R, f.awake σ) ∨
      σ.globalServiceQueue = [] ∨ 1 < (.send pc ::ₘ R).countP (Frame.isWakeUp ·))
    (h : pc.step σ c = some (op, fs)) (hq : (σ.apply op).globalServiceQueue ≠ []) :
    Attended Frame.isWakeUp σ (.send pc) op fs R := by
  cases SendPc.step_cases h with
  | push => exact .here (List.mem_singleton_self _) rfl
  | @wakeUp wp op next hp =>
    have hmiss : (Frame.send (.wakeUp wp)).misses σ → (σ.apply op).globalServiceQueue =
        σ.globalServiceQueue → Attended Frame.isWakeUp σ (.send (.wakeUp wp)) op
          (next.toList.map fun p => Frame.send (.wakeUp p)) R := by
      intro hm hsame
      rcases hH hm with ha | hnil | hmore
      · exact attended_awake hi h ha
      · exact absurd (hsame.trans hnil) hq
      · rw [Multiset.countP_cons_of_pos (p := (Frame.isWakeUp ·)) _ rfl] at hmore
        obtain ⟨g, hg, hwake⟩ := Multiset.countP_pos.mp (Nat.lt_of_succ_lt_succ hmore)
        exact .inl ⟨g, Multiset.mem_add.mpr (.inr hg), .inr hwake⟩
    cases hp with
    | asleep | short | read => exact .here (List.mem_singleton_self _) rfl
    | woken hw => exact attended_woken hi hw
    | awake h0 => exact hmiss (decide_eq_true h0) rfl
    | enough hlt => exact hmiss (decide_eq_true hlt) rfl
    | nobody hnil => exact hmiss (decide_eq_true hnil) rfl
  | _ => exact .inr ⟨hq, not_attends_send rfl⟩

end

/-- While a service is queued some worker is awake or a test counts, if the
steps of `SendMessage` see to it. -/
theorem Reach.attended {counts : Frame → Bool} (hcounts : ∀ f, counts f → f.isWakeUp)
    (h : system.Reach C (initial n p k) s)
    (hsend : ∀ (s : State) (l : Label) fs R pc, system.Reach C (initial n p k) s → C s l →
      s.frames = l.frame ::ₘ R → l.frame = .send pc →
      system.step s.shared l.frame l.choice = some (l.op, fs) →
      (s.shared.apply l.op).globalServiceQueue ≠ [] → Attended counts s.shared l.frame l.op fs R)
    (hq : s.shared.globalServiceQueue ≠ []) : ∃ f ∈ s.frames, f.attends counts s.shared := by
  have hob := h.obligation (fun σ (_ : Unit) => σ.globalServiceQueue ≠ []) (fun _ _ => False)
    (fun σ f _ => f.attends counts σ) (fun _ hne => absurd rfl hne)
    (fun s l fs R hr _ hF hm g hg _ ha => attends_apply (hF ▸ Reach.sleepOk hr) hm hg ha)
    fun s l fs R hr hc hF hm _ hq => ?_
  · exact (hob () hq).resolve_left id
  · have hstep := attended_step hcounts (hF ▸ Reach.sleepOk hr) (hF ▸ Reach.refsOk hr) hm hq
      fun pc hf => hsend s l fs R pc hr hc hF hf hm hq
    rcases hstep with hg | ⟨hq, hno⟩
    · exact .inr (.inl hg)
    · exact .inr (.inr ⟨hq, id, hno⟩)

theorem Reach.attended_timely (hn : 0 < n) (h : system.Reach Timely (initial n p k) s)
    (hq : s.shared.globalServiceQueue ≠ []) :
    ∃ f ∈ s.frames, f.attends Frame.willWake s.shared := by
  refine Reach.attended (fun _ => isWakeUp_of_willWake) h ?_ hq
  intro s l fs R pc hr hT hF hf hm hq
  have hi := Reach.sleepOk hr
  unfold Timely at hT
  rw [hF, hf] at hi hT
  rw [hf] at hm ⊢
  exact XianNet.attended_timely hn hi hT hm hq

theorem Reach.attended_heard (h : system.Reach Heard (initial n p k) s)
    (hq : s.shared.globalServiceQueue ≠ []) :
    ∃ f ∈ s.frames, f.attends Frame.isWakeUp s.shared := by
  refine Reach.attended (fun _ hw => hw) h ?_ hq
  intro s l fs R pc hr hH hF hf hm hq
  have hi := Reach.sleepOk hr
  unfold Heard at hH
  rw [hF, hf] at hi hH
  rw [hf] at hm ⊢
  exact XianNet.attended_heard hi hH hm hq

/-- A test that is in time, from its first step on, is heard. -/
theorem Reach.heard (hn : 0 < n) (h : system.Reach Timely (initial n p k) s) :
    system.Reach Heard (initial n p k) s := by
  refine h.strengthen fun s l s' hr hT hs hmiss => ?_
  by_contra hno
  obtain ⟨hasleep, hq, hone⟩ : (¬ ∃ f ∈ s.frames, f.awake s.shared) ∧
      s.shared.globalServiceQueue ≠ [] ∧ ¬ 1 < s.frames.countP (Frame.isWakeUp ·) := by
    simpa only [not_or] using hno
  have hwake : l.frame.isWakeUp := by
    cases hf : l.frame with
    | send pc =>
      rw [hf] at hmiss
      cases pc <;> first | rfl | cases hmiss
    | _ => rw [hf] at hmiss; cases hmiss
  obtain ⟨hall, hcount⟩ := ((Reach.sleepOk hr).awake_or_waiting (hT hwake)).resolve_left hasleep
  obtain ⟨f, hf, ha | hwill⟩ := Reach.attended_timely hn hr hq
  · exact hasleep ⟨f, hf, ha⟩
  obtain ⟨fs, R, -, hF, -, -⟩ := hs.frames
  -- There is no other test, so it is this one that will signal.
  have hself : f = l.frame := by
    rw [hF] at hf hone
    refine (Multiset.mem_cons.mp hf).resolve_right fun hR => hone ?_
    rw [Multiset.countP_cons_of_pos (p := (Frame.isWakeUp ·)) _ hwake]
    exact Nat.succ_lt_succ (Multiset.countP_pos_of_mem hR (isWakeUp_of_willWake hwill))
  rw [← hself] at hmiss
  cases f with
  | send pc =>
    cases pc with
    | wakeUp wp =>
      cases wp with
      | testSleeping =>
        have h0 := of_decide_eq_true hmiss
        omega
      | readSleepCount => cases hmiss
      | compareSize d =>
        have hlt := of_decide_eq_true hmiss
        have hle : d ≤ 0 := of_decide_eq_true hwill
        omega
      | signal =>
        have hmem := hall 0 hn
        rw [of_decide_eq_true hmiss] at hmem
        cases hmem
    | _ => cases hmiss
  | _ => cases hmiss

/-- The worker finds the queue empty, the sender sees nobody asleep, the worker
goes to sleep. -/
def missedWakeUp : List (Nat × Choice) :=
  steps 0 1 ++ creates 3 ++ sends 3 0 5 ++ steps 0 3

theorem stalled : ∃ s, system.Reach Any (initial 1 (fun i => 1 <<< i) 1) s ∧ Stalled 1 s := by
  have h : ((system.run Any (initial 1 (fun i => 1 <<< i) 1) missedWakeUp).any
      (Stalled 1 ·)) = true := by decide +kernel
  exact Machine.exists_of_run h

/-- Where every test that wakes nobody leaves somebody else to find the queue
there is no stall, and a test does so unless it was made in the window. -/
theorem not_stalled_of_heard (hn : 0 < n) (h : system.Reach Heard (initial n p k) s) :
    ¬ Stalled n s ∧ ∀ s', system.Reach Timely (initial n p k) s' →
      system.Reach Heard (initial n p k) s' := by
  refine ⟨?_, fun s' hT => Reach.heard hn hT⟩
  rintro ⟨hq, hall, hsend⟩
  obtain ⟨f, hf, ha | hw⟩ := Reach.attended_heard h hq
  · cases f with
    | worker w pc =>
      have hmem := hall w.id ((Reach.sleepOk h).worker hf).1
      simp [Frame.awake, hmem] at ha
    | _ => cases ha
  · cases f with
    | send pc => cases hsend _ hf
    | _ => cases hw

/-- The sender reads `sleep_count_` while the second worker goes to sleep, and
its signal wakes the first. -/
theorem not_stalled_of_heard_woken : ∃ s, system.Reach Heard (initial 2 (fun i => 1 <<< i) 1) s ∧
    s.shared.globalServiceQueue = [0] ∧ s.shared.waitSet = [] ∧ ¬ Stalled 2 s := by
  have h : ((system.run Heard (initial 2 (fun i => 1 <<< i) 1)
      (steps 0 4 ++ creates 4 ++ sends 4 0 0 ++ steps 1 1 ++ steps 4 7 ++ [(4, .waiter 0)])).any
        fun s => s.shared.globalServiceQueue = [0] ∧ s.shared.waitSet = []) = true := by
    decide +kernel
  obtain ⟨s, hs, hq, hw⟩ := Machine.exists_of_run h
  exact ⟨s, hs, hq, hw, (not_stalled_of_heard (by decide) hs).1⟩

end XianNet
