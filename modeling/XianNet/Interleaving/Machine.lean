import Mathlib.Algebra.BigOperators.Group.Multiset.Basic
import Mathlib.Data.Multiset.Count

/-!
# Threads that interleave over a shared state

A machine says what the frame on top of a thread's stack may do in one atomic
step: the operation it performs on the shared state, and the frames that
replace it. A run picks a thread and resolves its choices, over and over.

`Machine.Step.frames` is the view every invariant uses: the order between
threads forgotten, a step trades one frame of a multiset for a list of frames.
-/

namespace Interleaving

structure Machine (σ φ κ ω : Type) where
  step : σ → φ → κ → Option (ω × List φ)
  apply : σ → ω → σ

structure State (σ φ : Type) where
  shared : σ
  threads : List (List φ)

/-- Who moved, from which frame, with which choice, and the operation done. -/
structure Label (φ κ ω : Type) where
  thread : Nat
  frame : φ
  choice : κ
  op : ω

def State.frames (s : State σ φ) : Multiset φ := (s.threads.flatten : Multiset φ)

/-- One step of thread `t`: executable, so that a run can be computed. -/
def Machine.next (M : Machine σ φ κ ω) (s : State σ φ) (t : Nat) (c : κ) :
    Option (Label φ κ ω × State σ φ) :=
  match s.threads[t]? with
  | some (f :: rest) =>
    (M.step s.shared f c).map fun r =>
      (⟨t, f, c, r.1⟩, ⟨M.apply s.shared r.1, s.threads.set t (r.2 ++ rest)⟩)
  | _ => none

def Machine.Step (M : Machine σ φ κ ω) (s : State σ φ) (l : Label φ κ ω) (s' : State σ φ) : Prop :=
  M.next s l.thread l.choice = some (l, s')

/-- A run whose every step is allowed by `C` in the state it leaves. -/
inductive Machine.Exec (M : Machine σ φ κ ω) (C : State σ φ → Label φ κ ω → Prop) :
    State σ φ → List (Label φ κ ω) → State σ φ → Prop
  | refl (s) : Exec M C s [] s
  | step {s tr s' l s''} : Exec M C s tr s' → C s' l → M.Step s' l s'' →
      Exec M C s (tr ++ [l]) s''

def Machine.Reach (M : Machine σ φ κ ω) (C : State σ φ → Label φ κ ω → Prop)
    (s₀ s : State σ φ) : Prop :=
  ∃ tr, M.Exec C s₀ tr s

/-- No restriction on the steps of a run. -/
def Any : State σ φ → Label φ κ ω → Prop := fun _ _ => True

instance (s : State σ φ) (l : Label φ κ ω) : Decidable (Any s l) := .isTrue trivial

variable {M : Machine σ φ κ ω} {C D : State σ φ → Label φ κ ω → Prop}

-- ---------------------------------------------------------------------------
-- One step
-- ---------------------------------------------------------------------------

theorem Machine.next_eq_some {s s' : State σ φ} (h : M.next s t c = some (l, s')) :
    ∃ rest fs, s.threads[t]? = some (l.frame :: rest) ∧
      M.step s.shared l.frame c = some (l.op, fs) ∧ l.thread = t ∧ l.choice = c ∧
      s' = ⟨M.apply s.shared l.op, s.threads.set t (fs ++ rest)⟩ := by
  unfold Machine.next at h
  split at h
  · rename_i f rest ht
    obtain ⟨⟨op, fs⟩, hstep, heq⟩ := Option.map_eq_some_iff.mp h
    cases heq
    exact ⟨rest, fs, ht, hstep, rfl, rfl, rfl⟩
  · cases h

theorem Machine.Step.eq {s s' : State σ φ} (h : M.Step s l s') :
    ∃ rest fs, s.threads[l.thread]? = some (l.frame :: rest) ∧
      M.step s.shared l.frame l.choice = some (l.op, fs) ∧
      s' = ⟨M.apply s.shared l.op, s.threads.set l.thread (fs ++ rest)⟩ := by
  obtain ⟨rest, fs, ht, hstep, -, -, hs⟩ := Machine.next_eq_some h
  exact ⟨rest, fs, ht, hstep, hs⟩

theorem Machine.exists_step {s : State σ φ} (ht : s.threads[t]? = some (f :: rest))
    (h : M.step s.shared f c = some (op, fs)) :
    ∃ s', M.Step s ⟨t, f, c, op⟩ s' ∧ s'.shared = M.apply s.shared op ∧
      s'.threads[t]? = some (fs ++ rest) := by
  have hlt := (List.getElem?_eq_some_iff.mp ht).1
  exact ⟨⟨M.apply s.shared op, s.threads.set t (fs ++ rest)⟩,
    by simp [Machine.Step, Machine.next, ht, h], rfl, List.getElem?_set_self hlt⟩

theorem flatten_of_getElem? {threads : List (List φ)} {stack : List φ}
    (h : threads[t]? = some stack) :
    ∃ R : Multiset φ, (threads.flatten : Multiset φ) = stack + R ∧
      ∀ stack' : List φ, ((threads.set t stack').flatten : Multiset φ) = stack' + R := by
  obtain ⟨ht, hget⟩ := List.getElem?_eq_some_iff.mp h
  refine ⟨((threads.take t).flatten ++ (threads.drop (t + 1)).flatten : List φ), ?_, ?_⟩
  · conv_lhs => rw [← List.take_append_drop t threads, List.drop_eq_getElem_cons ht, hget]
    simp only [List.flatten_append, List.flatten_cons, ← Multiset.coe_add]
    rw [add_left_comm]
  · intro stack'
    rw [List.set_eq_take_append_cons_drop]
    simp only [ht, ↓reduceIte, List.flatten_append, List.flatten_cons, ← Multiset.coe_add]
    rw [add_left_comm]

/-- A step replaces one frame; every other frame of every thread stays. -/
theorem Machine.Step.frames {s s' : State σ φ} (h : M.Step s l s') :
    ∃ fs R, M.step s.shared l.frame l.choice = some (l.op, fs) ∧
      s.frames = l.frame ::ₘ R ∧ s'.frames = (fs : Multiset φ) + R ∧
      s'.shared = M.apply s.shared l.op := by
  obtain ⟨rest, fs, ht, hstep, rfl⟩ := Machine.Step.eq h
  obtain ⟨R, hR, hset⟩ := flatten_of_getElem? ht
  refine ⟨fs, (rest : Multiset φ) + R, hstep, ?_, ?_, rfl⟩
  · rw [State.frames, hR, ← Multiset.cons_coe, Multiset.cons_add]
  · rw [State.frames, hset, ← Multiset.coe_add, add_assoc]

/-- Thread `t` has the frame on its stack. -/
def State.Holds (s : State σ φ) (t : Nat) (f : φ) : Prop :=
  ∃ stack, s.threads[t]? = some stack ∧ f ∈ stack

theorem State.mem_frames {s : State σ φ} {f : φ} : f ∈ s.frames ↔ ∃ t, s.Holds t f := by
  simp only [State.frames, Multiset.mem_coe, List.mem_flatten]
  constructor
  · rintro ⟨stack, hs, hf⟩
    obtain ⟨t, ht⟩ := List.mem_iff_getElem?.mp hs
    exact ⟨t, stack, ht, hf⟩
  · rintro ⟨t, stack, ht, hf⟩
    exact ⟨stack, List.mem_of_getElem? ht, hf⟩

/-- One thread's frames and the others'. -/
theorem State.frames_split {s : State σ φ} {t : Nat} {stack : List φ}
    (ht : s.threads[t]? = some stack) :
    ∃ R : Multiset φ, s.frames = stack + R ∧ ∀ f, f ∈ R ↔
      ∃ (t' : Nat) (stack' : List φ), t' ≠ t ∧ s.threads[t']? = some stack' ∧ f ∈ stack' := by
  obtain ⟨R, hR, hset⟩ := flatten_of_getElem? ht
  refine ⟨R, hR, ?_⟩
  intro f
  have hiff : f ∈ R ↔ f ∈ (⟨s.shared, s.threads.set t []⟩ : State σ φ).frames := by
    rw [State.frames, hset]; simp
  rw [hiff, State.mem_frames]
  constructor
  · rintro ⟨t', stack', ht', hf⟩
    by_cases hne : t' = t
    · subst hne
      rw [List.getElem?_set_self (List.getElem?_eq_some_iff.mp ht).1] at ht'
      cases ht'
      cases hf
    · exact ⟨t', stack', hne, by rwa [List.getElem?_set_ne (Ne.symm hne)] at ht', hf⟩
  · rintro ⟨t', stack', hne, ht', hf⟩
    exact ⟨t', stack', by rwa [List.getElem?_set_ne (Ne.symm hne)], hf⟩

/-- A step takes its own frame away; every other frame stays with its thread. -/
theorem Machine.Step.holds {s s' : State σ φ} (h : M.Step s l s') :
    ∃ fs R, M.step s.shared l.frame l.choice = some (l.op, fs) ∧ s.frames = l.frame ::ₘ R ∧
      s'.shared = M.apply s.shared l.op ∧
      ∀ t f, s.Holds t f → (t = l.thread ∧ f = l.frame) ∨ (f ∈ R ∧ s'.Holds t f) := by
  obtain ⟨rest, fs, ht, hstep, rfl⟩ := Machine.Step.eq h
  obtain ⟨R, hR, hmem⟩ := State.frames_split ht
  have hlt := (List.getElem?_eq_some_iff.mp ht).1
  refine ⟨fs, (rest : Multiset φ) + R, hstep, ?_, rfl, ?_⟩
  · rw [hR, ← Multiset.cons_coe, Multiset.cons_add]
  · rintro t f ⟨stack, hst, hf⟩
    by_cases htl : t = l.thread
    · subst htl
      rw [ht] at hst
      cases hst
      rcases List.mem_cons.mp hf with rfl | hf
      · exact .inl ⟨rfl, rfl⟩
      · exact .inr ⟨Multiset.mem_add.mpr (.inl hf), _, List.getElem?_set_self hlt,
          List.mem_append_right _ hf⟩
    · exact .inr ⟨Multiset.mem_add.mpr (.inr ((hmem f).mpr ⟨t, stack, htl, hst, hf⟩)), stack,
        by rwa [List.getElem?_set_ne (Ne.symm htl)], hf⟩

/-- The frames a step makes are its thread's. -/
theorem Machine.Step.holds_new {s s' : State σ φ} (h : M.Step s l s') :
    ∃ fs, M.step s.shared l.frame l.choice = some (l.op, fs) ∧ s.Holds l.thread l.frame ∧
      s'.shared = M.apply s.shared l.op ∧ ∀ f ∈ fs, s'.Holds l.thread f := by
  obtain ⟨rest, fs, ht, hstep, rfl⟩ := Machine.Step.eq h
  have hlt := (List.getElem?_eq_some_iff.mp ht).1
  exact ⟨fs, hstep, ⟨_, ht, List.mem_cons_self⟩, rfl, fun f hf =>
    ⟨_, List.getElem?_set_self hlt, List.mem_append_left _ hf⟩⟩

/-- Two threads that both hold a frame with `p` count twice. -/
theorem State.two_le_countP {s : State σ φ} (p : φ → Prop) [DecidablePred p] {t t' : Nat}
    {stack stack' : List φ} (ht : s.threads[t]? = some stack) (ht' : s.threads[t']? = some stack')
    (hne : t ≠ t') (hf : f ∈ stack) (hp : p f) (hf' : f' ∈ stack') (hp' : p f') :
    2 ≤ s.frames.countP p := by
  obtain ⟨R, hR, hmem⟩ := State.frames_split ht
  have hR' : f' ∈ R := (hmem f').mpr ⟨t', stack', Ne.symm hne, ht', hf'⟩
  have h1 : 0 < (stack : Multiset φ).countP p := Multiset.countP_pos_of_mem (by simpa using hf) hp
  have h2 : 0 < R.countP p := Multiset.countP_pos_of_mem hR' hp'
  rw [hR, Multiset.countP_add]
  omega

-- ---------------------------------------------------------------------------
-- Runs
-- ---------------------------------------------------------------------------

theorem Machine.Exec.mono (h : M.Exec C s tr s') (hCD : ∀ s l, C s l → D s l) :
    M.Exec D s tr s' := by
  induction h with
  | refl => exact .refl _
  | step _ hc hs ih => exact .step ih (hCD _ _ hc) hs

theorem Machine.Exec.trans (h : M.Exec C s tr s') (h' : M.Exec C s' tr' s'') :
    M.Exec C s (tr ++ tr') s'' := by
  induction h' with
  | refl => simpa using h
  | step _ hc hs ih => rw [← List.append_assoc]; exact .step ih hc hs

theorem Machine.Exec.single (hc : C s l) (hs : M.Step s l s') : M.Exec C s [l] s' :=
  .step (.refl s) hc hs

theorem Machine.Reach.refl (s : State σ φ) : M.Reach C s s := ⟨[], .refl s⟩

theorem Machine.Reach.mono (h : M.Reach C s s') (hCD : ∀ s l, C s l → D s l) : M.Reach D s s' :=
  let ⟨tr, h⟩ := h; ⟨tr, h.mono hCD⟩

theorem Machine.Reach.exec (h : M.Reach C s s') (h' : M.Exec C s' tr s'') : M.Reach C s s'' :=
  let ⟨_, h⟩ := h; ⟨_, h.trans h'⟩

/-- A restriction that every reached state meets may be added. -/
theorem Machine.Reach.strengthen (h : M.Reach C s₀ s)
    (hD : ∀ s l s', M.Reach C s₀ s → C s l → M.Step s l s' → D s l) : M.Reach D s₀ s := by
  obtain ⟨tr, h⟩ := h
  induction h with
  | refl => exact .refl _
  | step hr hc hs ih => exact ih.exec (.single (hD _ _ _ ⟨_, hr⟩ hc hs) hs)

/-- Induction over a run: each step may use that its state was reached. -/
theorem Machine.Reach.induct {I : State σ φ → Prop} (h : M.Reach C s₀ s) (h0 : I s₀)
    (hstep : ∀ s l s', M.Reach C s₀ s → I s → C s l → M.Step s l s' → I s') : I s := by
  obtain ⟨tr, h⟩ := h
  induction h with
  | refl => exact h0
  | step hr hc hs ih => exact hstep _ _ _ ⟨_, hr⟩ ih hc hs

/-- An invariant of the shared state and the frames holds of every reached
state if each step keeps it, whatever the other frames `R` are. -/
theorem Machine.Reach.invariant {I : σ → Multiset φ → Prop} (h : M.Reach C s₀ s)
    (h0 : I s₀.shared s₀.frames)
    (hstep : ∀ s l fs R, M.Reach C s₀ s → C s l → s.frames = l.frame ::ₘ R →
      M.step s.shared l.frame l.choice = some (l.op, fs) →
      I s.shared (l.frame ::ₘ R) → I (M.apply s.shared l.op) ((fs : Multiset φ) + R)) :
    I s.shared s.frames := by
  refine h.induct (I := fun s => I s.shared s.frames) h0 ?_
  intro s l s' hr hi hc hs
  obtain ⟨fs, R, hm, hf, hf', hsh⟩ := hs.frames
  rw [hf', hsh]
  exact hstep s l fs R hr hc hf hm (hf ▸ hi)

-- ---------------------------------------------------------------------------
-- Computed runs
-- ---------------------------------------------------------------------------

/-- Runs the threads in the given order and records the steps; `none` when a
step is not enabled or `C` does not allow it. -/
def Machine.record (M : Machine σ φ κ ω) (C : State σ φ → Label φ κ ω → Prop)
    [∀ s l, Decidable (C s l)] :
    State σ φ → List (Nat × κ) → Option (List (Label φ κ ω) × State σ φ)
  | s, [] => some ([], s)
  | s, (t, c) :: acts =>
    match M.next s t c with
    | some (l, s') =>
      if C s l then (M.record C s' acts).map fun r => (l :: r.1, r.2) else none
    | none => none

/-- The state at the end. -/
def Machine.run (M : Machine σ φ κ ω) (C : State σ φ → Label φ κ ω → Prop)
    [∀ s l, Decidable (C s l)] (s : State σ φ) (acts : List (Nat × κ)) : Option (State σ φ) :=
  (M.record C s acts).map (·.2)

theorem Machine.exec_of_record [∀ s l, Decidable (C s l)] {s₀ s' : State σ φ}
    (h : M.record C s₀ acts = some (tr, s')) : M.Exec C s₀ tr s' := by
  induction acts generalizing s₀ tr with
  | nil => cases h; exact .refl _
  | cons act acts ih =>
    obtain ⟨t, c⟩ := act
    simp only [Machine.record] at h
    split at h
    · rename_i l s₁ hn
      split at h
      · rename_i hc
        obtain ⟨⟨tr', s''⟩, hrec, heq⟩ := Option.map_eq_some_iff.mp h
        cases heq
        obtain ⟨-, -, -, -, rfl, rfl, -⟩ := Machine.next_eq_some hn
        exact (Machine.Exec.single hc hn).trans (ih hrec)
      · cases h
    · cases h

theorem Machine.exists_of_record [∀ s l, Decidable (C s l)]
    {P : List (Label φ κ ω) × State σ φ → Prop} [DecidablePred P]
    (h : (M.record C s acts).any (P ·) = true) : ∃ tr s', M.Exec C s tr s' ∧ P (tr, s') := by
  obtain ⟨⟨tr, s'⟩, hs, hP⟩ := (Option.any_eq_true _ _).mp h
  exact ⟨tr, s', Machine.exec_of_record hs, of_decide_eq_true hP⟩

theorem Machine.exists_of_next {s : State σ φ} {P : Label φ κ ω × State σ φ → Prop}
    [DecidablePred P] (h : (M.next s t c).any (P ·) = true) :
    ∃ l s', M.Step s l s' ∧ l.thread = t ∧ l.choice = c ∧ P (l, s') := by
  obtain ⟨⟨l, s'⟩, hs, hP⟩ := (Option.any_eq_true _ _).mp h
  obtain ⟨-, -, -, -, rfl, rfl, -⟩ := Machine.next_eq_some hs
  exact ⟨l, s', hs, rfl, rfl, of_decide_eq_true hP⟩

theorem Machine.exists_of_run [∀ s l, Decidable (C s l)] {P : State σ φ → Prop} [DecidablePred P]
    (h : (M.run C s acts).any (P ·) = true) : ∃ s', M.Reach C s s' ∧ P s' := by
  obtain ⟨s', hs, hP⟩ := (Option.any_eq_true _ _).mp h
  obtain ⟨⟨tr, s''⟩, hrec, rfl⟩ := Option.map_eq_some_iff.mp hs
  exact ⟨s'', ⟨tr, Machine.exec_of_record hrec⟩, of_decide_eq_true hP⟩

end Interleaving
