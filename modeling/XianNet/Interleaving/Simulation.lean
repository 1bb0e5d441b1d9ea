import XianNet.Interleaving.History

/-!
# Machines that simulate machines

A translation of frames carries the runs of one machine over to another
(`Machine.Exec.map`). A simulation relates the states of two machines whose
steps differ in size, so that each step of the lower one is a run of the upper
one, possibly empty (`Machine.Exec.simulate`). The upper one may also be any
other transition system, which the events of the run drive
(`Machine.Exec.refines`).
-/

namespace Interleaving

-- ---------------------------------------------------------------------------
-- Translations
-- ---------------------------------------------------------------------------

def State.map (g : φ' → φ) (s : State σ φ') : State σ φ :=
  ⟨s.shared, s.threads.map (·.map g)⟩

def Label.map (g : φ' → φ) (l : Label φ' κ ω) : Label φ κ ω :=
  ⟨l.thread, g l.frame, l.choice, l.op⟩

@[simp] theorem State.shared_map (g : φ' → φ) (s : State σ φ') : (s.map g).shared = s.shared := rfl

theorem State.threads_map (g : φ' → φ) (s : State σ φ') (t : Nat) :
    (s.map g).threads[t]? = (s.threads[t]?).map (·.map g) := by
  simp [State.map]

theorem State.frames_map (g : φ' → φ) (s : State σ φ') : (s.map g).frames = s.frames.map g := by
  simp [State.frames, State.map, List.map_flatten]

/-- Every step from a frame is a step from its translation. -/
def Machine.Translates (M' : Machine σ φ' κ ω) (M : Machine σ φ κ ω) (g : φ' → φ) : Prop :=
  M'.apply = M.apply ∧ ∀ σ f c op fs, M'.step σ f c = some (op, fs) →
    M.step σ (g f) c = some (op, fs.map g)

variable {M' : Machine σ φ' κ ω} {M : Machine σ φ κ ω} {g : φ' → φ}

theorem Machine.Step.map {s s' : State σ φ'} {l : Label φ' κ ω} (hg : M'.Translates M g)
    (h : M'.Step s l s') : M.Step (s.map g) (l.map g) (s'.map g) := by
  obtain ⟨rest, fs, ht, hstep, rfl⟩ := Machine.Step.eq h
  obtain ⟨happly, hg⟩ := hg
  have ht' : (s.map g).threads[l.thread]? = some (g l.frame :: rest.map g) := by
    rw [State.threads_map, ht]
    rfl
  have hnext : M.next (s.map g) l.thread l.choice = some (l.map g,
      ⟨M.apply s.shared l.op, (s.map g).threads.set l.thread (fs.map g ++ rest.map g)⟩) := by
    simp only [Machine.next, ht', State.shared_map, hg _ _ _ _ _ hstep, Option.map_some]
    rfl
  rw [Machine.Step]
  show M.next (s.map g) l.thread l.choice = _
  rw [hnext, happly]
  simp [State.map, List.map_set]

theorem Machine.Exec.map {C' : State σ φ' → Label φ' κ ω → Prop}
    {C : State σ φ → Label φ κ ω → Prop} {s s' : State σ φ'} {tr : List (Label φ' κ ω)}
    (hg : M'.Translates M g) (h : M'.Exec C' s tr s')
    (hC : ∀ s l s', C' s l → M'.Step s l s' → C (s.map g) (l.map g)) :
    M.Exec C (s.map g) (tr.map (·.map g)) (s'.map g) := by
  induction h with
  | refl => exact .refl _
  | step _ hc hs ih =>
    rw [List.map_append]
    exact .step ih (hC _ _ _ hc hs) (hs.map hg)

/-- Related states stay related, and the two runs show the same. -/
theorem Machine.Exec.simulate {L : Machine σ' φ' κ' ω'} {U : Machine σ φ κ ω}
    {C' : State σ' φ' → Label φ' κ' ω' → Prop} {C : State σ φ → Label φ κ ω → Prop}
    (Rel : State σ' φ' → State σ φ → Prop) (shows' : Label φ' κ' ω' → List α)
    (shows : Label φ κ ω → List α) (h : L.Exec C' s₀' tr' s') (h0 : Rel s₀' s₀)
    (hstep : ∀ pre s₁ l s₂ u, L.Exec C' s₀' pre s₁ → C' s₁ l → L.Step s₁ l s₂ → Rel s₁ u →
      ∃ tr u', U.Exec C u tr u' ∧ Rel s₂ u' ∧ tr.flatMap shows = shows' l) :
    ∃ tr s, U.Exec C s₀ tr s ∧ Rel s' s ∧ tr.flatMap shows = tr'.flatMap shows' := by
  induction h with
  | refl => exact ⟨[], s₀, .refl _, h0, rfl⟩
  | @step tr' s₁ l s₂ h hc hs ih =>
    obtain ⟨tr, u, hrun, hrel, hsame⟩ := ih
    obtain ⟨more, u', hmore, hrel', hlabel⟩ := hstep _ _ _ _ u h hc hs hrel
    refine ⟨tr ++ more, u', hrun.trans hmore, hrel', ?_⟩
    simp [hsame, hlabel]

-- ---------------------------------------------------------------------------
-- Events
-- ---------------------------------------------------------------------------

/-- The transition system `next` from `a` through the events. -/
inductive Drives (next : A → ε → A → Prop) : A → List ε → A → Prop
  | refl : Drives next a [] a
  | step : Drives next a es a' → next a' e a'' → Drives next a (es ++ [e]) a''

theorem Drives.single {next : A → ε → A → Prop} (h : next a e a') : Drives next a [e] a' :=
  .step .refl h

theorem Drives.trans {next : A → ε → A → Prop} (h : Drives next a es a')
    (h' : Drives next a' es' a'') : Drives next a (es ++ es') a'' := by
  induction h' with
  | refl => simpa using h
  | step _ he ih => rw [← List.append_assoc]; exact .step ih he

/-- An invariant of the states and the events so far. -/
theorem Drives.induct {next : A → ε → A → Prop} {I : List ε → A → Prop} (h : Drives next a es a')
    (h0 : I [] a) (hstep : ∀ es b e b', I es b → next b e b' → I (es ++ [e]) b') : I es a' := by
  induction h with
  | refl => exact h0
  | step _ he ih => exact hstep _ _ _ _ ih he

/-- A run with the events that `view` reads off its steps. -/
inductive Machine.Shows (M : Machine σ φ κ ω) (C : State σ φ → Label φ κ ω → Prop)
    (view : State σ φ → Label φ κ ω → State σ φ → List ε) (s₀ : State σ φ) :
    List (Label φ κ ω) → List ε → State σ φ → Prop
  | refl : Machine.Shows M C view s₀ [] [] s₀
  | step : Machine.Shows M C view s₀ tr es s → C s l → M.Step s l s' →
      Machine.Shows M C view s₀ (tr ++ [l]) (es ++ view s l s') s'

theorem Machine.Shows.flatMap {C : State σ φ → Label φ κ ω → Prop} {g : ε → List α}
    {g' : Label φ κ ω → List α} (h : M.Shows C view s₀ tr es s)
    (hview : ∀ s l s', (view s l s').flatMap g = g' l) : es.flatMap g = tr.flatMap g' := by
  induction h with
  | refl => rfl
  | step _ _ _ ih => rw [List.flatMap_append, List.flatMap_append, ih, hview, List.flatMap_singleton]

/-- The events of a run drive a transition system that its states stay related to. -/
theorem Machine.Exec.refines {C : State σ φ → Label φ κ ω → Prop} {next : A → ε → A → Prop}
    (Rel : State σ φ → A → Prop) (view : State σ φ → Label φ κ ω → State σ φ → List ε)
    (h : M.Exec C s₀ tr s) (h0 : Rel s₀ a₀)
    (hstep : ∀ pre s l s' a, M.Exec C s₀ pre s → C s l → M.Step s l s' → Rel s a →
      ∃ a', Drives next a (view s l s') a' ∧ Rel s' a') :
    ∃ es a, M.Shows C view s₀ tr es s ∧ Drives next a₀ es a ∧ Rel s a := by
  induction h with
  | refl => exact ⟨[], a₀, .refl, .refl, h0⟩
  | step h hc hs ih =>
    obtain ⟨es, a, hshows, hdrives, hrel⟩ := ih
    obtain ⟨a', hmore, hrel'⟩ := hstep _ _ _ _ a h hc hs hrel
    exact ⟨_, a', hshows.step hc hs, hdrives.trans hmore, hrel'⟩

end Interleaving
