import XianNet.Interleaving.Machine

/-!
# Histories

What a run did is in its trace. The rules here connect the trace with the
state it leads to: a queue is what went in and has not come out
(`Machine.Exec.fifo`), what was made is used or still there
(`Machine.Exec.balance`), and a thread that does not move keeps its stack
(`Machine.Exec.stays`).
-/

namespace Interleaving

variable {M : Machine σ φ κ ω} {C : State σ φ → Label φ κ ω → Prop}
variable {s s' s'' : State σ φ} {tr tr' : List (Label φ κ ω)}

-- ---------------------------------------------------------------------------
-- Parts of a run
-- ---------------------------------------------------------------------------

theorem Machine.Exec.nil_eq (h : M.Exec C s [] s') : s' = s := by
  generalize htr : ([] : List (Label φ κ ω)) = tr at h
  cases h with
  | refl => rfl
  | step => simp at htr

theorem Machine.Exec.snoc (h : M.Exec C s (tr ++ [l]) s'') :
    ∃ s', M.Exec C s tr s' ∧ C s' l ∧ M.Step s' l s'' := by
  generalize htr : tr ++ [l] = tr₀ at h
  cases h with
  | refl => simp at htr
  | step h hc hs =>
    obtain ⟨rfl, heq⟩ := List.append_inj' htr rfl
    cases heq
    exact ⟨_, h, hc, hs⟩

theorem Machine.Exec.split (h : M.Exec C s (tr ++ tr') s'') :
    ∃ s', M.Exec C s tr s' ∧ M.Exec C s' tr' s'' := by
  induction tr' using List.reverseRecOn generalizing s'' with
  | nil => exact ⟨s'', by simpa using h, .refl _⟩
  | append_singleton tr' l ih =>
    rw [← List.append_assoc] at h
    obtain ⟨s₁, h, hc, hs⟩ := h.snoc
    obtain ⟨s', h, h'⟩ := ih h
    exact ⟨s', h, .step h' hc hs⟩

theorem Machine.Exec.cons (h : M.Exec C s (l :: tr) s'') :
    ∃ s', C s l ∧ M.Step s l s' ∧ M.Exec C s' tr s'' := by
  obtain ⟨s', h, h'⟩ := Machine.Exec.split (show M.Exec C s ([l] ++ tr) s'' from h)
  obtain ⟨s₁, h, hc, hs⟩ := Machine.Exec.snoc (show M.Exec C s ([] ++ [l]) s' from h)
  obtain rfl := h.nil_eq
  exact ⟨s', hc, hs, h'⟩

/-- What every step of the trace meets may be added to the restriction. -/
theorem Machine.Exec.of_forall {P : Label φ κ ω → Prop} (h : M.Exec C s tr s')
    (hP : ∀ l ∈ tr, P l) : M.Exec (fun s l => C s l ∧ P l) s tr s' := by
  induction h with
  | refl => exact .refl _
  | step _ hc hs ih =>
    exact .step (ih fun l hl => hP l (List.mem_append_left _ hl)) ⟨hc, hP _ (by simp)⟩ hs

/-- A restriction that every step of the run meets may be added. -/
theorem Machine.Exec.strengthen {D : State σ φ → Label φ κ ω → Prop} (h : M.Exec C s₀ tr s)
    (hD : ∀ pre s l s', M.Exec C s₀ pre s → C s l → M.Step s l s' → D s l) :
    M.Exec D s₀ tr s := by
  induction h with
  | refl => exact .refl _
  | step hr hc hs ih => exact .step ih (hD _ _ _ _ hr hc hs) hs

-- ---------------------------------------------------------------------------
-- Trace and state
-- ---------------------------------------------------------------------------

/-- An invariant of the trace so far, the shared state and the frames. -/
theorem Machine.Exec.invariant {I : List (Label φ κ ω) → σ → Multiset φ → Prop}
    (h : M.Exec C s₀ tr s) (h0 : I [] s₀.shared s₀.frames)
    (hstep : ∀ tr s l fs R, M.Exec C s₀ tr s → C s l → s.frames = l.frame ::ₘ R →
      M.step s.shared l.frame l.choice = some (l.op, fs) →
      I tr s.shared (l.frame ::ₘ R) →
      I (tr ++ [l]) (M.apply s.shared l.op) ((fs : Multiset φ) + R)) :
    I tr s.shared s.frames := by
  induction h with
  | refl => exact h0
  | step h hc hs ih =>
    obtain ⟨fs, R, hm, hf, hf', hsh⟩ := hs.frames
    rw [hf', hsh]
    exact hstep _ _ _ fs R h hc hf hm (hf ▸ ih)

/-- First in, first out: what was in the queue and what went in is, in order,
what came out and what is left. -/
theorem Machine.Exec.fifo (content : σ → List α) (pushed popped : Label φ κ ω → List α)
    (h : M.Exec C s tr s')
    (hstep : ∀ pre s₁ l s₂, M.Exec C s pre s₁ → C s₁ l → M.Step s₁ l s₂ →
      content s₁.shared ++ pushed l = popped l ++ content s₂.shared) :
    content s.shared ++ tr.flatMap pushed = tr.flatMap popped ++ content s'.shared := by
  induction h with
  | refl => simp
  | @step tr s₁ l s₂ h hc hs ih =>
    have hl := hstep _ _ _ _ h hc hs
    calc content s.shared ++ (tr ++ [l]).flatMap pushed
      _ = (content s.shared ++ tr.flatMap pushed) ++ pushed l := by simp
      _ = tr.flatMap popped ++ (content s₁.shared ++ pushed l) := by rw [ih, List.append_assoc]
      _ = (tr ++ [l]).flatMap popped ++ content s₂.shared := by rw [hl]; simp

theorem length_flatMap_le {f g : ι → List α} {xs : List ι} (h : ∀ x ∈ xs, f x <+: g x) :
    (xs.flatMap f).length ≤ (xs.flatMap g).length := by
  induction xs with
  | nil => exact Nat.le_refl _
  | cons x xs ih =>
    obtain ⟨hx, hxs⟩ := List.forall_mem_cons.mp h
    simp only [List.flatMap_cons, List.length_append]
    exact Nat.add_le_add hx.length_le (ih hxs)

/-- Prefixes make up the whole only if none of them is cut. -/
theorem flatMap_eq_iff_of_prefix {f g : ι → List α} {xs : List ι} (h : ∀ x ∈ xs, f x <+: g x) :
    xs.flatMap f = xs.flatMap g ↔ ∀ x ∈ xs, f x = g x := by
  induction xs with
  | nil => simp
  | cons x xs ih =>
    obtain ⟨hx, hxs⟩ := List.forall_mem_cons.mp h
    rw [List.flatMap_cons, List.flatMap_cons, List.forall_mem_cons, ← ih hxs]
    constructor
    · intro heq
      have hlen := congrArg List.length heq
      simp only [List.length_append] at hlen
      have hrest := length_flatMap_le hxs
      have hfirst : f x = g x := hx.eq_of_length (by have := hx.length_le; omega)
      rw [hfirst] at heq
      exact ⟨hfirst, List.append_cancel_left heq⟩
    · rintro ⟨hfirst, hrest⟩
      rw [hfirst, hrest]

/-- A log to which each step adds a prefix of what it was asked for holds all
that was asked for if and only if no step cut its part. -/
theorem Machine.Exec.whole_iff (content : σ → List α) (put asked : Label φ κ ω → List α)
    (h : M.Exec C s tr s')
    (hstep : ∀ pre s₁ l s₂, M.Exec C s pre s₁ → C s₁ l → M.Step s₁ l s₂ →
      content s₂.shared = content s₁.shared ++ put l)
    (hput : ∀ l ∈ tr, put l <+: asked l) :
    content s'.shared = content s.shared ++ tr.flatMap asked ↔ ∀ l ∈ tr, put l = asked l := by
  have hlog : content s.shared ++ tr.flatMap put = content s'.shared := by
    have hfifo := h.fifo content put (fun _ => []) fun pre s₁ l s₂ hr hc hs =>
      (hstep pre s₁ l s₂ hr hc hs).symm
    rwa [List.flatMap_eq_nil_iff.mpr fun _ _ => rfl, List.nil_append] at hfifo
  rw [← hlog, List.append_cancel_left_eq]
  exact flatMap_eq_iff_of_prefix hput

/-- Before `x` comes out, only what was ahead of it does. -/
theorem prefix_of_notMem {ahead behind popped left : List α} (hnot : x ∉ popped)
    (h : ahead ++ x :: behind = popped ++ left) : popped <+: ahead := by
  rcases List.append_eq_append_iff.mp h with ⟨mid, hpop, hmid⟩ | ⟨mid, hq, -⟩
  · cases mid with
    | nil => exact ⟨[], by simpa using hpop⟩
    | cons y mid =>
      obtain ⟨rfl, -⟩ := List.cons.inj hmid
      exact absurd (by simp [hpop]) hnot
  · exact ⟨mid, hq.symm⟩

/-- What was there and what was made is, in any order, what was used and what
is left. -/
theorem Machine.Exec.balance (content : σ → Multiset φ → Multiset α)
    (made used : Label φ κ ω → List α) (h : M.Exec C s₀ tr s)
    (hstep : ∀ pre s l fs R, M.Exec C s₀ pre s → C s l → s.frames = l.frame ::ₘ R →
      M.step s.shared l.frame l.choice = some (l.op, fs) →
      content s.shared (l.frame ::ₘ R) + (made l : Multiset α) =
        (used l : Multiset α) + content (M.apply s.shared l.op) ((fs : Multiset φ) + R)) :
    content s₀.shared s₀.frames + (tr.flatMap made : Multiset α) =
      (tr.flatMap used : Multiset α) + content s.shared s.frames := by
  refine h.invariant (I := fun tr σ F => content s₀.shared s₀.frames +
    (tr.flatMap made : Multiset α) = (tr.flatMap used : Multiset α) + content σ F) (by simp) ?_
  intro tr s l fs R h hc hF hm ih
  have hl := hstep _ _ _ _ _ h hc hF hm
  simp only [List.flatMap_append, List.flatMap_singleton, ← Multiset.coe_add]
  rw [← add_assoc, ih, add_assoc, hl, ← add_assoc]

-- ---------------------------------------------------------------------------
-- One thread
-- ---------------------------------------------------------------------------

theorem Machine.Step.stays (h : M.Step s l s') (ht : l.thread ≠ t) :
    s'.threads[t]? = s.threads[t]? := by
  obtain ⟨rest, fs, -, -, rfl⟩ := Machine.Step.eq h
  exact List.getElem?_set_ne ht

theorem Machine.Step.moves (h : M.Step s l s') :
    ∃ rest fs, s.threads[l.thread]? = some (l.frame :: rest) ∧
      M.step s.shared l.frame l.choice = some (l.op, fs) ∧
      s'.threads[l.thread]? = some (fs ++ rest) ∧ s'.shared = M.apply s.shared l.op := by
  obtain ⟨rest, fs, ht, hm, rfl⟩ := Machine.Step.eq h
  exact ⟨rest, fs, ht, hm, List.getElem?_set_self (List.getElem?_eq_some_iff.mp ht).1, rfl⟩

/-- An invariant of the trace, the shared state and one stack: a step keeps it
for the thread that moves and for every other. -/
theorem Machine.Exec.stacks {I : List (Label φ κ ω) → σ → Nat → List φ → Prop}
    (h : M.Exec C s₀ tr s)
    (h0 : ∀ t stack, s₀.threads[t]? = some stack → I [] s₀.shared t stack)
    (hown : ∀ tr s l fs rest, M.Exec C s₀ tr s → C s l →
      s.threads[l.thread]? = some (l.frame :: rest) →
      M.step s.shared l.frame l.choice = some (l.op, fs) →
      I tr s.shared l.thread (l.frame :: rest) →
      I (tr ++ [l]) (M.apply s.shared l.op) l.thread (fs ++ rest))
    (hother : ∀ tr s l s' t stack, M.Exec C s₀ tr s → C s l → M.Step s l s' → t ≠ l.thread →
      s.threads[t]? = some stack → I tr s.shared t stack → I (tr ++ [l]) s'.shared t stack) :
    ∀ t stack, s.threads[t]? = some stack → I tr s.shared t stack := by
  induction h with
  | refl => exact h0
  | @step tr s₁ l s₂ h hc hs ih =>
    intro t stack ht
    by_cases htl : t = l.thread
    · subst htl
      obtain ⟨rest, fs, htop, hm, hnext, hsh⟩ := hs.moves
      rw [hnext] at ht
      cases ht
      rw [hsh]
      exact hown _ _ _ _ _ h hc htop hm (ih _ _ htop)
    · rw [hs.stays (Ne.symm htl)] at ht
      exact hother _ _ _ _ _ _ h hc hs htl ht (ih _ _ ht)

/-- Thread `main` follows the outline `A` while the frames of the others meet
`B`: a step of `main` goes on in the outline, a step of another does not
disturb it. -/
theorem Machine.Exec.outline {A : List (Label φ κ ω) → σ → List φ → Prop} {B : φ → Prop}
    {main : Nat} (h : M.Exec C s₀ tr s)
    (h0 : ∃ stack, s₀.threads[main]? = some stack ∧ A [] s₀.shared stack)
    (hothers : ∀ t ≠ main, ∀ stack, s₀.threads[t]? = some stack → ∀ f ∈ stack, B f)
    (hmain : ∀ tr s l fs rest, M.Exec C s₀ tr s →
      s.threads[main]? = some (l.frame :: rest) →
      M.step s.shared l.frame l.choice = some (l.op, fs) → A tr s.shared (l.frame :: rest) →
      A (tr ++ [l]) (M.apply s.shared l.op) (fs ++ rest))
    (hother : ∀ tr s l fs stack, M.Exec C s₀ tr s → l.frame ∈ s.frames → B l.frame →
      M.step s.shared l.frame l.choice = some (l.op, fs) → A tr s.shared stack →
      A (tr ++ [l]) (M.apply s.shared l.op) stack ∧ ∀ f ∈ fs, B f) :
    (∃ stack, s.threads[main]? = some stack ∧ A tr s.shared stack) ∧
      ∀ t ≠ main, ∀ stack, s.threads[t]? = some stack → ∀ f ∈ stack, B f := by
  induction h with
  | refl => exact ⟨h0, hothers⟩
  | @step tr s₁ l s₂ h _ hs ih =>
    obtain ⟨⟨stack, hstack, hA⟩, hB⟩ := ih
    obtain ⟨rest, fs, htop, hm, hnext, hsh⟩ := hs.moves
    rw [hsh]
    by_cases hl : l.thread = main
    · rw [hl] at htop hnext
      rw [htop] at hstack
      cases hstack
      refine ⟨⟨_, hnext, hmain _ _ _ _ _ h htop hm hA⟩, fun t ht stack' ht' => ?_⟩
      rw [hs.stays (by rw [hl]; exact Ne.symm ht)] at ht'
      exact hB t ht stack' ht'
    · obtain ⟨hA', hnew⟩ := hother _ _ _ _ _ h
        (State.mem_frames.mpr ⟨_, _, htop, List.mem_cons_self⟩)
        (hB _ hl _ htop _ List.mem_cons_self) hm hA
      refine ⟨⟨stack, (hs.stays hl).trans hstack, hA'⟩, fun t ht stack' ht' f hf => ?_⟩
      by_cases htl : t = l.thread
      · rw [htl, hnext] at ht'
        cases ht'
        rcases List.mem_append.mp hf with hf | hf
        · exact hnew f hf
        · exact hB _ hl _ htop f (List.mem_cons_of_mem _ hf)
      · rw [hs.stays (Ne.symm htl)] at ht'
        exact hB t ht stack' ht' f hf

/-- A thread that takes no step keeps its stack. -/
theorem Machine.Exec.stays (h : M.Exec C s tr s') (ht : ∀ l ∈ tr, l.thread ≠ t) :
    s'.threads[t]? = s.threads[t]? := by
  induction h with
  | refl => rfl
  | step _ _ hs ih =>
    rw [hs.stays (ht _ (by simp)), ih fun l hl => ht l (List.mem_append_left _ hl)]

theorem Machine.Exec.forall_mem {P : Label φ κ ω → Prop} (h : M.Exec C s tr s')
    (hP : ∀ s l, C s l → P l) : ∀ l ∈ tr, P l := by
  induction h with
  | refl => exact nofun
  | step _ hc _ ih =>
    intro l hl
    rcases List.mem_append.mp hl with hl | hl
    · exact ih l hl
    · rw [List.mem_singleton.mp hl]
      exact hP _ _ hc

/-- While thread `t` runs alone, the others stay where they are. -/
theorem Machine.Exec.others_stay (h : M.Exec (fun s l => C s l ∧ l.thread = t) s tr s')
    (hne : t' ≠ t) : s'.threads[t']? = s.threads[t']? :=
  h.stays (h.forall_mem fun _ _ hc => by rw [hc.2]; exact hne.symm)

theorem Machine.Exec.length_threads (h : M.Exec C s tr s') :
    s'.threads.length = s.threads.length := by
  induction h with
  | refl => rfl
  | step _ _ hs ih =>
    obtain ⟨rest, fs, -, -, rfl⟩ := Machine.Step.eq hs
    rw [List.length_set, ih]

/-- A thread that takes one step replaces the frame on top. -/
theorem Machine.Exec.once (h : M.Exec C s tr s') (hone : tr.countP (·.thread = t) = 1)
    (ht : s.threads[t]? = some (f :: rest)) :
    ∃ s₁ l fs, C s₁ l ∧ l.frame = f ∧ M.step s₁.shared f l.choice = some (l.op, fs) ∧
      s'.threads[t]? = some (fs ++ rest) := by
  induction h with
  | refl => simp at hone
  | @step tr s₁ l s₂ h hc hs ih =>
    rw [List.countP_append, List.countP_singleton] at hone
    by_cases hl : l.thread = t
    · have hnone : ∀ l' ∈ tr, l'.thread ≠ t := by
        rw [if_pos (by simpa using hl)] at hone
        simpa [List.countP_eq_zero] using hone
      obtain ⟨rest', fs, htop, hm, htop', -⟩ := hs.moves
      rw [hl, h.stays hnone, ht] at htop
      cases htop
      exact ⟨s₁, l, fs, hc, rfl, hm, hl ▸ htop'⟩
    · rw [if_neg (by simpa using hl)] at hone
      rw [hs.stays hl]
      exact ih hone

end Interleaving
