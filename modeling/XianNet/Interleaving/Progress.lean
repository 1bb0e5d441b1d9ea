import Mathlib.Algebra.Ring.Nat
import Mathlib.Data.List.Forall2
import XianNet.Interleaving.Locks

/-!
# Calls that return

Two views of a call that comes to its end. A call whose every step lowers what
is left of it returns within so many steps of its own thread, whatever the
others do in between (`Machine.Exec.returns`); with locks, a method counts for
the few steps that it consists of (`Guards.counts`). And where the choices are
ours, a measure that some step always lowers leads to the end
(`Machine.exists_exec`), for a whole state or for one thread that runs alone
(`Machine.exists_alone`).
-/

namespace Interleaving

variable {M : Machine σ φ κ ω} {C : State σ φ → Label φ κ ω → Prop}
variable {s s' : State σ φ} {tr : List (Label φ κ ω)} {rank : φ → Nat}

-- ---------------------------------------------------------------------------
-- Calls
-- ---------------------------------------------------------------------------

/-- `within n f` bounds the steps from `f` to its return. -/
structure Machine.Counts (M : Machine σ φ κ ω) (within : Nat → φ → Prop) : Prop where
  step : ∀ n s f c op fs, within n f → M.step s f c = some (op, fs) →
    ∃ ns, List.Forall₂ within ns fs ∧ ns.sum < n

/-- The thread is back at `rest` within `n` steps of its own. -/
def Machine.ReturnsWithin (M : Machine σ φ κ ω) (C : State σ φ → Label φ κ ω → Prop) (t : Nat)
    (rest : List φ) (n : Nat) (s : State σ φ) (tr : List (Label φ κ ω)) (s' : State σ φ) : Prop :=
  ∃ pre post s₁, tr = pre ++ post ∧ M.Exec C s pre s₁ ∧ M.Exec C s₁ post s' ∧
    s₁.threads[t]? = some rest ∧ pre.countP (·.thread = t) ≤ n

theorem Machine.ReturnsWithin.mono (h : M.ReturnsWithin C t rest n s tr s') (hle : n ≤ n') :
    M.ReturnsWithin C t rest n' s tr s' := by
  obtain ⟨pre, post, s₁, htr, hpre, hpost, hst, hcount⟩ := h
  exact ⟨pre, post, s₁, htr, hpre, hpost, hst, hcount.trans hle⟩

theorem Machine.ReturnsWithin.cons (hc : C s l) (hs : M.Step s l s₁)
    (h : M.ReturnsWithin C t rest n s₁ tr s') :
    M.ReturnsWithin C t rest (n + if l.thread = t then 1 else 0) s (l :: tr) s' := by
  obtain ⟨pre, post, s₂, rfl, hpre, hpost, hst, hle⟩ := h
  refine ⟨l :: pre, post, s₂, rfl, (Machine.Exec.single hc hs).trans hpre, hpost, hst, ?_⟩
  simp only [List.countP_cons, decide_eq_true_eq]
  omega

/-- The calls on top of a stack return within their steps, or the thread has not
made so many yet and is still in them. -/
theorem Machine.Exec.returns {within : Nat → φ → Prop} (hM : M.Counts within) (h : M.Exec C s tr s')
    (ht : s.threads[t]? = some (calls ++ rest)) (hcalls : List.Forall₂ within ns calls) :
    M.ReturnsWithin C t rest ns.sum s tr s' ∨
      ∃ n f ns' calls', s'.threads[t]? = some (f :: calls' ++ rest) ∧ within n f ∧
        List.Forall₂ within ns' calls' ∧ tr.countP (·.thread = t) + (n + ns'.sum) ≤ ns.sum := by
  induction tr generalizing s calls ns with
  | nil =>
    obtain rfl := h.nil_eq
    cases hcalls with
    | nil => exact .inl ⟨[], [], s', rfl, .refl s', .refl s', ht, Nat.zero_le _⟩
    | cons hf hcalls => exact .inr ⟨_, _, _, _, ht, hf, hcalls, by simp⟩
  | cons l tr ih =>
    cases hcalls with
    | nil => exact .inl ⟨[], l :: tr, s, rfl, .refl s, h, ht, Nat.zero_le _⟩
    | @cons n f ns calls hf hcalls =>
      obtain ⟨s₁, hc, hs, hrun⟩ := h.cons
      by_cases hl : l.thread = t
      · obtain ⟨rest', fs, ht', hm, hnext, -⟩ := hs.moves
        rw [hl, ht, List.cons_append] at ht'
        cases ht'
        rw [hl, ← List.append_assoc] at hnext
        obtain ⟨ms, hfs, hlt⟩ := hM.step _ _ _ _ _ _ hf hm
        have hall : List.Forall₂ within (ms ++ ns) (fs ++ calls) := List.rel_append hfs hcalls
        have hsum : (ms ++ ns).sum + 1 ≤ (n :: ns).sum := by
          rw [List.sum_append, List.sum_cons]
          omega
        rcases ih hrun hnext hall with
          hreturns | ⟨n', g, ns', calls', hst, hg, hcalls', hle⟩
        · exact .inl ((hreturns.cons hc hs).mono (by rwa [if_pos hl]))
        · refine .inr ⟨n', g, ns', calls', hst, hg, hcalls', ?_⟩
          rw [List.countP_cons_of_pos (by simpa using hl)]
          omega
      · rcases ih hrun ((hs.stays hl).trans ht) (.cons hf hcalls) with hreturns | hstill
        · exact .inl (by simpa [hl] using hreturns.cons hc hs)
        · exact .inr (by simpa [hl] using hstill)

-- ---------------------------------------------------------------------------
-- Calls of methods
-- ---------------------------------------------------------------------------

/-- Whatever it reads, the method is over after `n` accesses, with a result of
which `P` holds. -/
inductive Body.Ends (P : ρ → Prop) : Nat → Body α σ ρ → Prop
  | act : (∀ s, P (result s)) → Ends P (n + 1) (.act result)
  | read : (∀ x, Ends P n (next x)) → Ends P (n + 1) (.read next)

/-- The step of a call is its last, or goes on with a smaller rank. -/
def GoesOn (call : φ → Prop) (rank : φ → Nat) (f : φ) (r : ω × List φ) : Prop :=
  r.2 = [] ∨ ∃ g, r.2 = [g] ∧ call g ∧ rank g < rank f

variable {ι : Type} {part : ι → Type} {G : Guards M ι part} {call : φ → Prop} {d : Nat}

/-- Every step of a call goes on, and its methods have up to `d` accesses. -/
structure Guards.Counts (G : Guards M ι part) (call : φ → Prop) (rank : φ → Nat) (d : Nat) :
    Prop where
  pos : ∀ f, call f → 0 < rank f
  step : ∀ s f c r, call f → M.step s f c = some r → GoesOn call rank f r
  method : ∀ f c m, call f → G.method f c = some m → m.body.Ends (GoesOn call rank f) d

/-- A method makes a call, takes its lock and releases it, beside its accesses. -/
inductive LockedFrame.Within (call : φ → Prop) (rank : φ → Nat) (d : Nat) :
    Nat → LockedFrame φ κ ω σ ι part → Prop
  | plain : call f → Within call rank d ((d + 3) * rank f) (.plain f)
  | enter : call f → m.body.Ends (GoesOn call rank f) d →
      Within call rank d ((d + 3) * rank f - 1) (.enter f c m)
  | inside : call f → b.Ends (GoesOn call rank f) j →
      Within call rank d ((d + 3) * (rank f - 1) + 1 + j) (.inside f c m b)
  | leave : Within call rank d 1 (.leave i mode)

open LockedFrame (plain)

theorem GoesOn.within {r : ω × List φ} (h : GoesOn call rank f r) :
    ∃ ns, List.Forall₂ (LockedFrame.Within call rank d) ns
      (r.2.map plain : List (LockedFrame φ κ ω σ ι part)) ∧ ns.sum ≤ (d + 3) * (rank f - 1) := by
  rcases h with hnil | ⟨g, hone, hg, hlt⟩
  · rw [hnil]
    exact ⟨[], .nil, Nat.zero_le _⟩
  · rw [hone]
    refine ⟨[(d + 3) * rank g], .cons (.plain hg) .nil, ?_⟩
    rw [List.sum_singleton]
    exact Nat.mul_le_mul_left _ (Nat.le_sub_one_of_lt hlt)

theorem LockedFrame.Within.pos {f : LockedFrame φ κ ω σ ι part} (h : G.Counts call rank d)
    (hf : f.Within call rank d n) : 0 < n := by
  cases hf with
  | plain hf => exact Nat.mul_pos (Nat.succ_pos _) (h.pos _ hf)
  | @enter f m c hf =>
    have hle : (d + 3) * 1 ≤ (d + 3) * rank f := Nat.mul_le_mul_left _ (h.pos _ hf)
    omega
  | inside => omega
  | leave => exact Nat.one_pos

variable [DecidableEq ι]

theorem Guards.counts (h : G.Counts call rank d) :
    G.locked.Counts (LockedFrame.Within call rank d) where
  step n s f c op fs hf hstep := by
    have hsize : ∀ f, call f → (d + 3) * rank f = (d + 3) * (rank f - 1) + (d + 3) := fun f hf => by
      rw [← Nat.mul_succ, Nat.succ_eq_add_one, Nat.sub_add_cancel (h.pos f hf)]
    cases Guards.step_cases hstep with
    | plain _ hm =>
      cases hf with
      | plain hf =>
        obtain ⟨ns, hns, hle⟩ := (h.step _ _ _ _ hf hm).within
        exact ⟨ns, hns, by rw [hsize _ hf]; omega⟩
    | call hm =>
      cases hf with
      | plain hf =>
        refine ⟨_, .cons (.enter hf (h.method _ _ _ hf hm)) .nil, ?_⟩
        rw [List.sum_singleton, hsize _ hf]
        omega
    | acquire =>
      cases hf with
      | enter hf hm =>
        refine ⟨_, .cons (.inside hf hm) .nil, ?_⟩
        rw [List.sum_singleton, hsize _ hf]
        omega
    | read =>
      cases hf with
      | inside hf hb =>
        cases hb with
        | read hnext =>
          refine ⟨_, .cons (.inside hf (hnext _)) .nil, ?_⟩
          rw [List.sum_singleton]
          omega
    | act heq =>
      cases hf with
      | inside hf hb =>
        cases hb with
        | act hresult =>
          obtain ⟨ns, hns, hle⟩ := (hresult s.base).within
          rw [heq] at hns
          refine ⟨1 :: ns, .cons .leave hns, ?_⟩
          rw [List.sum_cons]
          omega
    | release =>
      cases hf with
      | leave => exact ⟨[], .nil, Nat.one_pos⟩

-- ---------------------------------------------------------------------------
-- Runs of our choice
-- ---------------------------------------------------------------------------

/-- Where some step always lowers the measure, there is a run to the end. -/
theorem Machine.exists_exec {I Done : State σ φ → Prop} {r : α → α → Prop} (hr : WellFounded r)
    (μ : State σ φ → α) (hs : I s)
    (hstep : ∀ s, I s → ¬ Done s → ∃ l s', C s l ∧ M.Step s l s' ∧ I s' ∧ r (μ s') (μ s)) :
    ∃ tr s', M.Exec C s tr s' ∧ I s' ∧ Done s' := by
  induction hn : μ s using hr.induction generalizing s with
  | _ n ih =>
    by_cases hd : Done s
    · exact ⟨[], s, .refl s, hs, hd⟩
    · obtain ⟨l, s₁, hc, hl, hs₁, hlt⟩ := hstep s hs hd
      obtain ⟨tr, s', hrun, hend⟩ := ih _ (hn ▸ hlt) hs₁ rfl
      exact ⟨l :: tr, s', (Machine.Exec.single hc hl).trans hrun, hend⟩

/-- The step lowers the rank, or the frame goes on with a smaller size. -/
def Machine.Lowers (M : Machine σ φ κ ω) (rank : φ → Nat) (size : σ → φ → Nat) (s : σ) (f : φ)
    (op : ω) (fs : List φ) : Prop :=
  weigh rank (fs : Multiset φ) < rank f ∨
    ∃ g, fs = [g] ∧ rank g = rank f ∧ size (M.apply s op) g < size s f

/-- The same for one thread, whose frames have ranks and sizes. -/
theorem Machine.exists_alone {I Done : State σ φ → Prop} (rank : φ → Nat) (size : σ → φ → Nat)
    (hs : I s)
    (hstep : ∀ s, I s → ¬ Done s → ∃ f rest c op fs, s.threads[t]? = some (f :: rest) ∧
      M.step s.shared f c = some (op, fs) ∧ M.Lowers rank size s.shared f op fs ∧
      C s ⟨t, f, c, op⟩ ∧
      ∀ s', M.Step s ⟨t, f, c, op⟩ s' → s'.threads[t]? = some (fs ++ rest) → I s') :
    ∃ tr s', M.Exec (fun s l => C s l ∧ l.thread = t) s tr s' ∧ I s' ∧ Done s' := by
  let μ (s : State σ φ) : Nat × Nat := (s.threads[t]?).elim (0, 0) fun stack =>
    (weigh rank (stack : Multiset φ), stack.head?.elim 0 (size s.shared))
  refine M.exists_exec (WellFounded.prod_lex wellFounded_lt wellFounded_lt) μ hs ?_
  intro s hs hd
  obtain ⟨f, rest, c, op, fs, ht, hm, hlower, hc, hnext⟩ := hstep s hs hd
  obtain ⟨s', hl, hsh, ht'⟩ := M.exists_step ht hm
  refine ⟨_, s', ⟨hc, rfl⟩, hl, hnext s' hl ht', ?_⟩
  simp only [μ, ht, ht', Option.elim_some]
  rcases hlower with hlt | ⟨g, rfl, heq, hlt⟩
  · refine Prod.Lex.left _ _ ?_
    simp only [← Multiset.coe_add, weigh_add, weigh_coe_cons]
    omega
  · simp only [List.singleton_append, weigh_coe_cons, heq, List.head?_cons, Option.elim_some, hsh]
    exact Prod.Lex.right _ hlt

end Interleaving
