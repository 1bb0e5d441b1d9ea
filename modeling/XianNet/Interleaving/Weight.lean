import Mathlib.Algebra.BigOperators.Group.Multiset.Basic
import Mathlib.Data.Multiset.Count

/-!
# Weighing the frames

A conservation law of a machine gives every frame a weight and compares the
total with the shared state. A step then only has to balance the frame it
replaces against the frames it puts in its place.
-/

namespace Interleaving

def weigh (w : φ → Nat) (F : Multiset φ) : Nat := (F.map w).sum

variable {w : φ → Nat} {F : Multiset φ}

@[simp] theorem weigh_cons (f : φ) : weigh w (f ::ₘ F) = w f + weigh w F := by
  simp [weigh]

@[simp] theorem weigh_add (F' : Multiset φ) : weigh w (F + F') = weigh w F + weigh w F' := by
  simp [weigh]

@[simp] theorem weigh_zero : weigh w 0 = 0 := rfl

@[simp] theorem weigh_coe_nil : weigh w (([] : List φ) : Multiset φ) = 0 := rfl

@[simp] theorem weigh_coe_cons (f : φ) (fs : List φ) :
    weigh w ((f :: fs : List φ) : Multiset φ) = w f + weigh w (fs : Multiset φ) := by
  rw [← Multiset.cons_coe, weigh_cons]

@[simp] theorem weigh_singleton (f : φ) : weigh w {f} = w f := by
  simp [weigh]

theorem weigh_eq_zero (h : ∀ f ∈ F, w f = 0) : weigh w F = 0 := by
  refine Multiset.sum_eq_zero ?_
  intro x hx
  obtain ⟨f, hf, rfl⟩ := Multiset.mem_map.mp hx
  exact h f hf

theorem exists_of_weigh_ne_zero (h : weigh w F ≠ 0) : ∃ f ∈ F, w f ≠ 0 := by
  by_contra hno
  exact h (weigh_eq_zero fun f hf => by_contra fun hne => hno ⟨f, hf, hne⟩)

theorem le_weigh (h : f ∈ F) : w f ≤ weigh w F := by
  obtain ⟨R, rfl⟩ := Multiset.exists_cons_of_mem h
  simp

theorem weigh_le (h : ∀ f ∈ F, w f ≤ w' f) : weigh w F ≤ weigh w' F := by
  induction F using Multiset.induction_on with
  | empty => exact Nat.le_refl _
  | cons f F ih =>
    rw [weigh_cons, weigh_cons]
    exact Nat.add_le_add (h f (Multiset.mem_cons_self f F))
      (ih fun g hg => h g (Multiset.mem_cons_of_mem hg))

theorem weigh_congr (h : ∀ f ∈ F, w f = w' f) : weigh w F = weigh w' F := by
  rw [weigh, weigh, Multiset.map_congr rfl h]

theorem card_filterMap (g : φ → Option ψ) (F : Multiset φ) :
    (F.filterMap g).card = weigh (fun f => (g f).isSome.toNat) F := by
  induction F using Multiset.induction_on with
  | empty => rfl
  | cons f F ih =>
    rw [weigh_cons, ← ih, Multiset.filterMap_cons]
    cases g f <;> simp [Nat.add_comm]

/-- The weight of a predicate counts the frames that satisfy it. -/
theorem weigh_toNat (p : φ → Bool) (F : Multiset φ) :
    weigh (fun f => (p f).toNat) F = F.countP (p ·) := by
  induction F using Multiset.induction_on with
  | empty => rfl
  | cons f F ih =>
    rw [weigh_cons, ih, Multiset.countP_cons, Nat.add_comm]
    cases p f <;> rfl

theorem weigh_fun_add (w w' : φ → Nat) (F : Multiset φ) :
    weigh (fun f => w f + w' f) F = weigh w F + weigh w' F := by
  simp [weigh]

end Interleaving
