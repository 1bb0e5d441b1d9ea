import Mathlib.Data.List.TakeWhile

/-!
# Terminated sequences

A reader that knows no length stops at the first terminator. It finds what was
written in front of one only if the terminator does not occur in it. Where one
character's code is the terminator and no other code has it inside, the reader
finds the text up to that character.
-/

namespace Text

variable {α β : Type*} {z : β} {c₀ : α} {enc : α → List β} {cs : List α} {xs memory : List β}

/-- The code of `c₀` is the terminator, and no other code has it inside. -/
structure TerminatedBy (enc : α → List β) (c₀ : α) (z : β) : Prop where
  self : enc c₀ = [z]
  only : ∀ c, z ∈ enc c → c = c₀

theorem TerminatedBy.mem_iff (h : TerminatedBy enc c₀ z) : z ∈ cs.flatMap enc ↔ c₀ ∈ cs := by
  rw [List.mem_flatMap]
  constructor
  · rintro ⟨c, hc, hz⟩
    rwa [← h.only c hz]
  · intro hc
    exact ⟨c₀, hc, by simp [h.self]⟩

variable [DecidableEq α] [DecidableEq β]

/-- What a reader finds that stops at the first `z`. -/
def upTo (z : β) (memory : List β) : List β := memory.takeWhile (· ≠ z)

@[simp] theorem upTo_nil : upTo z [] = [] := rfl

@[simp] theorem upTo_self (rest : List β) : upTo z (z :: rest) = [] := by
  simp [upTo]

@[simp] theorem upTo_cons (h : x ≠ z) (rest : List β) : upTo z (x :: rest) = x :: upTo z rest := by
  simp [upTo, h]

theorem notMem_upTo : z ∉ upTo z memory := by
  intro h
  simpa using List.mem_takeWhile_imp h

theorem upTo_append (h : z ∉ xs) (rest : List β) : upTo z (xs ++ rest) = xs ++ upTo z rest :=
  List.takeWhile_append_of_pos fun x hx => by simpa using ne_of_mem_of_not_mem hx h

theorem upTo_eq_self_iff : upTo z xs = xs ↔ z ∉ xs := by
  constructor
  · intro h
    rw [← h]
    exact notMem_upTo
  · intro h
    simpa using upTo_append h []

theorem upTo_terminated (xs rest : List β) : upTo z (xs ++ z :: rest) = upTo z xs := by
  induction xs with
  | nil => simp
  | cons x xs ih =>
    by_cases h : x = z
    · subst h; simp
    · rw [List.cons_append, upTo_cons h, upTo_cons h, ih]

/-- To cut the code is to cut the text. -/
theorem TerminatedBy.upTo_encode (h : TerminatedBy enc c₀ z) (cs : List α) :
    upTo z (cs.flatMap enc) = (upTo c₀ cs).flatMap enc := by
  induction cs with
  | nil => simp
  | cons c cs ih =>
    by_cases hc : c = c₀
    · subst hc; simp [h.self]
    · rw [upTo_cons hc, List.flatMap_cons, List.flatMap_cons, ← ih]
      exact upTo_append (fun hz => hc (h.only c hz)) _

end Text
