import Mathlib.Logic.Function.Basic

/-!
# The thread-safe containers

Every method of these classes holds the container's lock for its whole body,
so each function below is one atomic step of a thread.
-/

namespace XianNet

/-- `SpinlockQueue<T>`, front first. -/
abbrev SpinlockQueue (α : Type) := List α

namespace SpinlockQueue

def push (q : SpinlockQueue α) (x : α) : SpinlockQueue α := q ++ [x]

/-- `PopFront`: the front, `none` for `nullptr`, and what is left. -/
def popFront : SpinlockQueue α → Option α × SpinlockQueue α
  | [] => (none, [])
  | x :: q => (some x, q)

/-- `GetSize` returns an `int`. It takes no lock. -/
def getSize (q : SpinlockQueue α) : Int := q.length

end SpinlockQueue

/-- `RwlockUnorderedMap<K, V>`, as the partial function it stores. -/
structure RwlockUnorderedMap (κ α : Type) where
  find : κ → Option α

namespace RwlockUnorderedMap

def empty : RwlockUnorderedMap κ α := ⟨fun _ => none⟩

@[simp] theorem find_empty (k : κ) : (empty : RwlockUnorderedMap κ α).find k = none := rfl

variable [DecidableEq κ]

/-- `unordered_map::emplace` keeps an entry that is already there. -/
def emplace (m : RwlockUnorderedMap κ α) (k : κ) (v : α) : RwlockUnorderedMap κ α :=
  if (m.find k).isSome then m else ⟨Function.update m.find k (some v)⟩

def erase (m : RwlockUnorderedMap κ α) (k : κ) : RwlockUnorderedMap κ α :=
  ⟨Function.update m.find k none⟩

theorem find_emplace (m : RwlockUnorderedMap κ α) (k k' : κ) (v : α) :
    (m.emplace k v).find k' = if k' = k ∧ m.find k = none then some v else m.find k' := by
  unfold emplace
  by_cases hk : k' = k
  · subst hk
    cases h : m.find k' <;> simp [h]
  · cases h : m.find k <;> simp [hk]

theorem isSome_find_emplace (m : RwlockUnorderedMap κ α) (k : κ) (v : α) :
    ((m.emplace k v).find k).isSome := by
  rw [find_emplace]
  cases m.find k <;> simp

theorem find_erase (m : RwlockUnorderedMap κ α) (k k' : κ) :
    (m.erase k).find k' = if k' = k then none else m.find k' := by
  by_cases hk : k' = k
  · subst hk; simp [erase]
  · simp [erase, hk]

end RwlockUnorderedMap

end XianNet
