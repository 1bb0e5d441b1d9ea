import Mathlib.Logic.Basic

/-!
# The Gregorian calendar

A date has a number, the days since the first of January of an epoch year, and
every number is that of a date (`Date.exists_isDay`), because every number below
the sum of a row of lengths is a position in it.
-/

namespace Calendar

-- ---------------------------------------------------------------------------
-- Positions
-- ---------------------------------------------------------------------------

/-- Where entry `i` of a row of lengths starts. -/
def startOf : List Nat → Nat → Nat
  | n :: table, i + 1 => n + startOf table i
  | _, _ => 0

/-- `t` is `r` past the start of entry `i`. -/
structure Located (table : List Nat) (t i r : Nat) : Prop where
  start : t = startOf table i + r
  within : ∃ n, table[i]? = some n ∧ r < n

theorem Located.cases (h : Located (n :: table) t i r) :
    (i = 0 ∧ t = r ∧ r < n) ∨ ∃ j u, i = j + 1 ∧ t = n + u ∧ Located table u j r := by
  obtain ⟨hstart, m, hm, hr⟩ := h
  cases i with
  | zero =>
    cases hm
    exact .inl ⟨rfl, by simpa [startOf] using hstart, hr⟩
  | succ j =>
    refine .inr ⟨j, startOf table j + r, rfl, ?_, rfl, m, hm, hr⟩
    rw [hstart, startOf, Nat.add_assoc]

theorem exists_located (h : t < startOf table table.length) : ∃ i r, Located table t i r := by
  induction table generalizing t with
  | nil => exact absurd h (Nat.not_lt_zero t)
  | cons n table ih =>
    by_cases hlt : t < n
    · exact ⟨0, t, (Nat.zero_add t).symm, n, rfl, hlt⟩
    · rw [List.length_cons, startOf] at h
      obtain ⟨i, r, hstart, hwithin⟩ := ih (t := t - n) (by omega)
      exact ⟨i + 1, r, by rw [startOf]; omega, hwithin⟩

theorem Located.lt (h : Located table t i r) : t < startOf table table.length := by
  induction table generalizing t i with
  | nil =>
    obtain ⟨n, hn, -⟩ := h.within
    cases hn
  | cons n table ih =>
    rw [List.length_cons, startOf]
    rcases h.cases with ⟨rfl, rfl, hlt⟩ | ⟨j, u, rfl, rfl, hu⟩
    · omega
    · exact Nat.add_lt_add_left (ih hu) n

-- ---------------------------------------------------------------------------
-- Dates
-- ---------------------------------------------------------------------------

def isLeap (y : Nat) : Bool := (y % 4 == 0 && y % 100 != 0) || y % 400 == 0

def months (leap : Bool) : List Nat :=
  [31, if leap then 29 else 28, 31, 30, 31, 30, 31, 31, 30, 31, 30, 31]

def yearLength (y : Nat) : Nat := startOf (months (isLeap y)) 12

/-- The first day of the year that is `n` years after `epoch`. -/
def yearStart (epoch : Nat) : Nat → Nat
  | 0 => 0
  | n + 1 => yearStart epoch n + yearLength (epoch + n)

structure Date where
  year : Nat
  month : Nat
  day : Nat
  deriving DecidableEq, Repr

/-- Day `t` since the first of January of `epoch` is `d`. -/
structure Date.IsDay (epoch t : Nat) (d : Date) : Prop where
  month : 1 ≤ d.month
  day : 1 ≤ d.day
  located : ∃ n k, d.year = epoch + n ∧ t = yearStart epoch n + k ∧
    Located (months (isLeap d.year)) k (d.month - 1) (d.day - 1)

theorem yearLength_eq (y : Nat) : yearLength y = if isLeap y then 366 else 365 := by
  cases h : isLeap y <;> simp [yearLength, h, months, startOf]

theorem yearStart_mono (h : n ≤ n') : yearStart epoch n ≤ yearStart epoch n' := by
  induction h with
  | refl => exact Nat.le_refl _
  | step _ ih => exact Nat.le_trans ih (Nat.le_add_right _ _)

theorem exists_year (epoch t : Nat) :
    ∃ n k, t = yearStart epoch n + k ∧ k < yearLength (epoch + n) := by
  have hpos : ∀ y, 0 < yearLength y := fun y => by rw [yearLength_eq]; split <;> decide
  induction t with
  | zero => exact ⟨0, 0, rfl, hpos _⟩
  | succ t ih =>
    obtain ⟨n, k, rfl, hk⟩ := ih
    by_cases hlast : k + 1 = yearLength (epoch + n)
    · exact ⟨n + 1, 0, by rw [yearStart, ← hlast]; omega, hpos _⟩
    · exact ⟨n, k + 1, rfl, by omega⟩

theorem Date.exists_isDay (epoch t : Nat) : ∃ d : Date, d.IsDay epoch t := by
  obtain ⟨n, k, ht, hk⟩ := exists_year epoch t
  obtain ⟨i, r, hloc⟩ := exists_located hk
  exact ⟨⟨epoch + n, i + 1, r + 1⟩, Nat.succ_pos _, Nat.succ_pos _, n, k, rfl, ht, hloc⟩

end Calendar
