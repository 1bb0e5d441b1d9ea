import Mathlib.Algebra.Group.Nat.Defs
import XianNet.Time.Calendar

/-!
# The clock of the log

`OpenTime` turns the seconds since 1970 into the date that a line of the log
starts with. Its last loop, for the leap years from 1976 on, lacks the `return`
of the others. So in these years it names the date in December only, and
December all year: `unixtimeToDate_iff`.
-/

namespace XianNet

open Calendar

/-- `unixtime_` with the shift of the time zone stays below 2^63. -/
structure OpenTime where
  second : Nat := 0
  minute : Nat := 0
  hour : Nat := 0
  day : Nat := 0
  month : Nat := 0
  year : Nat := 0
  timezone : Nat := 8
  unixtime : Nat
  deriving DecidableEq, Repr

namespace OpenTime

def dayOfMonths : Bool → List Nat
  | false => [31, 28, 31, 30, 31, 30, 31, 31, 30, 31, 30, 31]
  | true => [31, 29, 31, 30, 31, 30, 31, 31, 30, 31, 30, 31]

/-- A piece of `unixtimeToDate` goes on with `tempTS`, or it has returned. -/
inductive Flow
  | next (o : OpenTime) (tempTS : Nat)
  | ret (o : OpenTime)

def Flow.andThen : Flow → (OpenTime → Nat → Flow) → Flow
  | .next o tempTS, k => k o tempTS
  | .ret o, _ => .ret o

/-- The loop over the months `j` of `table`. -/
def monthLoop : List Nat → Nat → OpenTime → Nat → Flow
  | [], _, o, tempTS => .next o tempTS
  | n :: table, j, o, tempTS =>
    if n ≤ tempTS then monthLoop table (j + 1) { o with month := j + 1 } (tempTS - n)
    else .ret { o with month := j + 1, day := tempTS + 1 }

/-- The loop without a `return`. -/
def lastMonthLoop : List Nat → Nat → OpenTime → Nat → OpenTime
  | [], _, o, _ => o
  | n :: table, j, o, tempTS =>
    if n ≤ tempTS then lastMonthLoop table (j + 1) { o with month := j + 1 } (tempTS - n)
    else lastMonthLoop table (j + 1) { o with month := j + 1, day := tempTS + 1 } tempTS

/-- Either the year is over, or the date is in it. -/
def yearStep (leap : Bool) (length : Nat) (o : OpenTime) (tempTS : Nat) : Flow :=
  if length ≤ tempTS then .next { o with year := (o.year + 1) % 2 ^ 32 } (tempTS - length)
  else monthLoop (dayOfMonths leap) 0 o tempTS

/-- The loop over `count` years. -/
def yearLoop : Nat → OpenTime → Nat → Flow
  | 0, o, tempTS => .next o tempTS
  | count + 1, o, tempTS => (yearStep false 365 o tempTS).andThen (yearLoop count)

/-- From 1973 on, in cycles of four years of which the last is a leap year. -/
def cycles (o : OpenTime) (tempTS : Nat) : Flow :=
  let years := tempTS / (365 * 4 + 1) * 4 % 2 ^ 32
  (yearLoop 3 { o with year := (o.year + years) % 2 ^ 32 } (tempTS % (365 * 4 + 1))).andThen
    fun o tempTS => .ret (lastMonthLoop (dayOfMonths true) 0 o tempTS)

/-- The date of day `tempTS` since 1970. -/
def days (o : OpenTime) (tempTS : Nat) : Flow :=
  ((yearLoop 2 o tempTS).andThen (yearStep true 366)).andThen cycles

/-- The seconds of the clock in the time zone. -/
def shifted (o : OpenTime) : Nat := o.unixtime + 3600 * o.timezone

/-- The time of day, before the loops. -/
def setTime (o : OpenTime) : OpenTime :=
  { o with
    second := o.shifted % 60
    minute := o.shifted / 60 % 60
    hour := o.shifted / 60 / 60 % 24
    year := 1970 }

def unixtimeToDate (o : OpenTime) : OpenTime :=
  match days o.setTime (o.shifted / 60 / 60 / 24) with
  | .next o _ | .ret o => o

/-- `OpenTime()` at a time of the clock. -/
def now (time : Nat) : OpenTime := unixtimeToDate { unixtime := time }

def date (o : OpenTime) : Date := ⟨o.year, o.month, o.day⟩

-- ---------------------------------------------------------------------------
-- The loops
-- ---------------------------------------------------------------------------

variable {o : OpenTime}

theorem monthLoop_of_located (h : Located table t i r) :
    monthLoop table j o t = .ret { o with month := j + i + 1, day := r + 1 } := by
  induction table generalizing t i j o with
  | nil =>
    obtain ⟨n, hn, -⟩ := h.within
    cases hn
  | cons n table ih =>
    rcases h.cases with ⟨rfl, rfl, hlt⟩ | ⟨i, u, rfl, rfl, hu⟩
    · rw [monthLoop, if_neg (Nat.not_le.mpr hlt), Nat.add_zero]
    · rw [monthLoop, if_pos (Nat.le_add_right _ _), Nat.add_sub_cancel_left, ih hu,
        Nat.add_right_comm j 1 i]
      rfl

theorem lastMonthLoop_eq (table : List Nat) (j t : Nat) (o : OpenTime) :
    ∃ month day, lastMonthLoop table j o t = { o with month, day } := by
  induction table generalizing t j o with
  | nil => exact ⟨o.month, o.day, rfl⟩
  | cons n table ih =>
    rw [lastMonthLoop]
    split
    · obtain ⟨month, day, h⟩ := ih (j + 1) (t - n) { o with month := j + 1 }
      exact ⟨month, day, h⟩
    · obtain ⟨month, day, h⟩ := ih (j + 1) t { o with month := j + 1, day := t + 1 }
      exact ⟨month, day, h⟩

/-- Whatever the date is, the loop ends with the last month. -/
theorem lastMonthLoop_month (h : table ≠ []) :
    (lastMonthLoop table j o t).month = j + table.length := by
  induction table generalizing t j o with
  | nil => exact absurd rfl h
  | cons n table ih =>
    by_cases hnil : table = []
    · subst hnil
      rw [lastMonthLoop]
      split <;> rfl
    · rw [lastMonthLoop, List.length_cons]
      split <;> rw [ih hnil] <;> omega

theorem lastMonthLoop_day (h : Located table t i r) (hi : i + 1 = table.length) :
    (lastMonthLoop table j o t).day = r + 1 := by
  induction table generalizing t i j o with
  | nil => cases hi
  | cons n table ih =>
    rcases h.cases with ⟨rfl, rfl, hlt⟩ | ⟨i, u, rfl, rfl, hu⟩
    · obtain rfl : table = [] := List.length_eq_zero_iff.mp (by simpa using hi.symm)
      rw [lastMonthLoop, if_neg (Nat.not_le.mpr hlt)]
      rfl
    · rw [lastMonthLoop, if_pos (Nat.le_add_right _ _), Nat.add_sub_cancel_left]
      exact ih hu (Nat.succ.inj hi)

theorem yearLoop_next (h : o.year + count < 2 ^ 32) :
    yearLoop count o (365 * count + t) = .next { o with year := o.year + count } t := by
  induction count generalizing o with
  | zero => simp [yearLoop]
  | succ count ih =>
    rw [yearLoop, yearStep, if_pos (by omega), Flow.andThen, Nat.mod_eq_of_lt (by omega),
      show 365 * (count + 1) + t - 365 = 365 * count + t by omega, ih (by simp only; omega)]
    simp only [Flow.next.injEq, mk.injEq, true_and, and_true]
    omega

theorem yearLoop_ret (hi : i < count) (h : o.year + i < 2 ^ 32)
    (ht : Located (dayOfMonths false) t m r) (hlt : t < 365) :
    yearLoop count o (365 * i + t) =
      .ret { o with year := o.year + i, month := m + 1, day := r + 1 } := by
  induction count generalizing o i with
  | zero => cases hi
  | succ count ih =>
    rw [yearLoop, yearStep]
    cases i with
    | zero =>
      rw [if_neg (by omega), show 365 * 0 + t = t by omega, monthLoop_of_located ht, Nat.zero_add]
      rfl
    | succ i =>
      rw [if_pos (by omega), Flow.andThen, Nat.mod_eq_of_lt (by omega),
        show 365 * (i + 1) + t - 365 = 365 * i + t by omega,
        ih (Nat.lt_of_succ_lt_succ hi) (by simp only; omega)]
      simp only [Flow.ret.injEq, mk.injEq, true_and, and_true]
      omega

-- ---------------------------------------------------------------------------
-- Until 2100
-- ---------------------------------------------------------------------------

theorem isLeap_eq (h : n < 130) : isLeap (1970 + n) = decide (n % 4 = 2) := by
  by_cases hn : n % 4 = 2
  · simp only [hn, decide_true, isLeap, Bool.or_eq_true, Bool.and_eq_true, beq_iff_eq, bne_iff_ne]
    omega
  · simp only [hn, decide_false, isLeap, Bool.or_eq_false_iff, Bool.and_eq_false_iff,
      beq_eq_false_iff_ne]
    omega

theorem yearStart_eq (h : n ≤ 130) : yearStart 1970 n = 365 * n + (n + 1) / 4 := by
  induction n with
  | zero => rfl
  | succ n ih =>
    rw [yearStart, ih (by omega), yearLength_eq, isLeap_eq (by omega)]
    by_cases hn : n % 4 = 2
    · simp only [hn, decide_true, ↓reduceIte]
      omega
    · simp only [hn, decide_false, Bool.false_eq_true, ↓reduceIte]
      omega

theorem dayOfMonths_eq (leap : Bool) : dayOfMonths leap = months leap := by
  cases leap <;> rfl

theorem located_lt (h : Located (dayOfMonths leap) t m r) : t < if leap then 366 else 365 := by
  cases leap <;> exact h.lt

/-- The first three years are over. -/
theorem days_next (ho : o.year = 1970) : days o (1096 + t) = cycles { o with year := 1973 } t := by
  rw [days, show 1096 + t = 365 * 2 + (366 + t) by omega, yearLoop_next (by omega)]
  have hyear : (1970 + 2 + 1) % 2 ^ 32 = 1973 := rfl
  simp only [Flow.andThen, yearStep, if_pos (Nat.le_add_right 366 t), Nat.add_sub_cancel_left, ho,
    hyear]

theorem cycles_eq (hq : q < 2 ^ 20) (ht : t < 1461) :
    cycles { o with year := 1973 } (1461 * q + t) =
      (yearLoop 3 { o with year := 1973 + 4 * q } t).andThen fun o t =>
        .ret (lastMonthLoop (dayOfMonths true) 0 o t) := by
  have hyears : (1461 * q + t) / (365 * 4 + 1) * 4 % 2 ^ 32 = 4 * q := by omega
  have hrest : (1461 * q + t) % (365 * 4 + 1) = t := by omega
  rw [cycles, hyears, hrest, Nat.mod_eq_of_lt (by simp only; omega)]

/-- The years before 1976, and those that are no leap years. -/
theorem days_of_located (ho : o.year = 1970) (hn : n < 130) (hleap : n % 4 = 2 → n = 2)
    (h : Located (months (isLeap (1970 + n))) t m r) :
    days o (yearStart 1970 n + t) =
      .ret { o with year := 1970 + n, month := m + 1, day := r + 1 } := by
  rw [← dayOfMonths_eq, isLeap_eq hn] at h
  rw [yearStart_eq (Nat.le_of_lt hn)]
  by_cases h2 : n = 2
  · subst h2
    have h : Located (dayOfMonths true) t m r := h
    have hlt : t < 366 := located_lt h
    rw [days, show 365 * 2 + (2 + 1) / 4 + t = 365 * 2 + t by omega, yearLoop_next (by omega),
      Flow.andThen, yearStep, if_neg (by omega), monthLoop_of_located h, Flow.andThen, ho,
      Nat.zero_add]
  · rw [decide_eq_false (fun hmod => h2 (hleap hmod))] at h
    have hlt : t < 365 := located_lt h
    by_cases hfirst : n < 2
    · rw [days, show 365 * n + (n + 1) / 4 + t = 365 * n + t by omega,
        yearLoop_ret hfirst (by omega) h hlt, Flow.andThen, Flow.andThen, ho]
    · obtain ⟨q, i, rfl, hi⟩ : ∃ q i, n = 3 + 4 * q + i ∧ i < 3 :=
        ⟨(n - 3) / 4, (n - 3) % 4, by omega, by omega⟩
      rw [show 365 * (3 + 4 * q + i) + (3 + 4 * q + i + 1) / 4 + t =
          1096 + (1461 * q + (365 * i + t)) by omega, days_next ho, cycles_eq (by omega) (by omega),
        yearLoop_ret hi (by simp only; omega) h hlt, Flow.andThen]
      simp only [Flow.ret.injEq, mk.injEq, true_and, and_true]
      omega

theorem days_of_leap (ho : o.year = 1970) (hn : n < 130) (hleap : n % 4 = 2) (hlt : 2 < n)
    (ht : t < 366) :
    days o (yearStart 1970 n + t) =
      .ret (lastMonthLoop (dayOfMonths true) 0 { o with year := 1970 + n } t) := by
  rw [yearStart_eq (Nat.le_of_lt hn)]
  obtain ⟨q, rfl⟩ : ∃ q, n = 6 + 4 * q := ⟨(n - 6) / 4, by omega⟩
  rw [show 365 * (6 + 4 * q) + (6 + 4 * q + 1) / 4 + t = 1096 + (1461 * q + (365 * 3 + t)) by omega,
    days_next ho, cycles_eq (by omega) (by omega), yearLoop_next (by simp only; omega), Flow.andThen,
    show 1973 + 4 * q + 3 = 1970 + (6 + 4 * q) by omega]

theorem unixtimeToDate_of_days (h : days o.setTime (o.shifted / 86400) = .ret o') :
    o.unixtimeToDate = o' := by
  rw [unixtimeToDate, Nat.div_div_eq_div_mul, Nat.div_div_eq_div_mul, h]

theorem setTime_spec (o : OpenTime) : o.setTime.hour < 24 ∧ o.setTime.minute < 60 ∧
    o.setTime.second < 60 ∧
    (o.setTime.hour * 60 + o.setTime.minute) * 60 + o.setTime.second = o.shifted % 86400 := by
  simp only [setTime]
  omega

theorem unixtimeToDate_isDay {d : Date} (hd : d.IsDay 1970 (o.shifted / 86400))
    (hyear : d.year < 2100) :
    (o.unixtimeToDate.date = d ↔ (isLeap d.year → d.year = 1972 ∨ d.month = 12)) ∧
      o.unixtimeToDate.hour < 24 ∧ o.unixtimeToDate.minute < 60 ∧ o.unixtimeToDate.second < 60 ∧
      (o.unixtimeToDate.hour * 60 + o.unixtimeToDate.minute) * 60 + o.unixtimeToDate.second =
        o.shifted % 86400 := by
  obtain ⟨hmonth, hday, n, t, hn, ht, hloc⟩ := hd
  obtain ⟨year, month, day⟩ := d
  simp only at hmonth hday hn hloc hyear ⊢
  subst hn
  have hn130 : n < 130 := by omega
  have hleap := isLeap_eq hn130
  by_cases hlate : n % 4 = 2 ∧ n ≠ 2
  · obtain ⟨hmod, hne⟩ := hlate
    rw [decide_eq_true hmod] at hleap
    rw [hleap, ← dayOfMonths_eq] at hloc
    have heq := unixtimeToDate_of_days (ht ▸ days_of_leap (o := o.setTime) rfl hn130 hmod
      (by omega) (located_lt hloc))
    obtain ⟨month', day', hlast⟩ :=
      lastMonthLoop_eq (dayOfMonths true) 0 t { o.setTime with year := 1970 + n }
    have hmonth' : month' = 12 := by
      have hne : dayOfMonths true ≠ [] := List.cons_ne_nil _ _
      have hlast' := lastMonthLoop_month (j := 0) (t := t)
        (o := { o.setTime with year := 1970 + n }) hne
      rwa [hlast] at hlast'
    rw [heq, hlast]
    refine ⟨?_, setTime_spec o⟩
    simp only [date, Date.mk.injEq, true_and, hleap, forall_const, hmonth']
    constructor
    · rintro ⟨rfl, -⟩
      exact .inr rfl
    · intro h
      obtain rfl := h.resolve_left (by omega)
      refine ⟨rfl, ?_⟩
      have hday' := lastMonthLoop_day (j := 0) (o := { o.setTime with year := 1970 + n }) hloc rfl
      rw [hlast] at hday'
      exact hday'.trans (Nat.sub_add_cancel hday)
  · have heq := unixtimeToDate_of_days (ht ▸ days_of_located (o := o.setTime) rfl hn130
      (by omega) hloc)
    rw [heq]
    refine ⟨?_, setTime_spec o⟩
    simp only [date, Nat.sub_add_cancel hmonth, Nat.sub_add_cancel hday, true_iff, hleap,
      decide_eq_true_eq]
    omega

/-- Until 2100 the time of day is right, and so is the date, unless it is in a
leap year from 1976 on and not in December. -/
theorem unixtimeToDate_iff (h : o.shifted < 4102444800) :
    ∃ d : Date, d.IsDay 1970 (o.shifted / 86400) ∧
      (o.unixtimeToDate.date = d ↔ (isLeap d.year → d.year = 1972 ∨ d.month = 12)) ∧
      o.unixtimeToDate.hour < 24 ∧ o.unixtimeToDate.minute < 60 ∧ o.unixtimeToDate.second < 60 ∧
      (o.unixtimeToDate.hour * 60 + o.unixtimeToDate.minute) * 60 + o.unixtimeToDate.second =
        o.shifted % 86400 := by
  obtain ⟨d, hd⟩ := Date.exists_isDay 1970 (o.shifted / 86400)
  refine ⟨d, hd, unixtimeToDate_isDay hd ?_⟩
  obtain ⟨-, -, n, k, hn, ht, -⟩ := hd
  have hlt : n < 130 := by
    refine Nat.lt_of_not_le fun hle => ?_
    have hstart : yearStart 1970 130 ≤ yearStart 1970 n := yearStart_mono hle
    rw [yearStart_eq (Nat.le_refl 130)] at hstart
    omega
  omega

/-- The log calls the last day of February 2024 a day of December. -/
theorem unixtimeToDate_iff_leapDay : ∃ d : Date, (OpenTime.now 1709179200).date = ⟨2024, 12, 29⟩ ∧
    d.IsDay 1970 19782 ∧ (⟨2024, 12, 29⟩ = d ↔ (isLeap d.year → d.year = 1972 ∨ d.month = 12)) := by
  obtain ⟨d, hd, hiff, -⟩ := unixtimeToDate_iff (o := { unixtime := 1709179200 }) (by decide)
  have hdate : (OpenTime.now 1709179200).date = ⟨2024, 12, 29⟩ := by decide +kernel
  exact ⟨d, hdate, hd, hdate ▸ hiff⟩

end OpenTime

end XianNet
