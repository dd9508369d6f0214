/-!
# Logwire.Time.Calendar

The Gregorian calendar, extended to all years.  A day has a number: day 0 is
the first of January of the year 1.

* `daysBeforeYear_yearOf_le`, `lt_daysBeforeYear_yearOf` — a day lies in its year;
* `dayNumber_ofDayNumber` — the date of a day number has that number;
* `valid_ofDayNumber` — and it is a date of the calendar.
-/

namespace Logwire.Time

/-! ## Years and months -/

/-- A leap year has 366 days. -/
def isLeap (year : Int) : Bool := year % 4 = 0 && (year % 100 ≠ 0 || year % 400 = 0)

def monthLengths (year : Int) : List Nat :=
  [31, if isLeap year then 29 else 28, 31, 30, 31, 30, 31, 31, 30, 31, 30, 31]

/-- The days of months of the given lengths. -/
def daysOf : List Nat → Nat
  | [] => 0
  | length :: rest => length + daysOf rest

/-- The length of a month, counted from 1; zero for a month that does not exist. -/
def daysInMonth (year : Int) (month : Nat) : Nat :=
  match month with
  | 0 => 0
  | m + 1 => (monthLengths year).getD m 0

/-- A month has 31 days at most. -/
theorem daysInMonth_le (year : Int) (month : Nat) : daysInMonth year month ≤ 31 := by
  have hall : ∀ n ∈ monthLengths year, n ≤ 31 := by
    unfold monthLengths
    split <;> decide
  cases month with
  | zero => exact Nat.zero_le _
  | succ m =>
    simp only [daysInMonth, List.getD_eq_getElem?_getD]
    rcases h : (monthLengths year)[m]? with _ | n
    · exact Nat.zero_le _
    · exact hall n (List.mem_of_getElem? h)

/-- The days of the months before a month, which is counted from 1. -/
def daysBeforeMonth (year : Int) (month : Nat) : Nat :=
  daysOf ((monthLengths year).take (month - 1))

/-- The number of the first day of a year. -/
def daysBeforeYear (year : Int) : Int :=
  365 * (year - 1) + (year - 1) / 4 - (year - 1) / 100 + (year - 1) / 400

/-- A year is as long as its months together. -/
theorem daysBeforeYear_succ (year : Int) :
    daysBeforeYear (year + 1) = daysBeforeYear year + daysOf (monthLengths year) := by
  unfold daysBeforeYear monthLengths isLeap
  by_cases h4 : year % 4 = 0 <;> by_cases h100 : year % 100 = 0 <;>
    by_cases h400 : year % 400 = 0 <;> simp [daysOf, h4, h100, h400] <;> omega

/-! ## Dates -/

/-- A date, with month and day counted from 1. -/
structure Date where
  year : Int
  month : Nat
  day : Nat
  deriving DecidableEq, Repr

namespace Date

def Valid (d : Date) : Prop :=
  1 ≤ d.month ∧ d.month ≤ 12 ∧ 1 ≤ d.day ∧ d.day ≤ daysInMonth d.year d.month

instance (d : Date) : Decidable d.Valid := inferInstanceAs (Decidable (_ ∧ _ ∧ _ ∧ _))

def dayNumber (d : Date) : Int :=
  daysBeforeYear d.year + daysBeforeMonth d.year d.month + (d.day - 1 : Nat)

end Date

/-- The year of a day.  The mean length of a year gives it up to one. -/
def yearOf (n : Int) : Int :=
  let guess := n * 400 / 146097 + 1
  if daysBeforeYear (guess + 1) ≤ n then guess + 1
  else if n < daysBeforeYear guess then guess - 1
  else guess

/-- The year of a day has begun. -/
theorem daysBeforeYear_yearOf_le (n : Int) : daysBeforeYear (yearOf n) ≤ n := by
  unfold yearOf daysBeforeYear
  simp only
  split
  · omega
  · split <;> omega

/-- The next one has not. -/
theorem lt_daysBeforeYear_yearOf (n : Int) : n < daysBeforeYear (yearOf n + 1) := by
  unfold yearOf daysBeforeYear
  simp only
  split
  · omega
  · split <;> omega

/-- Whole months that fit into a number of days, and the days left over. -/
def splitMonths : List Nat → Nat → Nat × Nat
  | [], d => (0, d)
  | length :: rest, d =>
    if d < length then (0, d)
    else ((splitMonths rest (d - length)).1 + 1, (splitMonths rest (d - length)).2)

/-- The months and the days left over make up the number. -/
theorem splitMonths_days (lengths : List Nat) (d : Nat) :
    daysOf (lengths.take (splitMonths lengths d).1) + (splitMonths lengths d).2 = d := by
  induction lengths generalizing d with
  | nil => simp [splitMonths, daysOf]
  | cons length rest ih =>
    unfold splitMonths
    split
    · simp [daysOf]
    · have := ih (d - length)
      simp only [List.take_succ_cons, daysOf]
      omega

/-- The days that are left over lie within the month that follows. -/
theorem splitMonths_bounds (lengths : List Nat) (d : Nat) (h : d < daysOf lengths) :
    (splitMonths lengths d).1 < lengths.length ∧
      (splitMonths lengths d).2 < lengths.getD (splitMonths lengths d).1 0 := by
  induction lengths generalizing d with
  | nil => simp [daysOf] at h
  | cons length rest ih =>
    unfold splitMonths
    split
    · rename_i hd
      exact ⟨by simp, by simpa using hd⟩
    · rw [daysOf] at h
      obtain ⟨h1, h2⟩ := ih (d - length) (by omega)
      exact ⟨by simpa using h1, by simpa using h2⟩

def Date.ofDayNumber (n : Int) : Date :=
  let year := yearOf n
  let split := splitMonths (monthLengths year) (n - daysBeforeYear year).toNat
  ⟨year, split.1 + 1, split.2 + 1⟩

/-- The date of a day has its number. -/
theorem dayNumber_ofDayNumber (n : Int) : (Date.ofDayNumber n).dayNumber = n := by
  have h1 := daysBeforeYear_yearOf_le n
  have h2 := splitMonths_days (monthLengths (yearOf n)) (n - daysBeforeYear (yearOf n)).toNat
  simp only [Date.ofDayNumber, Date.dayNumber, daysBeforeMonth, Nat.add_sub_cancel]
  omega

theorem length_monthLengths (year : Int) : (monthLengths year).length = 12 := rfl

/-- The date of a day is one of the calendar. -/
theorem valid_ofDayNumber (n : Int) : (Date.ofDayNumber n).Valid := by
  have h1 := daysBeforeYear_yearOf_le n
  have h2 := lt_daysBeforeYear_yearOf n
  rw [daysBeforeYear_succ] at h2
  obtain ⟨h3, h4⟩ := splitMonths_bounds (monthLengths (yearOf n))
    (n - daysBeforeYear (yearOf n)).toNat (by omega)
  rw [length_monthLengths] at h3
  simp only [Date.ofDayNumber, Date.Valid, daysInMonth]
  omega

end Logwire.Time
