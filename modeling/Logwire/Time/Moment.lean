import Logwire.Number.Decimal
import Logwire.Time.Calendar

/-!
# Logwire.Time.Moment

A moment is a date and a time of day, with the offset of the clock that shows
it when that is known.  It is written at the precision of a second:

```
YYYY-MM-DDThh:mm:ss        without an offset
YYYY-MM-DDThh:mm:ssZ       offset zero
YYYY-MM-DDThh:mm:ss+hh:mm  any other offset, with :ss when it has seconds
```

Fields may be given that make no moment.  The offset is looked at first, then
whether all fields fit into words of 32 bits, then their ranges.

* `moment_eq_ok_iff` — fields make a moment exactly when they are those of one in
  range.
-/

namespace Logwire.Time

open Number (padded)

/-- A date and a time of day.  The offset is in seconds east of UTC. -/
structure Moment where
  date : Date
  hour : Nat
  minute : Nat
  second : Nat
  microsecond : Nat
  offset : Option Int
  deriving DecidableEq, Repr

/-! ## Range of the fields -/

def secondsPerDay : Nat := 86400

/-- The fields that have a range. -/
inductive Field where
  | month
  | day
  | hour
  | minute
  | second
  | microsecond
  deriving DecidableEq, Repr

/-- How a number is too large for a word. -/
inductive WordFault where
  /-- Beyond 64 bits. -/
  | wide
  /-- Beyond 32 bits, to either side. -/
  | above
  | below
  deriving DecidableEq, Repr

/-- Why there is no such moment. -/
inductive FieldFault where
  | offset (seconds : Int)
  /-- An offset of so many days that they do not fit into a word. -/
  | offsetWord
  /-- An offset of more days than a span of time can have. -/
  | offsetDays (days : Int)
  | word (fault : WordFault)
  | year (year : Int)
  | field (which : Field)
  deriving DecidableEq, Repr

/-- A number is too large for its representation, as opposed to its meaning. -/
def FieldFault.isOverflow : FieldFault → Bool
  | .offsetWord | .offsetDays _ | .word _ => true
  | .offset _ | .year _ | .field _ => false

/-- The wording for a field out of its range. -/
def Field.message : Field → String
  | .month => "month must be in 1..12"
  | .day => "day is out of range for month"
  | .hour => "hour must be in 0..23"
  | .minute => "minute must be in 0..59"
  | .second => "second must be in 0..59"
  | .microsecond => "microsecond must be in 0..999999"

/-- A span of time in whole days and the seconds left over. -/
def spanText (seconds : Int) : String :=
  let days := seconds / secondsPerDay
  let rest := seconds % secondsPerDay
  let tail := if rest = 0 then "" else ", seconds=" ++ Number.intText rest
  "datetime.timedelta(days=" ++ Number.intText days ++ tail ++ ")"

/-- The wording for a year out of range. -/
def yearMessage (year : Int) : String := "year " ++ Number.intText year ++ " is out of range"

/-- The wording for a number that is too large for a word. -/
def WordFault.message : WordFault → String
  | .wide => "Python int too large to convert to C long"
  | .above => "signed integer is greater than maximum"
  | .below => "signed integer is less than minimum"

/-- The most days of a span of time. -/
def maxDays : Nat := 999999999

def FieldFault.message : FieldFault → String
  | .offset seconds =>
    "offset must be a timedelta strictly between -timedelta(hours=24) and timedelta(hours=24), not "
      ++ spanText seconds ++ "."
  | .offsetWord => "Python int too large to convert to C int"
  | .offsetDays days =>
    "days=" ++ Number.intText days ++ "; must have magnitude <= " ++ Number.intText maxDays
  | .word e => e.message
  | .year y => yearMessage y
  | .field which => which.message

/-- The years that can be written. -/
def yearInRange (year : Int) : Bool := 1 ≤ year && year ≤ 9999

/-- The fields of a moment as they are given, each perhaps out of its range. -/
structure Fields where
  year : Int
  month : Int
  day : Int
  hour : Int
  minute : Int
  second : Int
  microsecond : Int
  offset : Option Int
  deriving DecidableEq, Repr

/-- The first natural number that does not fit beside the sign into a word of so many bits. -/
def wordBound (bits : Nat) : Int := ((1 <<< (bits - 1) : Nat) : Int)

/-- What is wrong with an offset. -/
def offsetFault? (offset : Int) : Option FieldFault :=
  let days := offset / secondsPerDay
  if days < -wordBound 32 ∨ wordBound 32 ≤ days then some .offsetWord
  else if maxDays < days.natAbs then some (.offsetDays days)
  else if secondsPerDay ≤ offset.natAbs then some (.offset offset)
  else none

/-- How a number is too large for a word of 32 bits. -/
def wordFault? (i : Int) : Option WordFault :=
  if i < -wordBound 64 ∨ wordBound 64 ≤ i then some .wide
  else if wordBound 32 ≤ i then some .above
  else if i < -wordBound 32 then some .below
  else none

theorem offsetFault?_eq_none_iff (offset : Int) :
    offsetFault? offset = none ↔ offset.natAbs < secondsPerDay := by
  have h32 : wordBound 32 = 2147483648 := rfl
  unfold offsetFault? secondsPerDay maxDays
  simp only [h32]
  repeat' split
  all_goals simp
  all_goals omega

theorem wordFault?_eq_none_iff (i : Int) :
    wordFault? i = none ↔ -2147483648 ≤ i ∧ i < 2147483648 := by
  have h32 : wordBound 32 = 2147483648 := rfl
  have h64 : wordBound 64 = 9223372036854775808 := rfl
  unfold wordFault?
  simp only [h32, h64]
  repeat' split
  all_goals simp
  all_goals omega

namespace Fields

/-- The fields in order of size, without the offset. -/
def toList (f : Fields) : List Int :=
  [f.year, f.month, f.day, f.hour, f.minute, f.second, f.microsecond]

/-- The first field that is out of its range, in order of size. -/
def rangeFault? (f : Fields) : Option FieldFault :=
  if !yearInRange f.year then some (.year f.year)
  else if f.month < 1 ∨ 12 < f.month then some (.field .month)
  else if f.day < 1 ∨ daysInMonth f.year f.month.toNat < f.day then some (.field .day)
  else if f.hour < 0 ∨ 23 < f.hour then some (.field .hour)
  else if f.minute < 0 ∨ 59 < f.minute then some (.field .minute)
  else if f.second < 0 ∨ 59 < f.second then some (.field .second)
  else if f.microsecond < 0 ∨ 999999 < f.microsecond then some (.field .microsecond)
  else none

/-- What is wrong with the fields: the offset, then the first that fits into no word, then the
first that is out of its range. -/
def fault? (f : Fields) : Option FieldFault :=
  ((offsetFault? (f.offset.getD 0)).or ((f.toList.findSome? wordFault?).map .word)).or f.rangeFault?

/-- The moment with these fields, if they are in range. -/
def moment (f : Fields) : Except FieldFault Moment :=
  match f.fault? with
  | some e => .error e
  | none =>
    .ok ⟨⟨f.year, f.month.toNat, f.day.toNat⟩, f.hour.toNat, f.minute.toNat, f.second.toNat,
      f.microsecond.toNat, f.offset⟩

end Fields

namespace Moment

def fields (m : Moment) : Fields :=
  ⟨m.date.year, m.date.month, m.date.day, m.hour, m.minute, m.second, m.microsecond, m.offset⟩

/-- A moment with all fields in range. -/
def Valid (m : Moment) : Prop :=
  (m.offset.getD 0).natAbs < secondsPerDay ∧ yearInRange m.date.year = true ∧ m.date.Valid ∧
    m.hour ≤ 23 ∧ m.minute ≤ 59 ∧ m.second ≤ 59 ∧ m.microsecond ≤ 999999

/-- The fields of a moment are in range exactly if each is. -/
theorem rangeFault?_fields_eq_none_iff (m : Moment) :
    m.fields.rangeFault? = none ↔
      yearInRange m.date.year = true ∧ m.date.Valid ∧ m.hour ≤ 23 ∧ m.minute ≤ 59 ∧
        m.second ≤ 59 ∧ m.microsecond ≤ 999999 := by
  unfold Fields.rangeFault? fields Date.Valid
  by_cases h : yearInRange m.date.year = true
  · simp only [h, Bool.not_true, Bool.false_eq_true, if_false, Int.toNat_natCast]
    repeat' split
    all_goals simp
    all_goals omega
  · simp [h]

/-- Fields in their ranges fit into words. -/
theorem findSome?_wordFault?_eq_none (m : Moment) (h : m.fields.rangeFault? = none) :
    m.fields.toList.findSome? wordFault? = none := by
  obtain ⟨hy, ⟨-, hm, -, hd⟩, h1, h2, h3, h4⟩ := (rangeFault?_fields_eq_none_iff m).1 h
  have hdays := daysInMonth_le m.date.year m.date.month
  simp only [yearInRange, Bool.and_eq_true, decide_eq_true_eq] at hy
  simp only [Fields.toList, fields, List.findSome?_eq_none_iff, List.mem_cons, List.not_mem_nil,
    or_false, forall_eq_or_imp, forall_eq, wordFault?_eq_none_iff]
  omega

/-- They have no fault exactly if the moment is valid. -/
theorem fault?_fields_eq_none_iff (m : Moment) : m.fields.fault? = none ↔ m.Valid := by
  have hw := findSome?_wordFault?_eq_none m
  have hr := rangeFault?_fields_eq_none_iff m
  have ho := offsetFault?_eq_none_iff (m.fields.offset.getD 0)
  unfold Fields.fault? Valid
  simp only [Option.or_eq_none_iff, Option.map_eq_none_iff]
  rw [ho, ← hr]
  exact ⟨fun h => ⟨h.1.1, h.2⟩, fun h => ⟨⟨h.1, hw h.2⟩, h.2⟩⟩

/-- Fields make a moment exactly when they are those of a moment in range. -/
theorem moment_eq_ok_iff (f : Fields) (m : Moment) :
    f.moment = .ok m ↔ f = m.fields ∧ m.Valid := by
  constructor
  · intro h
    have hm : f = m.fields := by
      unfold Fields.moment at h
      split at h
      · simp at h
      · rename_i hf
        simp only [Except.ok.injEq] at h
        subst h
        replace hf := (Option.or_eq_none_iff.1 hf).2
        unfold Fields.rangeFault? at hf
        repeat' split at hf
        all_goals simp at hf
        obtain ⟨y, mo, d, ho, mi, se, us, o⟩ := f
        simp only [fields, Fields.mk.injEq, true_and, and_true]
        simp only at *
        omega
    refine ⟨hm, ?_⟩
    rw [← fault?_fields_eq_none_iff, ← hm]
    unfold Fields.moment at h
    split at h
    · simp at h
    · assumption
  · rintro ⟨rfl, hv⟩
    unfold Fields.moment
    rw [(fault?_fields_eq_none_iff m).2 hv]
    rfl

/-! ## Instants -/

/-- The seconds from the first of January of the year 1 to the moment as its clock shows it. -/
def localSeconds (m : Moment) : Int :=
  m.date.dayNumber * secondsPerDay + (m.hour * 3600 + m.minute * 60 + m.second : Nat)

/-- The same at offset zero. -/
def instant (m : Moment) : Int := m.localSeconds - m.offset.getD 0

/-- The moment of a number of seconds on a clock with the given offset. -/
def ofLocalSeconds (seconds : Int) (microsecond : Nat) (offset : Option Int) : Moment :=
  let rest := (seconds % secondsPerDay).toNat
  ⟨Date.ofDayNumber (seconds / secondsPerDay), rest / 3600, rest % 3600 / 60, rest % 60,
    microsecond, offset⟩

theorem localSeconds_ofLocalSeconds (seconds : Int) (microsecond : Nat) (offset : Option Int) :
    (ofLocalSeconds seconds microsecond offset).localSeconds = seconds := by
  simp only [ofLocalSeconds, localSeconds, dayNumber_ofDayNumber, secondsPerDay]
  omega

/-! ## Text -/

def dateText (d : Date) : List Char :=
  padded 4 d.year.toNat ++ '-' :: padded 2 d.month ++ '-' :: padded 2 d.day

/-- The time of day as text, without the fraction. -/
def timeText (m : Moment) : List Char :=
  padded 2 m.hour ++ ':' :: padded 2 m.minute ++ ':' :: padded 2 m.second

def offsetText (offset : Int) : List Char :=
  let n := offset.natAbs
  let tail := if n % 60 = 0 then [] else ':' :: padded 2 (n % 60)
  let sign := if offset < 0 then '-' else '+'
  if offset = 0 then ['Z']
  else sign :: padded 2 (n / 3600) ++ ':' :: padded 2 (n % 3600 / 60) ++ tail

def chars (m : Moment) : List Char :=
  dateText m.date ++ 'T' :: m.timeText ++ (m.offset.elim [] offsetText)

def format (m : Moment) : String := String.ofList m.chars

end Moment

end Logwire.Time
