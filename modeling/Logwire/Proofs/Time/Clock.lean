import Logwire.Proofs.Time.Timestamp
import Logwire.Time.Clock
import Mathlib.Tactic.MkIffOfInductiveProp

/-!
# Logwire.Proofs.Time.Clock

The timestamps that a clock makes.

A clock asks the calendar for some moments around the one that it shows, all no
more than a day away.  `OnCalendar` grants it a day on either side, and then it
shows every reading (`momentAt_eq_shown`): the text of what it shows is a
timestamp of the very second, `isStampOf_format`.

* `yearInRange_yearAt_iff` — the years that can be written, in seconds.
-/

namespace Logwire.Time

/-! ## The span of the calendar -/

/-- The first day of a year that can no longer be written. -/
def calendarEnd : Int := daysBeforeYear 10000

/-- The days of the years that can be written. -/
theorem yearInRange_yearOf_iff (n : Int) :
    yearInRange (yearOf n) = true ↔ 0 ≤ n ∧ n < calendarEnd := by
  have hle := daysBeforeYear_yearOf_le n
  have hlt := lt_daysBeforeYear_yearOf n
  unfold yearInRange calendarEnd
  rw [Bool.and_eq_true, decide_eq_true_eq, decide_eq_true_eq]
  unfold daysBeforeYear at *
  omega

/-- The seconds of those years. -/
theorem yearInRange_yearAt_iff (seconds : Int) :
    yearInRange (yearAt seconds) = true ↔ 0 ≤ seconds ∧ seconds < calendarEnd * secondsPerDay := by
  unfold yearAt
  rw [yearInRange_yearOf_iff]
  unfold secondsPerDay
  omega

/-- The years that can be written leave no gap. -/
theorem yearInRange_yearAt_of_le {first seconds last : Int}
    (hfirst : yearInRange (yearAt first) = true) (hlast : yearInRange (yearAt last) = true)
    (h : first ≤ seconds ∧ seconds ≤ last) : yearInRange (yearAt seconds) = true := by
  rw [yearInRange_yearAt_iff] at *
  omega

/-- A year that can be written fits into a word. -/
theorem yearFits_of_yearInRange {year : Int} (h : yearInRange year = true) :
    yearFits year = true := by
  unfold yearInRange at h
  unfold yearFits
  rw [Bool.and_eq_true, decide_eq_true_eq, decide_eq_true_eq] at *
  omega

/-! ## What a clock shows -/

/-- A clock some whole minutes from UTC, less than a day.  It shows a time that has a day before it
and a day after it in the calendar. -/
@[mk_iff] structure OnCalendar (offset micros : Int) : Prop where
  lessThanDay : offset.natAbs < secondsPerDay
  wholeMinutes : offset % 60 = 0
  dayBefore : yearInRange (yearAt ((shown offset micros).localSeconds - secondsPerDay)) = true
  dayAfter : yearInRange (yearAt ((shown offset micros).localSeconds + secondsPerDay)) = true

instance (offset micros : Int) : Decidable (OnCalendar offset micros) :=
  decidable_of_iff' _ (onCalendar_iff offset micros)

theorem localSeconds_shown (offset micros : Int) :
    (shown offset micros).localSeconds = epochSeconds + micros / microsPerSecond + offset :=
  Moment.localSeconds_ofLocalSeconds _ _ _

variable {offset micros : Int}

namespace OnCalendar

/-- All that is no more than a day away is on the calendar. -/
theorem yearInRange_of_natAbs_le (h : OnCalendar offset micros) (away : Int)
    (haway : away.natAbs ≤ secondsPerDay) :
    yearInRange (yearAt ((shown offset micros).localSeconds + away)) = true :=
  yearInRange_yearAt_of_le h.dayBefore h.dayAfter (by omega)

/-- The clock shows its reading. -/
theorem clockFault?_eq_none (h : OnCalendar offset micros) : clockFault? offset micros = none := by
  have hoffset := h.lessThanDay
  have here := h.yearInRange_of_natAbs_le 0 (by decide)
  have before := h.dayBefore
  have ahead := h.yearInRange_of_natAbs_le offset (by omega)
  have behind := h.yearInRange_of_natAbs_le (-offset) (by omega)
  rw [localSeconds_shown] at here before ahead behind
  rw [Int.add_zero] at here
  rw [← Int.sub_eq_add_neg] at behind
  unfold clockFault?
  simp only [here, before, ahead, behind, yearFits_of_yearInRange, Nat.not_le.mpr hoffset,
    Bool.not_true, Bool.or_self, Bool.false_eq_true, if_false]

/-- So far from the end of the calendar the seconds fit into 64 bits. -/
theorem micros_bounds (h : OnCalendar offset micros) :
    -secondsBound * microsPerSecond ≤ micros ∧ micros < secondsBound * microsPerSecond := by
  have hoffset := h.lessThanDay
  have hyear := h.yearInRange_of_natAbs_le 0 (by decide)
  rw [Int.add_zero, localSeconds_shown, yearInRange_yearAt_iff] at hyear
  have hend : calendarEnd = 3652059 := rfl
  rw [hend] at hyear
  unfold epochSeconds epochDay secondsPerDay microsPerSecond at hyear
  unfold secondsPerDay at hoffset
  unfold secondsBound microsPerSecond
  omega

/-- What the clock shows can be written and read. -/
theorem readable_shown (h : OnCalendar offset micros) : (shown offset micros).Readable := by
  have hyear := h.yearInRange_of_natAbs_le 0 (by decide)
  rw [Int.add_zero, localSeconds_shown] at hyear
  refine ⟨⟨h.lessThanDay, hyear, valid_ofDayNumber _, ?_⟩, offset, rfl, h.wholeMinutes⟩
  simp only [shown, Moment.ofLocalSeconds, secondsPerDay, microsPerSecond]
  omega

end OnCalendar

/-- So the clock shows what it reads. -/
theorem momentAt_eq_shown {reading : Reading} (hr : reading.micros = .ok micros)
    (h : OnCalendar offset micros) : momentAt offset reading = .ok (shown offset micros) := by
  unfold momentAt
  rw [hr]
  simp only [h.clockFault?_eq_none]

/-! ## Timestamps -/

/-- The beginning of the year 1970. -/
def Moment.epoch : Moment := ⟨⟨1970, 1, 1⟩, 0, 0, 0, 0, some 0⟩

theorem Moment.instant_epoch : epoch.instant = epochSeconds := by decide

/-- The text is a timestamp of the second in which a number of microseconds since the epoch lies,
on a clock with the given offset. -/
structure IsStampOf (text : String) (offset micros : Int) : Prop where
  narrow : isSyslogTimestamp text = true
  reads : ∃ m, parseRfc3339 text = .ok m ∧ m.microsecond = 0 ∧ m.offset = some offset ∧
    m.instant = Moment.epoch.instant + micros / microsPerSecond

/-- A text is a timestamp of one second only. -/
theorem IsStampOf.seconds_eq {text : String} {offset' micros' : Int}
    (h : IsStampOf text offset micros) (h' : IsStampOf text offset' micros') :
    micros / microsPerSecond = micros' / microsPerSecond := by
  obtain ⟨m, hreads, -, -, hinstant⟩ := h.reads
  obtain ⟨m', hreads', -, -, hinstant'⟩ := h'.reads
  obtain rfl := Except.ok.inj (hreads.symm.trans hreads')
  rw [hinstant] at hinstant'
  exact Int.add_left_cancel hinstant'

/-- What the clock shows is written as a timestamp of the very second. -/
theorem isStampOf_format (h : OnCalendar offset micros) :
    IsStampOf (shown offset micros).format offset micros where
  narrow := isSyslogTimestamp_format h.readable_shown
  reads := by
    refine ⟨_, parseRfc3339_format h.readable_shown, rfl, rfl, ?_⟩
    rw [Moment.instant_epoch]
    exact instant_shown offset micros

end Logwire.Time
