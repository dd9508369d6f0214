import Logwire.Number.Binary64
import Logwire.Time.Moment

/-!
# Logwire.Time.Clock

The moment that a clock shows.

A reading is a number of seconds since the epoch, an integer or a double
precision number, or a count of microseconds.  It is taken to whole microseconds
and shown on a clock with a fixed offset below a day.  The calendar must hold the day shown, the day
before it, the reading moved by the offset once more, and the moment at offset
zero.

* `instant_shown` — what is shown is the reading, at the precision of a second.
-/

namespace Logwire.Time

open Number

/-- A clock reading in seconds since the epoch, or in ticks of a microsecond. -/
inductive Reading where
  | whole (seconds : Int)
  | number (seconds : Binary64)
  | ticks (count : Int)
  deriving Repr

/-- Why a clock shows no moment. -/
inductive ClockFault where
  | notANumber
  /-- The seconds do not fit into 64 bits. -/
  | tooFar
  /-- The year does not fit into 32 bits. -/
  | yearTooFar
  | year (year : Int)
  /-- The offset is a day or more. -/
  | offset (seconds : Int)
  /-- The moment has no date at offset zero. -/
  | noDate
  deriving DecidableEq, Repr

/-- The wording of a fault; one of them has none. -/
def ClockFault.message? : ClockFault → Option String
  | .notANumber => some "Invalid value NaN (not a number)"
  | .tooFar => some "timestamp out of range for platform time_t"
  | .yearTooFar => none
  | .year y => some (yearMessage y)
  | .offset seconds => some (FieldFault.offset seconds).message
  | .noDate => some "date value out of range"

/-! ## Readings -/

def microsPerSecond : Nat := 1000000

/-- The natural number nearest to a finite datum without its sign, a tie going to the even one. -/
def nearestNat : Binary64 → Nat
  | .finite _ exponent fraction =>
    let v := Binary64.magnitude exponent fraction
    roundDiv v.num v.den
  | _ => 0

/-- The microseconds in a fraction of a second, rounded to the nearest, a tie to the even one.
The product is first rounded to double precision. -/
def fractionMicros (num den : Nat) : Nat :=
  nearestNat (Binary64.ofQuotient false (num * microsPerSecond) den)

/-- A finite number of seconds in microseconds. -/
def microsOf (negative : Bool) (exponent : Fin 2047) (fraction : Fin (1 <<< 52)) : Int :=
  let v := Binary64.magnitude exponent fraction
  let micros : Int :=
    (v.num / v.den * microsPerSecond + fractionMicros (v.num % v.den) v.den : Nat)
  if negative then -micros else micros

/-- The first number of seconds that does not fit into 64 bits. -/
def secondsBound : Int := 0x8000000000000000

/-- A reading in microseconds.  The greatest number of 64 bits has no double precision number of
its own: the bound stands for it. -/
def Reading.micros : Reading → Except ClockFault Int
  | .whole s =>
    if s < -secondsBound ∨ secondsBound ≤ s then .error .tooFar else .ok (s * microsPerSecond)
  | .number .nan => .error .notANumber
  | .number (.infinite _) => .error .tooFar
  | .number (.finite negative exponent fraction) =>
    let micros := microsOf negative exponent fraction
    let seconds := micros / microsPerSecond
    if seconds < -secondsBound ∨ secondsBound < seconds then .error .tooFar else .ok micros
  | .ticks count => .ok count

/-! ## Moments -/

/-- The number of the day of the epoch. -/
def epochDay : Int := 719162

/-- The seconds from the first day of the calendar to the epoch. -/
def epochSeconds : Int := epochDay * secondsPerDay

/-- The moment that a clock shows at a number of microseconds since the epoch. -/
def shown (offset : Int) (micros : Int) : Moment :=
  .ofLocalSeconds (epochSeconds + micros / microsPerSecond + offset)
    (micros % microsPerSecond).toNat (some offset)

/-- What is shown denotes the second of the reading, whatever the offset. -/
theorem instant_shown (offset micros : Int) :
    (shown offset micros).instant = epochSeconds + micros / microsPerSecond := by
  simp only [Moment.instant, shown, Moment.localSeconds_ofLocalSeconds]
  simp only [Moment.ofLocalSeconds, Option.getD_some]
  omega

/-- The year of a number of seconds since the first day of the calendar. -/
def yearAt (seconds : Int) : Int := yearOf (seconds / secondsPerDay)

/-- A year that is shown in a message: a signed number of 32 bits. -/
def shortYear (year : Int) : Int := Int.bmod year 0x100000000

/-- A year whose distance from 1900 is a signed number of 32 bits. -/
def yearFits (year : Int) : Bool := -0x80000000 ≤ year - 1900 && year - 1900 < 0x80000000

/-- Why a clock shows no moment, if so. -/
def clockFault? (offset : Int) (micros : Int) : Option ClockFault :=
  let seconds := micros / microsPerSecond
  let here := epochSeconds + seconds + offset
  if !yearFits (yearAt here) || !yearFits (yearAt (here - offset)) then some .yearTooFar
  else if !yearInRange (yearAt here) then some (.year (shortYear (yearAt here)))
  else if !yearInRange (yearAt (here - secondsPerDay)) then
    some (.year (yearAt (here - secondsPerDay)))
  else if !yearInRange (yearAt (here + offset)) then some (.year (yearAt (here + offset)))
  else if secondsPerDay ≤ offset.natAbs then some (.offset offset)
  else if !yearInRange (yearAt (here - offset)) then some .noDate
  else none

/-- The moment that a clock with the given offset shows at a reading. -/
def momentAt (offset : Int) (reading : Reading) : Except ClockFault Moment :=
  match reading.micros with
  | .error e => .error e
  | .ok micros =>
    match clockFault? offset micros with
    | some e => .error e
    | none => .ok (shown offset micros)

end Logwire.Time
