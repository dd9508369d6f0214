import Logwire.Number.Binary64

/-!
# Logwire.Number.Measure

Numbers of any form, compared by their values.

An integer and a datum may be equal.  So that equal numbers have one form, a
datum that is an integer is taken as that integer.
-/

namespace Logwire.Number

/-- The value of a number: an integer, or a datum that is none. -/
inductive Measure where
  | whole (i : Int)
  | broken (x : Binary64)
  deriving DecidableEq, Repr

namespace Measure

/-- The value of a datum; a NaN has none. -/
def ofBinary64? : Binary64 → Option Measure
  | .nan => none
  | x => some ((x.integer?.map .whole).getD (.broken x))

/-- The value is at least the given natural number. -/
def atLeast (n : Nat) : Measure → Bool
  | .whole i => (n : Int) ≤ i
  | .broken .nan => false
  | .broken (.infinite negative) => !negative
  | .broken (.finite negative exponent fraction) =>
    let v := Binary64.magnitude exponent fraction
    !negative && n * v.den ≤ v.num

end Measure

end Logwire.Number
