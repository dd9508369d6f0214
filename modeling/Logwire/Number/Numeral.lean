import Logwire.Text.Digit
import Logwire.Number.Decimal

/-!
# Logwire.Number.Numeral

Reading integers and double precision numbers from text.

White space around a numeral is dropped, the digits may be of any script, and a
single underscore may stand between two digits.  An integer has at most
`maxDigits` digits.  A double precision number is rounded to the nearest datum.
-/

namespace Logwire.Number

open Text

/-- Why a text is no integer. -/
inductive IntegerFault where
  | malformed
  | tooLong (digits : Nat)
  deriving DecidableEq, Repr

/-- The wording for an integer of too many digits. -/
def tooLongMessage (digits : Nat) : String :=
  "Exceeds the limit (" ++ toString maxDigits
    ++ " digits) for integer string conversion: value has " ++ toString digits
    ++ " digits; " ++ limitHint

/-- The longest row of digits at the front, single underscores between digits skipped. -/
def scanDigits : List Char → List Nat × List Char
  | [] => ([], [])
  | c :: '_' :: c' :: r =>
    match digitValue? c with
    | none => ([], c :: '_' :: c' :: r)
    | some d =>
      if isDecimal c' then
        let (ds, rest) := scanDigits (c' :: r)
        (d :: ds, rest)
      else ([d], '_' :: c' :: r)
  | c :: r =>
    match digitValue? c with
    | none => ([], c :: r)
    | some d =>
      let (ds, rest) := scanDigits r
      (d :: ds, rest)

/-- An optional sign: whether it is a minus, and what follows. -/
def scanSign : List Char → Bool × List Char
  | '-' :: r => (true, r)
  | '+' :: r => (false, r)
  | s => (false, s)

/-- The integer with the given sign and digits. -/
def signed (negative : Bool) (n : Nat) : Int := if negative then -(n : Int) else n

def readInteger (s : List Char) : Except IntegerFault Int :=
  let (negative, s) := scanSign (trim isWhiteSpace s)
  match scanDigits s with
  | ([], _) => .error .malformed
  | (_, '_' :: _) => .error .malformed
  | (ds, rest) =>
    if maxDigits < ds.length then .error (.tooLong ds.length)
    else if rest.isEmpty then .ok (signed negative (ofDigits ds))
    else .error .malformed

/-! ## Double precision numbers -/

/-- The datum nearest to a row of digits times a power of ten.  Magnitudes far outside the
range of the finite data are settled without computing the power. -/
def nearest (negative : Bool) (digits : List Nat) (power : Int) : Binary64 :=
  let coefficient := ofDigits digits
  let top : Int := (digitsOf coefficient).length + power
  if coefficient = 0 || top < -330 then .signedZero negative
  else if 310 < top then .infinite negative
  else Binary64.ofDecimal negative coefficient power

/-- An exponent: the letter e, an optional sign and digits; zero when there is none. -/
def scanExponent (s : List Char) : Int × List Char :=
  match s with
  | c :: r =>
    if c = 'e' || c = 'E' then
      let (negative, t) := scanSign r
      match scanDigits t with
      | ([], _) => (0, s)
      | (ds, rest) => (signed negative (ofDigits ds), rest)
    else (0, s)
  | [] => (0, [])

/-- The fraction after a point; its digits may be missing. -/
def scanFraction : List Char → List Nat × List Char
  | '.' :: r => scanDigits r
  | s => ([], s)

/-- Reads the names of the data that are not finite, in letters of either case. -/
def readName (negative : Bool) (s : List Char) : Option Binary64 :=
  let name := String.ofList (s.map Char.toLower)
  if name = "inf" || name = "infinity" then some (.infinite negative)
  else if name = "nan" then some .nan
  else none

def readBinary64 (s : List Char) : Option Binary64 :=
  let (negative, s) := scanSign (trim isWhiteSpace s)
  let (whole, s') := scanDigits s
  let (fraction, s'') := scanFraction s'
  if whole.isEmpty && fraction.isEmpty then readName negative s
  else
    let (e, rest) := scanExponent s''
    if rest.isEmpty then some (nearest negative (whole ++ fraction) (e - fraction.length))
    else none

end Logwire.Number
