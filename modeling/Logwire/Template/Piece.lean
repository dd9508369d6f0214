import Logwire.Number.Decimal
import Logwire.Template.Directive

/-!
# Logwire.Template.Piece

The text of a converted argument and how it is laid out in a width.

A number is in three parts: its sign, the mark of its base, and the digits.
Zeros go between the marks and the digits, blanks go outside.
-/

namespace Logwire.Template

open Number Binary64

/-- A converted argument. -/
structure Piece where
  negative : Bool := false
  base : List Char := []
  body : List Char
  deriving DecidableEq, Repr

namespace Piece

/-! ## Layout -/

def sign (d : Directive) (p : Piece) : List Char :=
  if p.negative then ['-']
  else if d.showsSign then ['+']
  else if d.leavesRoom then [' ']
  else []

def layNumber (d : Directive) (width : Nat) (alignsLeft : Bool) (p : Piece) : List Char :=
  let front := p.sign d ++ p.base
  let room := width - (front.length + p.body.length)
  if alignsLeft then front ++ p.body ++ List.replicate room ' '
  else if d.padsZero then front ++ List.replicate room '0' ++ p.body
  else List.replicate room ' ' ++ front ++ p.body

def layText (width : Nat) (alignsLeft : Bool) (s : List Char) : List Char :=
  let room := width - s.length
  if alignsLeft then s ++ List.replicate room ' ' else List.replicate room ' ' ++ s

/-! ## Integers -/

/-- The base of a conversion of integers, and its mark. -/
def baseOf (conversion : Char) : Nat × List Char :=
  if conversion = 'o' then (8, ['0', 'o'])
  else if conversion = 'x' then (16, ['0', 'x'])
  else if conversion = 'X' then (16, ['0', 'X'])
  else (10, [])

/-- An integer with at least `precision` digits. -/
def ofInteger (d : Directive) (conversion : Char) (precision : Nat) (i : Int) : Piece :=
  let (base, mark) := baseOf conversion
  let digits := Nat.toDigits base i.natAbs
  let padded := List.replicate (precision - digits.length) '0' ++ digits
  { negative := i < 0
    base := if d.alternate then mark else []
    body := if conversion = 'X' then padded.map Char.toUpper else padded }

/-! ## Numbers -/

/-- A point is written at the end of a number without places only on demand. -/
def pointed (always : Bool) (whole places : List Char) : List Char :=
  if places.isEmpty && !always then whole else whole ++ '.' :: places

/-- A finite number has at most this many places, and fewer significant digits; zeros follow. -/
def digitLimit : Nat := 1074

/-- A quotient with a fixed number of places. -/
def fixedBody (always : Bool) (places : Nat) (v : Quotient) : List Char :=
  let digits := fixed (min places digitLimit) v ++ List.replicate (places - digitLimit) '0'
  if places = 0 && always then digits ++ ['.'] else digits

/-- A quotient in `count ≥ 1` significant digits, and the power of ten of the first. -/
def significantDigits (count : Nat) (v : Quotient) : List Char × Int :=
  let d := rounded (min count digitLimit) v
  if d.coefficient = 0 then (List.replicate count '0', 0)
  else (digitsOf d.coefficient ++ List.replicate (count - digitLimit) '0', d.exponent)

/-- A quotient with one digit before the point and an exponent. -/
def exponentBody (always : Bool) (places : Nat) (v : Quotient) : List Char :=
  let (digits, e) := significantDigits (places + 1) v
  pointed always (digits.take 1) (digits.drop 1) ++ exponentText 'e' e

/-- Drop the zeros at the end. -/
def dropZeros (keep : Bool) (s : List Char) : List Char :=
  if keep then s else (s.reverse.dropWhile (· == '0')).reverse

/-- A quotient with a number of significant digits, in the shorter of the two forms.  Zeros beyond
the digits that a number can have are made only where they are kept. -/
def generalBody (always : Bool) (precision : Nat) (v : Quotient) : List Char :=
  let count := max precision 1
  let (digits, e) := significantDigits (if always then count else min count digitLimit) v
  if -4 ≤ e ∧ e < count then
    let (whole, places) := positional digits (e + 1)
    pointed always whole (dropZeros always places)
  else
    pointed always (digits.take 1) (dropZeros always (digits.drop 1)) ++ exponentText 'e' e

/-- The magnitude of a finite number in the form of a conversion. -/
def finiteBody (always : Bool) (conversion : Char) (precision : Nat) (v : Quotient) : List Char :=
  if conversion = 'f' then fixedBody always precision v
  else if conversion = 'e' then exponentBody always precision v
  else generalBody always precision v

/-- The places of a number when none are asked for. -/
def defaultPrecision : Nat := 6

/-- A double precision number.  The conversion in capitals writes letters in capitals. -/
def ofNumber (d : Directive) (conversion : Char) (precision : Option Nat) (x : Binary64) : Piece :=
  let body :=
    match x with
    | .nan => "nan".toList
    | .infinite _ => "inf".toList
    | .finite _ exponent fraction =>
      finiteBody d.alternate conversion.toLower (precision.getD defaultPrecision)
        (magnitude exponent fraction)
  { negative := x.isNegative
    body := if conversion.isUpper then body.map Char.toUpper else body }

end Piece

end Logwire.Template
