import Logwire.Number.Decimal
import Logwire.Text.Digit

/-!
# Logwire.Service.PortNumber

Reading the number of a port.

White space around the number and one sign in front of it are dropped.  So are
zeros in front of another digit, with the underscores among them, and a fraction
of zeros.  Single underscores may stand between the digits that are left.  What
remains must be an integer in plain notation, of which the sign is the one in
front or, behind zeros, a minus.

A `Port` can be written out again: its number has not more digits than a text
may have.
-/

namespace Logwire

/-- A port whose number can be written out. -/
structure Port where
  number : Int
  writable : Number.isWritable number = true
  deriving DecidableEq, Repr

/-- The port of a number, if it can be written out. -/
def Port.ofInt? (number : Int) : Option Port :=
  if h : Number.isWritable number = true then some ⟨number, h⟩ else none

namespace PortNumber

open Text

/-- What follows zeros and underscores.  A last zero stands for itself, and so does the character
before a point. -/
def skipZeros (last : Char) : List Char → Option (List Char)
  | [] => some [last]
  | c :: r =>
    if c = '0' || c = '_' then skipZeros c r
    else if c = '.' then some (last :: c :: r)
    else if isAsciiDigit c || c = '-' then some (c :: r)
    else none

/-- A number without the zeros in front. -/
def dropZeros : List Char → Option (List Char)
  | [] => none
  | c :: r =>
    if c = '0' then skipZeros c r
    else if isAsciiDigit c || c = '-' then some (c :: r)
    else none

/-- A number without a fraction of zeros. -/
def dropFraction (s : List Char) : List Char :=
  match s.dropWhile (· ≠ '.') with
  | '.' :: zeros =>
    if !zeros.isEmpty && zeros.all (· == '0') then s.takeWhile (· ≠ '.') else s
  | _ => s

/-- Whether underscores stand only between other characters. -/
def isSpaced : List Char → Bool
  | [] => true
  | '_' :: _ => false
  | _ :: '_' :: r => !r.isEmpty && isSpaced r
  | _ :: r => isSpaced r

/-- The value of digits in plain notation. -/
def readDigits (s : List Char) : Option Nat :=
  if s.isEmpty || !s.all isAsciiDigit || (s.head? = some '0' && s.length ≠ 1) then none
  else if Number.maxDigits < s.length then none
  else some (decimalValue s)

def readPlain : List Char → Option Int
  | '-' :: digits => (readDigits digits).map fun n => -(n : Int)
  | digits => (readDigits digits).map Int.ofNat

/-- A number whose sign is read. -/
def readUnsigned (negative : Bool) (s : List Char) : Option Int :=
  match dropZeros s with
  | none => none
  | some s =>
    let whole := dropFraction s
    if isSpaced whole then
      let digits := whole.filter (· ≠ '_')
      readPlain (if negative then '-' :: digits else digits)
    else none

def read (text : String) : Option Int :=
  match trim isWhiteSpace text.toList with
  | '+' :: '-' :: _ => none
  | '+' :: s => readUnsigned false s
  | '-' :: s => readUnsigned true s
  | s => readUnsigned false s

end PortNumber

end Logwire
