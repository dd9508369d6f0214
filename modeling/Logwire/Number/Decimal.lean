import Logwire.Number.Binary64

/-!
# Logwire.Number.Decimal

Decimal digits of exact quotients and of double precision numbers.

* `fixed places v` — the digits of `v` with a fixed number of places;
* `rounded count v` — the digits of `v` rounded to `count` significant digits;
* `shortest` — the fewest digits that read back as the same datum, and of
  those the nearest to it.

Rounding is always to the nearest, a tie going to the even digit.
-/

namespace Logwire.Number

open Binary64 (Quotient powerOfTen)

/-- The decimal digits of a natural number. -/
def digitsOf (n : Nat) : List Char := Nat.toDigits 10 n

/-- A natural number padded with zeros on the left. -/
def padded (width n : Nat) : List Char :=
  let ds := digitsOf n
  List.replicate (width - ds.length) '0' ++ ds

def intDigits (i : Int) : List Char :=
  if i < 0 then '-' :: digitsOf i.natAbs else digitsOf i.natAbs

def intText (i : Int) : String := String.ofList (intDigits i)

/-- The most digits an integer may have in a text. -/
def maxDigits : Nat := 4300

/-- Whether an integer has no more digits than it may have in a text. -/
def isWritable (i : Int) : Bool := (digitsOf i.natAbs).length ≤ maxDigits

/-- What the messages about too many digits advise. -/
def limitHint : String := "use sys.set_int_max_str_digits() to increase the limit"

/-- The wording for an integer that is not writable. -/
def notWritableMessage : String :=
  "Exceeds the limit (" ++ toString maxDigits ++ " digits) for integer string conversion; "
    ++ limitHint

/-! ## Fixed places -/

/-- A quotient with `places` digits after the point, without a sign. -/
def fixed (places : Nat) (v : Quotient) : List Char :=
  let n := roundDiv (v.num * powerOfTen places) v.den
  let whole := digitsOf (n / powerOfTen places)
  if places = 0 then whole else whole ++ '.' :: padded places (n % powerOfTen places)

/-! ## Significant digits -/

/-- Significant digits as a natural number `coefficient` times `10 ^ power`. -/
structure Decimal where
  coefficient : Nat
  power : Int
  deriving Repr

namespace Decimal

/-- The power of ten of the first digit. -/
def exponent (d : Decimal) : Int := (digitsOf d.coefficient).length - 1 + d.power

end Decimal

/-- The quotient `num / den / 10 ^ k` as a pair of natural numbers. -/
def tenfold (num den : Nat) (k : Int) : Nat × Nat :=
  match k with
  | .ofNat n => (num, den * powerOfTen n)
  | .negSucc n => (num * powerOfTen (n + 1), den)

/-- The power of ten of the first digit of a positive quotient. -/
def leadingPower (v : Quotient) : Int :=
  let guess : Int := (digitsOf v.num).length - (digitsOf v.den).length
  let (n, d) := tenfold v.num v.den guess
  if d ≤ n then guess else guess - 1

/-- A quotient rounded to `count ≥ 1` significant digits; zero keeps the power zero. -/
def rounded (count : Nat) (v : Quotient) : Decimal :=
  if v.num = 0 then ⟨0, 0⟩
  else
    let k := leadingPower v - (count - 1 : Nat)
    let (n, d) := tenfold v.num v.den k
    let c := roundDiv n d
    if c = powerOfTen count then ⟨powerOfTen (count - 1), k + 1⟩ else ⟨c, k⟩

/-! ## Fewest digits -/

/-- The reals that round to a datum, on the grid of a quarter of its last unit:
from `low` to `high` around `mid`, the ends included when `closed`. -/
structure Window where
  low : Nat
  mid : Nat
  high : Nat
  closed : Bool

/-- The window of a positive finite datum and the scale of its grid. -/
def window (exponent : Fin 2047) (fraction : Fin (1 <<< 52)) : Window × Int :=
  let m := Binary64.significand exponent fraction
  -- just above a power of two the neighbour below is half as far away
  let below := if fraction.val = 0 && exponent.val > 1 then 1 else 2
  (⟨4 * m - below, 4 * m, 4 * m + 2, m % 2 = 0⟩, Binary64.scale exponent - 2)

/-- Whether `c · 10 ^ k`, brought to the window's grid as `c * step`, lies in the window. -/
def Window.holds (w : Window) (unit x : Nat) : Bool :=
  if w.closed then w.low * unit ≤ x && x ≤ w.high * unit
  else w.low * unit < x && x < w.high * unit

/-- The coefficient on the grid of `10 ^ k` that lies in the window, the nearer of two. -/
def Window.gridPoint? (w : Window) (grid k : Int) : Option Nat :=
  -- multiply everything by the powers that make all numbers natural
  let two : Nat := match grid with | .ofNat n => 1 <<< n | .negSucc _ => 1
  let half : Nat := match grid with | .ofNat _ => 1 | .negSucc n => 1 <<< (n + 1)
  let ten : Nat := match k with | .ofNat n => powerOfTen n | .negSucc _ => 1
  let tenth : Nat := match k with | .ofNat _ => 1 | .negSucc n => powerOfTen (n + 1)
  let unit := two * tenth
  let step := ten * half
  let c := w.mid * unit / step
  let lower := w.holds unit (c * step)
  let upper := w.holds unit ((c + 1) * step)
  if lower && upper then some (roundDiv (w.mid * unit) step)
  else if lower then some c
  else if upper then some (c + 1)
  else none

/-- The first grid, from coarse to fine, with a point in the window. -/
def Window.search (w : Window) (grid : Int) : Nat → Int → Option Decimal
  | 0, _ => none
  | fuel + 1, k =>
    match w.gridPoint? grid k with
    | some c => some ⟨c, k⟩
    | none => w.search grid fuel (k - 1)

/-- Drop the zeros at the end of a coefficient. -/
def Decimal.strip : Nat → Decimal → Decimal
  | 0, d => d
  | fuel + 1, d =>
    if d.coefficient ≠ 0 ∧ d.coefficient % 10 = 0 then
      Decimal.strip fuel ⟨d.coefficient / 10, d.power + 1⟩
    else d

/-- The fewest digits that read back as the given finite datum; seventeen always suffice. -/
def shortest (exponent : Fin 2047) (fraction : Fin (1 <<< 52)) : Decimal :=
  let v := Binary64.magnitude exponent fraction
  if v.num = 0 then ⟨0, 0⟩
  else
    let (w, grid) := window exponent fraction
    let top := leadingPower v
    match w.search grid 17 top with
    | some d => Decimal.strip 17 d
    | none => rounded 17 v

/-! ## Layouts -/

/-- Digits with a point after the first `whole` of them, zeros filling both sides. -/
def positional (digits : List Char) (whole : Int) : List Char × List Char :=
  if whole ≤ 0 then
    (['0'], List.replicate whole.natAbs '0' ++ digits)
  else
    let n := whole.toNat
    (digits.take n ++ List.replicate (n - digits.length) '0', digits.drop n)

/-- A decimal exponent with a sign and at least two digits. -/
def exponentText (letter : Char) (e : Int) : List Char :=
  letter :: (if e < 0 then '-' else '+') :: padded 2 e.natAbs

/-- Mantissa and exponent: one digit before the point. -/
def scientific (letter : Char) (digits : List Char) (e : Int) : List Char :=
  match digits with
  | [] => []
  | [d] => d :: exponentText letter e
  | d :: rest => d :: '.' :: rest ++ exponentText letter e

/-- The magnitude of a finite datum in its shortest form: positional from `10 ^ -4` to below
`10 ^ 16`, always with a point; with an exponent elsewhere. -/
def shortestText (exponent : Fin 2047) (fraction : Fin (1 <<< 52)) : List Char :=
  let d := shortest exponent fraction
  let digits := digitsOf d.coefficient
  let e := d.exponent
  if -4 ≤ e ∧ e < 16 then
    let (whole, rest) := positional digits (e + 1)
    whole ++ '.' :: (if rest.isEmpty then ['0'] else rest)
  else scientific 'e' digits e

end Logwire.Number
