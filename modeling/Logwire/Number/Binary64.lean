import Logwire.Number.Rounding

/-!
# Logwire.Number.Binary64

Double precision numbers by their fields.

A datum is the one NaN, an infinity, or a finite number with a sign, a biased
exponent below 2047 and a fraction of 52 bits.  The finite ones denote

```
± significand · 2 ^ scale
```

exactly, and every operation here is carried out on those natural numbers; no
machine arithmetic is involved.  `ofQuotient` rounds a rational number to the
nearest datum, a tie going to the even significand.
-/

namespace Logwire.Number

/-- A double precision number.  There is one NaN and there are two zeros. -/
inductive Binary64 where
  | nan
  | infinite (negative : Bool)
  | finite (negative : Bool) (exponent : Fin 2047) (fraction : Fin (1 <<< 52))
  deriving DecidableEq, Repr

namespace Binary64

/-! ## Fields and bits -/

/-- The zero of a sign. -/
def signedZero (negative : Bool) : Binary64 := .finite negative 0 ⟨0, by decide⟩

def zero : Binary64 := signedZero false

instance : Inhabited Binary64 := ⟨zero⟩

/-- The sign, which a NaN does not have. -/
def isNegative : Binary64 → Bool
  | .nan => false
  | .infinite negative => negative
  | .finite negative _ _ => negative

/-- The integer that carries the digits of a finite datum. -/
def significand (exponent : Fin 2047) (fraction : Fin (1 <<< 52)) : Nat :=
  if exponent.val = 0 then fraction.val else 1 <<< 52 + fraction.val

/-- The power of two that goes with the significand. -/
def scale (exponent : Fin 2047) : Int :=
  if exponent.val = 0 then -1074 else (exponent.val : Int) - 1075

/-- A zero of either sign. -/
def isZero : Binary64 → Bool
  | .finite _ exponent fraction => exponent.val = 0 && fraction.val = 0
  | _ => false

/-- The datum with the given 64 bits. -/
def ofBits (bits : Nat) : Binary64 :=
  let negative := bits / 1 <<< 63 % 2 = 1
  let exponent := bits / 1 <<< 52 % 2048
  let fraction := bits % 1 <<< 52
  if h : exponent < 2047 then .finite negative ⟨exponent, h⟩ ⟨fraction, Nat.mod_lt _ (by decide)⟩
  else if fraction = 0 then .infinite negative
  else .nan

/-- The 64 bits of a datum; the NaN is quiet, positive and without payload. -/
def toBits : Binary64 → Nat
  | .nan => 2047 * 1 <<< 52 + 1 <<< 51
  | .infinite negative => negative.toNat * 1 <<< 63 + 2047 * 1 <<< 52
  | .finite negative exponent fraction =>
    negative.toNat * 1 <<< 63 + exponent.val * 1 <<< 52 + fraction.val

/-- Three fields side by side, the lowest below `unit` and the middle one below 2048. -/
private theorem fields_split (high : Nat) {unit middle low : Nat} (hm : middle < 2048)
    (hl : low < unit) :
    (high * (2048 * unit) + middle * unit + low) / (2048 * unit) = high ∧
      (high * (2048 * unit) + middle * unit + low) / unit % 2048 = middle ∧
      (high * (2048 * unit) + middle * unit + low) % unit = low := by
  have hu : 0 < unit := by omega
  have key : high * (2048 * unit) + middle * unit + low = low + unit * (high * 2048 + middle) := by
    rw [Nat.mul_add, ← Nat.mul_assoc high, Nat.mul_comm unit, Nat.mul_comm unit middle]; omega
  have hdiv : (low + unit * (high * 2048 + middle)) / unit = high * 2048 + middle := by
    rw [Nat.add_mul_div_left _ _ hu, Nat.div_eq_of_lt hl, Nat.zero_add]
  refine ⟨?_, ?_, ?_⟩
  · rw [key, Nat.mul_comm 2048, ← Nat.div_div_eq_div_mul, hdiv]; omega
  · rw [key, hdiv]; omega
  · rw [key, Nat.add_mul_mod_self_left, Nat.mod_eq_of_lt hl]

/-- The bits determine the datum. -/
theorem ofBits_toBits (x : Binary64) : ofBits x.toBits = x := by
  cases x with
  | nan => rfl
  | infinite negative => cases negative <;> rfl
  | finite negative exponent fraction =>
    obtain ⟨h1, h2, h3⟩ := fields_split negative.toNat
      (Nat.lt_trans exponent.isLt (by decide)) fraction.isLt
    have h63 : 2048 * 1 <<< 52 = 1 <<< 63 := rfl
    rw [h63] at h1 h2 h3
    have hs : negative.toNat % 2 = negative.toNat := by cases negative <;> rfl
    have hn : decide (negative.toNat = 1) = negative := by cases negative <;> rfl
    simp only [toBits, ofBits, h1, h2, h3, hs, hn, exponent.isLt, dite_true]

/-! ## Exact values -/

/-- A nonnegative rational number, not in lowest terms. -/
structure Quotient where
  num : Nat
  den : Nat
  deriving Repr

/-- The number `m · 2 ^ q` as a quotient. -/
def Quotient.scaled (m : Nat) (q : Int) : Quotient :=
  match q with
  | .ofNat n => ⟨m <<< n, 1⟩
  | .negSucc n => ⟨m, 1 <<< (n + 1)⟩

def magnitude (exponent : Fin 2047) (fraction : Fin (1 <<< 52)) : Quotient :=
  .scaled (significand exponent fraction) (scale exponent)

/-! ## Rounding to a datum -/

/-- The datum with significand `m ≤ 2 ^ 53` and scale `q ≥ -1074`, infinite if out of range. -/
def assemble (negative : Bool) (m : Nat) (q : Int) : Binary64 :=
  let m' := if m = 1 <<< 53 then 1 <<< 52 else m
  let q' := if m = 1 <<< 53 then q + 1 else q
  if m' < 1 <<< 52 then .finite negative 0 ⟨m' % (1 <<< 52), Nat.mod_lt _ (by decide)⟩
  else
    let biased := (q' + 1075).toNat
    if h : biased < 2047 then
      .finite negative ⟨biased, h⟩ ⟨(m' - 1 <<< 52) % (1 <<< 52), Nat.mod_lt _ (by decide)⟩
    else .infinite negative

/-- The quotient `num / den / 2 ^ q` as a pair of natural numbers. -/
def shifted (num den : Nat) (q : Int) : Nat × Nat :=
  match q with
  | .ofNat n => (num, den <<< n)
  | .negSucc n => (num <<< (n + 1), den)

/-- The datum nearest to `num / den`, a tie going to the even significand. -/
def ofQuotient (negative : Bool) (num den : Nat) : Binary64 :=
  if num = 0 then signedZero negative
  else
    let guess : Int := (Nat.log2 num : Int) - (Nat.log2 den : Int) - 53
    let q := max (-1074) guess
    let (n, d) := shifted num den q
    if n / d < 1 <<< 53 then assemble negative (roundDiv n d) q
    else
      let (n', d') := shifted num den (q + 1)
      assemble negative (roundDiv n' d') (q + 1)

/-- The datum nearest to an integer; none when the integer is beyond the finite range. -/
def ofInt? (i : Int) : Option Binary64 :=
  match ofQuotient (i < 0) i.natAbs 1 with
  | .infinite _ => none
  | x => some x

def powerOfTen (n : Nat) : Nat := Nat.pow 10 n

/-- The datum nearest to `digits · 10 ^ power`. -/
def ofDecimal (negative : Bool) (digits : Nat) (power : Int) : Binary64 :=
  match power with
  | .ofNat n => ofQuotient negative (digits * powerOfTen n) 1
  | .negSucc n => ofQuotient negative digits (powerOfTen (n + 1))

/-- A finite datum without its fraction, toward zero. -/
def truncate (negative : Bool) (exponent : Fin 2047) (fraction : Fin (1 <<< 52)) : Int :=
  let v := magnitude exponent fraction
  let n : Int := (v.num / v.den : Nat)
  if negative then -n else n

/-- The integer that a datum is, if it is one. -/
def integer? : Binary64 → Option Int
  | .finite negative exponent fraction =>
    let v := magnitude exponent fraction
    if v.num % v.den = 0 then some (truncate negative exponent fraction) else none
  | _ => none

end Binary64

end Logwire.Number
