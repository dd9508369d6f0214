import Logwire.Proofs.Number.Accuracy
import Logwire.Time.Clock
import Mathlib.Tactic.Positivity

/-!
# Logwire.Proofs.Time.Reading

The microseconds that a reading is taken to.

A double precision number of seconds is rounded twice, its fraction times a
million to a datum and the datum to an integer.  The first rounding moves a
number below a million by `2 ^ (-34)` at most, the second one by a half
(`exists_rounded`).  So what comes out is that close to the reading
(`exists_near_of_micros`), and an integer that is closer than the rest of a half
is what comes out (`micros_eq_of_near`).

A number of microseconds need not have a datum of its own.  Up to `2 ^ 33`
seconds from the epoch the nearest datum is close enough to tell it,
`micros_nearest`.
-/

namespace Logwire.Time

open Number

/-! ## Exact readings -/

/-- The rational number that a finite datum denotes. -/
def finiteValue (negative : Bool) (exponent : Fin 2047) (fraction : Fin (1 <<< 52)) : ℚ :=
  let v := (Binary64.magnitude exponent fraction).value
  if negative then -v else v

/-- The seconds that a reading tells, unless it is no number. -/
def Reading.seconds? : Reading → Option ℚ
  | .whole s => some s
  | .number (.finite negative exponent fraction) => some (finiteValue negative exponent fraction)
  | .number _ => none
  | .ticks count => some (count / microsPerSecond)

/-- The double precision number of seconds that is nearest to a number of microseconds. -/
def Reading.nearest (micros : Int) : Reading :=
  .number (.ofQuotient (micros < 0) micros.natAbs microsPerSecond)

/-! ## Rounding -/

theorem microsPerSecond_pos : (0 : ℚ) < microsPerSecond := by
  unfold microsPerSecond
  norm_num

/-- The microseconds in a fraction of a second are rounded to a datum and to an integer. -/
theorem abs_fractionMicros_sub_le {num den : Nat} (h : num < den) :
    |(fractionMicros num den : ℚ) - num / den * microsPerSecond| ≤ 1 / 2 + 1 / 2 ^ 34 := by
  have hd : 0 < den := Nat.zero_lt_of_lt h
  have hdq : (0 : ℚ) < den := by exact_mod_cast hd
  have hsmall : ((num * microsPerSecond : Nat) : ℚ) / den < 2 ^ (53 + (-33) : Int) := by
    have hlt : (num : ℚ) < den := by exact_mod_cast h
    rw [div_lt_iff₀ hdq]
    unfold microsPerSecond
    push_cast
    linarith
  obtain ⟨exponent, fraction, heq, hdatum⟩ := Binary64.exists_ofQuotient_near false
    (num * microsPerSecond) hd (by decide) (by decide) hsmall
  have hinteger : |(roundDiv (Binary64.magnitude exponent fraction).num
      (Binary64.magnitude exponent fraction).den : ℚ) -
      (Binary64.magnitude exponent fraction).value| ≤ 1 / 2 :=
    abs_roundDiv_sub_le _ (Binary64.Quotient.den_scaled_pos _ _)
  have hproduct : ((num * microsPerSecond : Nat) : ℚ) / den = num / den * microsPerSecond := by
    push_cast
    ring
  have hunit : (2 : ℚ) ^ (-33 : Int) / 2 = 1 / 2 ^ 34 := by norm_num
  rw [hproduct, hunit] at hdatum
  rw [fractionMicros, heq, nearestNat]
  exact (abs_sub_le _ _ _).trans (add_le_add hinteger hdatum)

/-- So are the microseconds of a finite number of seconds, of which the whole ones are exact. -/
theorem abs_microsOf_sub_le (negative : Bool) (exponent : Fin 2047) (fraction : Fin (1 <<< 52)) :
    |(microsOf negative exponent fraction : ℚ) -
      finiteValue negative exponent fraction * microsPerSecond| ≤ 1 / 2 + 1 / 2 ^ 34 := by
  unfold microsOf finiteValue Binary64.Quotient.value
  have hden : 0 < (Binary64.magnitude exponent fraction).den := Binary64.Quotient.den_scaled_pos _ _
  generalize Binary64.magnitude exponent fraction = v at hden
  have hdq : (v.den : ℚ) ≠ 0 := by exact_mod_cast hden.ne'
  have hfraction := abs_fractionMicros_sub_le (Nat.mod_lt v.num hden)
  have hsplit : (v.num : ℚ) = v.den * (v.num / v.den : Nat) + (v.num % v.den : Nat) := by
    exact_mod_cast (Nat.div_add_mod v.num v.den).symm
  -- the whole seconds cancel out
  have hwhole : ((v.num / v.den * microsPerSecond + fractionMicros (v.num % v.den) v.den : Nat) : ℚ)
      - v.num / v.den * microsPerSecond =
      fractionMicros (v.num % v.den) v.den - (v.num % v.den : Nat) / v.den * microsPerSecond := by
    conv_lhs => rw [hsplit]
    push_cast
    field_simp
    ring
  rw [← hwhole] at hfraction
  cases negative with
  | false => exact hfraction
  | true =>
    simp only [if_true, Int.cast_neg, Int.cast_natCast]
    rw [neg_mul, ← neg_sub', abs_neg]
    exact hfraction

/-! ## Readings -/

variable {r : Reading} {micros : Int} {x : ℚ}

/-- A finite reading is rounded to one number of microseconds.  That is what comes out, if anything
does, and it does where the seconds fit into 64 bits. -/
theorem exists_rounded (hx : r.seconds? = some x) : ∃ rounded : Int,
    |(rounded : ℚ) - x * microsPerSecond| ≤ 1 / 2 + 1 / 2 ^ 34 ∧
    (∀ m, r.micros = .ok m → m = rounded) ∧
    (-secondsBound * microsPerSecond ≤ rounded → rounded < secondsBound * microsPerSecond →
      r.micros = .ok rounded) := by
  have hexact : ∀ {y z : ℚ}, y = z → |y - z| ≤ 1 / 2 + 1 / 2 ^ 34 := by
    rintro y z rfl
    rw [sub_self, abs_zero]
    norm_num
  have hif : ∀ {c : Prop} [Decidable c] {rounded m : Int},
      (if c then Except.error ClockFault.tooFar else .ok rounded) = .ok m → m = rounded := by
    intro c _ rounded m hm
    split at hm
    · contradiction
    · exact (Except.ok.inj hm).symm
  cases r with
  | whole s =>
    obtain rfl := Option.some.inj hx
    refine ⟨s * microsPerSecond, hexact (by push_cast; rfl), fun m => hif, fun hlow hhigh => ?_⟩
    unfold microsPerSecond secondsBound at hlow hhigh
    rw [Reading.micros, if_neg]
    unfold secondsBound
    omega
  | number y =>
    cases y with
    | nan => contradiction
    | infinite => contradiction
    | finite negative exponent fraction =>
      obtain rfl := Option.some.inj hx
      refine ⟨_, abs_microsOf_sub_le negative exponent fraction, fun m => hif,
        fun hlow hhigh => ?_⟩
      unfold microsPerSecond secondsBound at hlow hhigh
      rw [Reading.micros, if_neg]
      unfold microsPerSecond secondsBound
      omega
  | ticks count =>
    obtain rfl := Option.some.inj hx
    exact ⟨count, hexact (div_mul_cancel₀ _ microsPerSecond_pos.ne').symm,
      fun m hm => (Except.ok.inj hm).symm, fun _ _ => rfl⟩

/-- Nothing comes out of what is no number. -/
theorem exists_seconds_of_micros (h : r.micros = .ok micros) : ∃ x, r.seconds? = some x := by
  cases r with
  | whole | ticks => exact ⟨_, rfl⟩
  | number y =>
    cases y with
    | nan => contradiction
    | infinite => contradiction
    | finite => exact ⟨_, rfl⟩

/-- What comes out is close to the reading. -/
theorem exists_near_of_micros (h : r.micros = .ok micros) : ∃ x, r.seconds? = some x ∧
    |(micros : ℚ) - x * microsPerSecond| ≤ 1 / 2 + 1 / 2 ^ 34 := by
  obtain ⟨x, hx⟩ := exists_seconds_of_micros h
  obtain ⟨rounded, hnear, hunique, -⟩ := exists_rounded hx
  obtain rfl := hunique micros h
  exact ⟨x, hx, hnear⟩

/-- A number of seconds that fits into 64 bits with one to spare is taken to microseconds. -/
theorem exists_micros (hx : r.seconds? = some x) (hsmall : |x| < secondsBound - 1) :
    ∃ micros, r.micros = .ok micros := by
  obtain ⟨rounded, hnear, -, hfits⟩ := exists_rounded hx
  have hpos := microsPerSecond_pos
  have hone : (1 : ℚ) / 2 + 1 / 2 ^ 34 ≤ microsPerSecond := by
    unfold microsPerSecond
    norm_num
  -- a second more than the reading is room enough for the rounding
  obtain ⟨hlow, hhigh⟩ := abs_lt.mp hsmall
  obtain ⟨hbelow, habove⟩ := abs_le.mp hnear
  have hfirst := mul_lt_mul_of_pos_right hlow hpos
  have hlast := mul_lt_mul_of_pos_right hhigh hpos
  refine ⟨rounded, hfits ?_ ?_⟩
  · exact_mod_cast (by linarith : -(secondsBound : ℚ) * microsPerSecond ≤ rounded)
  · exact_mod_cast (by linarith : (rounded : ℚ) < secondsBound * microsPerSecond)

/-- Integers less than a unit apart are the same. -/
theorem eq_of_abs_sub_lt_one {m n : Int} (h : |(m : ℚ) - n| < 1) : m = n := by
  have hint : |m - n| < 1 := by exact_mod_cast h
  rw [Int.abs_lt_one_iff] at hint
  omega

/-- An integer that is close enough to the reading is what comes out. -/
theorem micros_eq_of_near (hx : r.seconds? = some x)
    (hnear : |(micros : ℚ) - x * microsPerSecond| < 1 / 2 - 1 / 2 ^ 34)
    (hlow : -secondsBound * microsPerSecond ≤ micros)
    (hhigh : micros < secondsBound * microsPerSecond) : r.micros = .ok micros := by
  obtain ⟨rounded, hrounded, -, hfits⟩ := exists_rounded hx
  -- what the reading is rounded to is that close as well, so it is the same integer
  have hsame : rounded = micros := by
    refine eq_of_abs_sub_lt_one ((abs_sub_le _ (x * microsPerSecond) _).trans_lt ?_)
    rw [abs_sub_comm (x * microsPerSecond)]
    linarith
  rw [hsame] at hfits
  exact hfits hlow hhigh

/-- Up to `2 ^ 33` seconds from the epoch the nearest datum tells the number of microseconds. -/
theorem micros_nearest (h : micros.natAbs < 2 ^ 33 * microsPerSecond) :
    (Reading.nearest micros).micros = .ok micros := by
  have hpos := microsPerSecond_pos
  have hsmall : (micros.natAbs : ℚ) / microsPerSecond < 2 ^ (53 + (-20) : Int) := by
    rw [div_lt_iff₀ hpos, show (2 : ℚ) ^ (53 + (-20) : Int) = 2 ^ 33 by norm_num]
    exact_mod_cast h
  obtain ⟨exponent, fraction, heq, hdatum⟩ := Binary64.exists_ofQuotient_near (micros < 0)
    micros.natAbs (by decide) (by decide) (by decide) hsmall
  -- the signs of the two are the same
  have hsign : |(micros : ℚ) - finiteValue (micros < 0) exponent fraction * microsPerSecond| =
      |(Binary64.magnitude exponent fraction).value * microsPerSecond - micros.natAbs| := by
    unfold finiteValue
    rcases Int.lt_or_le micros 0 with hneg | hnonneg
    · have habs : (micros : ℚ) = -micros.natAbs := by
        rw [← Int.cast_natCast, ← Int.cast_neg, Int.ofNat_natAbs_of_nonpos hneg.le, neg_neg]
      rw [if_pos (by simpa using hneg), habs, neg_mul, neg_sub_neg]
    · have habs : (micros : ℚ) = micros.natAbs := by
        rw [← Int.cast_natCast, Int.natAbs_of_nonneg hnonneg]
      rw [if_neg (by simpa using hnonneg), habs, abs_sub_comm]
  have hscaled : |(Binary64.magnitude exponent fraction).value * microsPerSecond - micros.natAbs| =
      |(Binary64.magnitude exponent fraction).value - micros.natAbs / microsPerSecond| *
        microsPerSecond := by
    rw [← abs_of_pos hpos, ← abs_mul, abs_of_pos hpos, sub_mul, div_mul_cancel₀ _ hpos.ne']
  unfold Reading.nearest
  rw [heq]
  refine micros_eq_of_near rfl ?_ ?_ ?_
  · rw [hsign, hscaled]
    refine (mul_le_mul_of_nonneg_right hdatum hpos.le).trans_lt ?_
    unfold microsPerSecond
    norm_num
  · unfold microsPerSecond secondsBound at *
    omega
  · unfold microsPerSecond secondsBound at *
    omega

end Logwire.Time
