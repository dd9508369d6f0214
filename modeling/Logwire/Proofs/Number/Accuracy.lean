import Logwire.Proofs.Number.Shortest
import Mathlib.Algebra.Order.Field.Basic

/-!
# Logwire.Proofs.Number.Accuracy

How far rounding moves a quotient.

To an integer it moves by half a unit at most, `abs_roundDiv_sub_le`, and so does
a significand on its way to a datum.  What a unit of the significand is worth is
its scale, and a power of two above the quotient bounds the scale
(`Fits.le_of_lt`): a quotient below `2 ^ (53 + q)` is moved by half of `2 ^ q` at
most, `exists_ofQuotient_near`.
-/

namespace Logwire.Number

/-- The rounded quotient is within half a unit of the exact one. -/
theorem abs_roundDiv_sub_le (num : Nat) {den : Nat} (hd : 0 < den) :
    |(roundDiv num den : ℚ) - num / den| ≤ 1 / 2 := by
  have hdq : (0 : ℚ) < den := by exact_mod_cast hd
  have hexact : (num : ℚ) = num / den * den := by field_simp
  have hhigh : (2 * (roundDiv num den * den) : ℚ) ≤ 2 * num + den := by
    exact_mod_cast two_mul_roundDiv_le num hd
  have hlow : (2 * num : ℚ) ≤ 2 * (roundDiv num den * den) + den := by
    exact_mod_cast le_two_mul_roundDiv num hd
  rw [hexact] at hhigh hlow
  generalize (num : ℚ) / den = y at hhigh hlow
  rw [abs_sub_le_iff]
  constructor
  · refine le_of_mul_le_mul_right ?_ hdq
    linarith
  · refine le_of_mul_le_mul_right ?_ hdq
    linarith

namespace Binary64

/-- A number below `2 ^ (53 + q)` has no digits left over at the scale `q`, so none coarser fits. -/
theorem Fits.le_of_lt {x : ℚ} {q q' : Int} (h : Fits x q) (hq' : -1074 ≤ q')
    (hx : x < 2 ^ (53 + q')) : q ≤ q' := by
  rcases h.low with rfl | hlow
  · exact hq'
  · by_contra hlt
    rw [le_div_iff₀ (by positivity), ← zpow_natCast, ← zpow_add₀ (by norm_num)] at hlow
    have hpow : (2 : ℚ) ^ (53 + q') ≤ 2 ^ ((52 : Nat) + q) :=
      zpow_le_zpow_right₀ (by norm_num) (by push_cast; omega)
    linarith

/-- A significand of at most 53 digits is assembled to the datum that it denotes at its scale. -/
theorem exists_assemble_eq_finite_of_lt (negative : Bool) {m : Nat} {q : Int} (hm : m < 1 <<< 53)
    (hfinest : -1074 ≤ q) (hlast : q ≤ 971) (hlow : q = -1074 ∨ 1 <<< 52 ≤ m) :
    ∃ exponent fraction, assemble negative m q = .finite negative exponent fraction ∧
      (magnitude exponent fraction).value = m * 2 ^ q := by
  have h53 : (1 <<< 53 : Nat) = 1 <<< 52 + 1 <<< 52 := rfl
  rw [assemble_of_lt negative hm]
  by_cases hsmall : m < 1 <<< 52
  · rw [if_pos hsmall]
    obtain rfl := hlow.resolve_right (Nat.not_le.mpr hsmall)
    refine ⟨_, _, rfl, ?_⟩
    rw [magnitude, Quotient.value_scaled]
    simp only [significand, scale, Fin.val_zero, if_true, Nat.mod_eq_of_lt hsmall]
  · have hbiased : (q + 1075).toNat < 2047 := by omega
    have hnonzero : (q + 1075).toNat ≠ 0 := by omega
    have hfraction : (m - 1 <<< 52) % 1 <<< 52 = m - 1 <<< 52 := Nat.mod_eq_of_lt (by omega)
    rw [if_neg hsmall, dif_pos hbiased]
    refine ⟨_, _, rfl, ?_⟩
    rw [magnitude, Quotient.value_scaled]
    simp only [significand, scale, if_neg hnonzero, hfraction]
    rw [Nat.add_sub_cancel' (Nat.not_lt.mp hsmall),
      show (((q + 1075).toNat : Nat) : Int) - 1075 = q by omega]

/-- So is the one above, which is the least of the next scale. -/
theorem exists_assemble_eq_finite (negative : Bool) {m : Nat} {q : Int} (hm : m ≤ 1 <<< 53)
    (hfinest : -1074 ≤ q) (hlast : q ≤ 970) (hlow : q = -1074 ∨ 1 <<< 52 ≤ m) :
    ∃ exponent fraction, assemble negative m q = .finite negative exponent fraction ∧
      (magnitude exponent fraction).value = m * 2 ^ q := by
  rcases Nat.lt_or_eq_of_le hm with hlt | rfl
  · exact exists_assemble_eq_finite_of_lt negative hlt hfinest (by omega) hlow
  · obtain ⟨exponent, fraction, heq, hvalue⟩ := exists_assemble_eq_finite_of_lt negative
      (show (1 <<< 52 : Nat) < 1 <<< 53 by decide) (q := q + 1) (by omega) (by omega) (.inr le_rfl)
    refine ⟨exponent, fraction, (assemble_two_pow negative q).trans heq, ?_⟩
    rw [hvalue, zpow_add_one₀ (by norm_num), Nat.shiftLeft_eq, Nat.shiftLeft_eq]
    push_cast
    ring

/-- A quotient below `2 ^ (53 + q)` is rounded to a finite datum within half of `2 ^ q`. -/
theorem exists_ofQuotient_near (negative : Bool) (num : Nat) {den : Nat} {q : Int} (hd : 0 < den)
    (hfinest : -1074 ≤ q) (hlast : q ≤ 970) (hx : (num : ℚ) / den < 2 ^ (53 + q)) :
    ∃ exponent fraction, ofQuotient negative num den = .finite negative exponent fraction ∧
      |(magnitude exponent fraction).value - num / den| ≤ 2 ^ q / 2 := by
  rcases Nat.eq_zero_or_pos num with rfl | hn
  · refine ⟨0, ⟨0, by decide⟩, rfl, ?_⟩
    have hzero : (magnitude 0 ⟨0, by decide⟩).value = 0 := by
      rw [magnitude, Quotient.value_scaled]
      simp [significand]
    rw [hzero, Nat.cast_zero, zero_div, sub_zero, abs_zero]
    exact (half_pos (zpow_pos (by norm_num) q)).le
  · obtain ⟨q', n, d, hfits, hdpos, hnd, heq⟩ := exists_ofQuotient_eq_assemble negative hn hd
    have hle := hfits.le_of_lt hfinest hx
    have hdq : (0 : ℚ) < d := by exact_mod_cast hdpos
    have hround := abs_roundDiv_sub_le n hdpos
    have hfloor := roundDiv_eq_or n d
    have hhigh : n / d < 1 <<< 53 := by
      have hy := hfits.high
      rw [← hnd, div_lt_iff₀ hdq] at hy
      rw [Nat.div_lt_iff_lt_mul hdpos]
      exact_mod_cast hy
    have hlow : q' = -1074 ∨ 1 <<< 52 ≤ n / d := hfits.low.imp_right fun hy => by
      rw [← hnd, le_div_iff₀ hdq] at hy
      rw [Nat.le_div_iff_mul_le hdpos]
      exact_mod_cast hy
    obtain ⟨exponent, fraction, hassemble, hvalue⟩ := exists_assemble_eq_finite negative
      (m := roundDiv n d) (q := q') (by omega) hfits.finest (by omega) (by omega)
    refine ⟨exponent, fraction, heq.trans hassemble, ?_⟩
    have hscale : (0 : ℚ) < 2 ^ q' := by positivity
    have hquotient : (num : ℚ) / den = n / d * 2 ^ q' := by
      rw [hnd]
      field_simp
    calc |(magnitude exponent fraction).value - num / den|
        = |(roundDiv n d : ℚ) - n / d| * 2 ^ q' := by
          rw [hvalue, hquotient, ← sub_mul, abs_mul, abs_of_pos hscale]
      _ ≤ 1 / 2 * 2 ^ q' := by gcongr
      _ ≤ 1 / 2 * 2 ^ q := by gcongr; norm_num
      _ = 2 ^ q / 2 := by ring

end Binary64

end Logwire.Number
