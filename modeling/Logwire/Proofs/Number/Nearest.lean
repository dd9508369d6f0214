import Logwire.Number.Decimal
import Mathlib.Algebra.Order.Field.Power
import Mathlib.Data.Rat.Cast.Order
import Mathlib.Tactic.FieldSimp
import Mathlib.Tactic.Linarith
import Mathlib.Tactic.NormNum
import Mathlib.Tactic.Ring

/-!
# Logwire.Proofs.Number.Nearest

Rounding to a datum, over the rational numbers.

The rationals that round to a finite datum fill a window around it: half a unit
of its significand to either side, a quarter below a power of two, and the ends
belong to it when the significand is even.  `ofQuotient_of_contains` says that
every quotient in the window is rounded to the datum.

Rounding picks a scale first, and only one scale fits
(`exists_ofQuotient_eq_assemble`, `Fits.le`).  It is the datum's own
(`ofQuotient_of_inWindow`), except just below a power of two, where the next
finer scale rounds up to it (`ofQuotient_of_inWindow_two_pow`).

From a threshold on a quotient is rounded to an infinity
(`exists_ofQuotient_eq_infinite_iff`), so an integer of that size has no nearest
datum (`ofInt?_eq_none_iff`).
-/

namespace Logwire.Number

/-! ## Quotients to the nearest integer -/

/-- An integer within half a unit of a quotient is its rounding, if it is even or nearer than
that. -/
theorem roundDiv_eq_of_near {n d m : Nat} (hd : 0 < d) (hlow : 2 * (m * d) ≤ 2 * n + d)
    (hhigh : 2 * n ≤ 2 * (m * d) + d)
    (htie : m % 2 = 0 ∨ 2 * (m * d) < 2 * n + d ∧ 2 * n < 2 * (m * d) + d) : roundDiv n d = m := by
  have hdm := Nat.div_add_mod n d
  have hr := Nat.mod_lt n hd
  have hcomm : d * (n / d) = n / d * d := Nat.mul_comm _ _
  have hfloor : m = n / d ∨ m = n / d + 1 := by
    have h1 : n / d ≤ m := by
      by_contra h
      have hmul : (m + 1) * d ≤ n / d * d := Nat.mul_le_mul_right d (by omega)
      rw [Nat.add_mul] at hmul
      omega
    have h2 : m ≤ n / d + 1 := by
      by_contra h
      have hmul : (n / d + 2) * d ≤ m * d := Nat.mul_le_mul_right d (by omega)
      rw [Nat.add_mul] at hmul
      omega
    omega
  unfold roundDiv
  simp only
  rcases hfloor with rfl | rfl
  · split
    · rfl
    · split
      · rw [if_pos (by omega)]
      · omega
  · rw [Nat.add_mul] at hlow hhigh htie
    split
    · omega
    · split
      · rw [if_neg (by omega)]
      · rfl

/-- The same for the quotient as a rational number. -/
theorem roundDiv_eq_of_abs {n d m : Nat} {y : ℚ} (hd : 0 < d) (hy : (n : ℚ) / d = y)
    (hlow : m - 1 / 2 ≤ y) (hhigh : y ≤ m + 1 / 2)
    (htie : m % 2 = 0 ∨ m - 1 / 2 < y ∧ y < m + 1 / 2) : roundDiv n d = m := by
  have hdq : (0 : ℚ) < d := by exact_mod_cast hd
  have hn : (n : ℚ) = y * d := by
    rw [← hy]
    field_simp
  have hl : (2 * (m * d) : ℚ) ≤ 2 * n + d := by
    rw [hn]
    nlinarith
  have hh : (2 * n : ℚ) ≤ 2 * (m * d) + d := by
    rw [hn]
    nlinarith
  refine roundDiv_eq_of_near hd (by exact_mod_cast hl) (by exact_mod_cast hh) ?_
  refine htie.imp_right fun hopen => ?_
  obtain ⟨h1, h2⟩ := hopen
  have hl' : (2 * (m * d) : ℚ) < 2 * n + d := by
    rw [hn]
    nlinarith
  have hh' : (2 * n : ℚ) < 2 * (m * d) + d := by
    rw [hn]
    nlinarith
  exact ⟨by exact_mod_cast hl', by exact_mod_cast hh'⟩

namespace Binary64

/-! ## Scales -/

/-- A quotient brought to a scale is the quotient over the power of two. -/
theorem shifted_div (num : Nat) {den : Nat} (hd : 0 < den) (q : Int) :
    0 < (shifted num den q).2 ∧
      ((shifted num den q).1 : ℚ) / (shifted num den q).2 = (num : ℚ) / den / 2 ^ q := by
  have hdq : (den : ℚ) ≠ 0 := by exact_mod_cast hd.ne'
  cases q with
  | ofNat n =>
    have hpos : 0 < den <<< n := by
      rw [Nat.shiftLeft_eq]
      exact Nat.mul_pos hd (Nat.two_pow_pos n)
    refine ⟨hpos, ?_⟩
    simp only [shifted, Nat.shiftLeft_eq, Int.ofNat_eq_natCast, zpow_natCast]
    push_cast
    field_simp
  | negSucc n =>
    refine ⟨hd, ?_⟩
    simp only [shifted, Nat.shiftLeft_eq, zpow_negSucc]
    push_cast
    field_simp

/-- A positive quotient lies within a factor of two of the power that its digits suggest. -/
theorem log2_bounds {num den : Nat} (hn : 0 < num) (hd : 0 < den) :
    (2 : ℚ) ^ ((Nat.log2 num : Int) - Nat.log2 den - 1) < (num : ℚ) / den ∧
      (num : ℚ) / den < 2 ^ ((Nat.log2 num : Int) - Nat.log2 den + 1) := by
  have hdq : (0 : ℚ) < den := by exact_mod_cast hd
  have h2 : (2 : ℚ) ≠ 0 := by norm_num
  have hnlow : (2 : ℚ) ^ (Nat.log2 num : Int) ≤ num := by
    rw [zpow_natCast]
    exact_mod_cast Nat.log2_self_le hn.ne'
  have hnhigh : (num : ℚ) < 2 ^ ((Nat.log2 num : Int) + 1) := by
    have := Nat.lt_log2_self (n := num)
    exact_mod_cast this
  have hdlow : (2 : ℚ) ^ (Nat.log2 den : Int) ≤ den := by
    rw [zpow_natCast]
    exact_mod_cast Nat.log2_self_le hd.ne'
  have hdhigh : (den : ℚ) < 2 ^ ((Nat.log2 den : Int) + 1) := by
    have := Nat.lt_log2_self (n := den)
    exact_mod_cast this
  constructor
  · rw [lt_div_iff₀ hdq]
    calc (2 : ℚ) ^ ((Nat.log2 num : Int) - Nat.log2 den - 1) * den
        < 2 ^ ((Nat.log2 num : Int) - Nat.log2 den - 1) * 2 ^ ((Nat.log2 den : Int) + 1) := by
          gcongr
      _ = 2 ^ (Nat.log2 num : Int) := by rw [← zpow_add₀ h2]; congr 1; omega
      _ ≤ num := hnlow
  · rw [div_lt_iff₀ hdq]
    calc (num : ℚ) < 2 ^ ((Nat.log2 num : Int) + 1) := hnhigh
      _ = 2 ^ ((Nat.log2 num : Int) - Nat.log2 den + 1) * 2 ^ (Nat.log2 den : Int) := by
          rw [← zpow_add₀ h2]; congr 1; omega
      _ ≤ 2 ^ ((Nat.log2 num : Int) - Nat.log2 den + 1) * den := by gcongr

/-- A scale fits a rational number if its significand there is below `2 ^ 53`, and not below
`2 ^ 52` unless the scale is the finest. -/
structure Fits (x : ℚ) (q : Int) : Prop where
  finest : -1074 ≤ q
  high : x / 2 ^ q < 2 ^ 53
  low : q = -1074 ∨ 2 ^ 52 ≤ x / 2 ^ q

/-- One scale up halves the significand. -/
theorem div_zpow_add (x : ℚ) (q : Int) (n : Nat) : x / 2 ^ (q + n) = x / 2 ^ q / 2 ^ n := by
  rw [zpow_add₀ (by norm_num), zpow_natCast, div_div]

/-- At the scale that the digits suggest the significand has 53 or 54 digits. -/
theorem guess_bounds {num den : Nat} (hn : 0 < num) (hd : 0 < den) :
    2 ^ 52 ≤ (num : ℚ) / den / 2 ^ ((Nat.log2 num : Int) - Nat.log2 den - 53) ∧
      (num : ℚ) / den / 2 ^ ((Nat.log2 num : Int) - Nat.log2 den - 53) < 2 ^ 54 := by
  obtain ⟨hlow, hhigh⟩ := log2_bounds hn hd
  set guess : Int := (Nat.log2 num : Int) - Nat.log2 den - 53 with hguess
  have h2 : (2 : ℚ) ≠ 0 := by norm_num
  have hpos : (0 : ℚ) < 2 ^ guess := by positivity
  constructor
  · rw [le_div_iff₀ hpos]
    calc (2 : ℚ) ^ 52 * 2 ^ guess = 2 ^ ((Nat.log2 num : Int) - Nat.log2 den - 1) := by
          rw [← zpow_natCast, ← zpow_add₀ h2]; congr 1; push_cast; omega
      _ ≤ (num : ℚ) / den := hlow.le
  · rw [div_lt_iff₀ hpos]
    calc (num : ℚ) / den < 2 ^ ((Nat.log2 num : Int) - Nat.log2 den + 1) := hhigh
      _ = (2 : ℚ) ^ 54 * 2 ^ guess := by
          rw [← zpow_natCast, ← zpow_add₀ h2]; congr 1; push_cast; omega

/-- No scale above it leaves more than 53 digits. -/
theorem div_lt_of_guess_lt {num den : Nat} {q : Int} (hn : 0 < num) (hd : 0 < den)
    (hq : (Nat.log2 num : Int) - Nat.log2 den - 53 < q) : (num : ℚ) / den / 2 ^ q < 2 ^ 53 := by
  obtain ⟨n, rfl⟩ : ∃ n : Nat, q = (Nat.log2 num : Int) - Nat.log2 den - 53 + (n + 1 : Nat) :=
    ⟨(q - ((Nat.log2 num : Int) - Nat.log2 den - 53) - 1).toNat, by omega⟩
  rw [div_zpow_add, div_lt_iff₀ (by positivity)]
  calc (num : ℚ) / den / 2 ^ ((Nat.log2 num : Int) - Nat.log2 den - 53) < 2 ^ 54 :=
        (guess_bounds hn hd).2
    _ = 2 ^ 53 * 2 ^ 1 := by norm_num
    _ ≤ 2 ^ 53 * 2 ^ (n + 1) :=
      mul_le_mul_of_nonneg_left (pow_le_pow_right₀ (by norm_num) (by omega)) (by norm_num)

/-- Whether the scale is fine enough is told by the digits before the point. -/
theorem floor_shifted_lt_iff (num : Nat) {den : Nat} (hd : 0 < den) (q : Int) :
    (shifted num den q).1 / (shifted num den q).2 < 1 <<< 53 ↔ (num : ℚ) / den / 2 ^ q < 2 ^ 53 := by
  obtain ⟨hdpos, hdiv⟩ := shifted_div num hd q
  have hdq : (0 : ℚ) < (shifted num den q).2 := by exact_mod_cast hdpos
  rw [← hdiv, Nat.div_lt_iff_lt_mul hdpos, div_lt_iff₀ hdq]
  exact_mod_cast Iff.rfl

/-- The scale of the guess is taken, or the next one if there are too many digits. -/
theorem ofQuotient_eq (negative : Bool) {num den : Nat} {q : Int} (hn : 0 < num)
    (hq : max (-1074) ((Nat.log2 num : Int) - Nat.log2 den - 53) = q) :
    ofQuotient negative num den =
      if (shifted num den q).1 / (shifted num den q).2 < 1 <<< 53 then
        assemble negative (roundDiv (shifted num den q).1 (shifted num den q).2) q
      else
        assemble negative (roundDiv (shifted num den (q + 1)).1 (shifted num den (q + 1)).2)
          (q + 1) := by
  subst hq
  unfold ofQuotient
  rw [if_neg hn.ne']

/-- Rounding takes place at a scale that fits. -/
theorem exists_ofQuotient_eq_assemble (negative : Bool) {num den : Nat} (hn : 0 < num)
    (hd : 0 < den) : ∃ (q : Int) (n d : Nat), Fits ((num : ℚ) / den) q ∧ 0 < d ∧
      (n : ℚ) / d = (num : ℚ) / den / 2 ^ q ∧
      ofQuotient negative num den = assemble negative (roundDiv n d) q := by
  obtain ⟨hguessLow, hguessHigh⟩ := guess_bounds hn hd
  obtain ⟨q, hq⟩ : ∃ q, max (-1074) ((Nat.log2 num : Int) - Nat.log2 den - 53) = q := ⟨_, rfl⟩
  obtain ⟨hdpos, hdiv⟩ := shifted_div num hd q
  obtain ⟨hdpos', hdiv'⟩ := shifted_div num hd (q + 1)
  have hguess : q = -1074 ∨ q = (Nat.log2 num : Int) - Nat.log2 den - 53 := by omega
  rw [ofQuotient_eq negative hn hq]
  by_cases hsmall : (num : ℚ) / den / 2 ^ q < 2 ^ 53
  · rw [if_pos ((floor_shifted_lt_iff num hd q).mpr hsmall)]
    refine ⟨q, _, _, ⟨by omega, hsmall, hguess.imp_right ?_⟩, hdpos, hdiv, rfl⟩
    rintro rfl
    exact hguessLow
  · rw [if_neg fun h => hsmall ((floor_shifted_lt_iff num hd q).mp h)]
    obtain rfl : q = (Nat.log2 num : Int) - Nat.log2 den - 53 := by
      by_contra hne
      exact hsmall (div_lt_of_guess_lt hn hd (by omega))
    have hstep := div_zpow_add ((num : ℚ) / den) ((Nat.log2 num : Int) - Nat.log2 den - 53) 1
    rw [Nat.cast_one, pow_one] at hstep
    refine ⟨_, _, _, ⟨by omega, ?_, .inr ?_⟩, hdpos', hdiv', rfl⟩
    · rw [hstep]
      linarith
    · rw [hstep]
      linarith

/-- Only one scale fits. -/
theorem Fits.le {x : ℚ} {q q' : Int} (h : Fits x q) (h' : Fits x q') : q ≤ q' := by
  by_contra hlt
  obtain ⟨n, rfl⟩ : ∃ n : Nat, q = q' + (n + 1 : Nat) := ⟨(q - q' - 1).toNat, by omega⟩
  have hlow := h.low.resolve_left (by have := h'.finest; omega)
  rw [div_zpow_add, le_div_iff₀ (by positivity)] at hlow
  have hpow : (2 : ℚ) ^ 1 ≤ 2 ^ (n + 1) := pow_le_pow_right₀ (by norm_num) (by omega)
  have := h'.high
  nlinarith

/-- So the datum is assembled from the integer nearest to the significand there. -/
theorem ofQuotient_of_fits (negative : Bool) {num den m : Nat} {q : Int} (hn : 0 < num)
    (hd : 0 < den) (hq : Fits ((num : ℚ) / den) q) (hlow : m - 1 / 2 ≤ (num : ℚ) / den / 2 ^ q)
    (hhigh : (num : ℚ) / den / 2 ^ q ≤ m + 1 / 2)
    (htie : m % 2 = 0 ∨
      m - 1 / 2 < (num : ℚ) / den / 2 ^ q ∧ (num : ℚ) / den / 2 ^ q < m + 1 / 2) :
    ofQuotient negative num den = assemble negative m q := by
  obtain ⟨q', n, d, hq', hdpos, hnd, heq⟩ := exists_ofQuotient_eq_assemble negative hn hd
  obtain rfl : q = q' := Int.le_antisymm (hq.le hq') (hq'.le hq)
  rw [heq, roundDiv_eq_of_abs hdpos hnd hlow hhigh htie]

/-! ## Data -/

section

variable (negative : Bool) (exponent : Fin 2047) (fraction : Fin (1 <<< 52))

/-- The significand of a datum and its scale. -/
theorem significand_cases :
    exponent.val = 0 ∧ significand exponent fraction = fraction.val ∧ scale exponent = -1074 ∨
      1 ≤ exponent.val ∧ significand exponent fraction = 1 <<< 52 + fraction.val ∧
        scale exponent = (exponent.val : Int) - 1075 := by
  unfold significand scale
  by_cases h : exponent.val = 0
  · rw [if_pos h, if_pos h]
    exact .inl ⟨h, rfl, rfl⟩
  · rw [if_neg h, if_neg h]
    exact .inr ⟨by omega, rfl, rfl⟩

/-- A significand has 53 bits at most. -/
theorem significand_lt : significand exponent fraction < 1 <<< 53 := by
  have h53 : (1 <<< 53 : Nat) = 2 ^ 53 := rfl
  have hf : fraction.val < 2 ^ 52 := fraction.isLt
  rcases significand_cases exponent fraction with ⟨-, h, -⟩ | ⟨-, h, -⟩
  · omega
  · omega

/-- Below `2 ^ 53` only the significand decides whether the exponent is the least. -/
theorem assemble_of_lt {m : Nat} (h : m < 1 <<< 53) (q : Int) : assemble negative m q =
    if m < 1 <<< 52 then .finite negative 0 ⟨m % (1 <<< 52), Nat.mod_lt _ (by decide)⟩
    else if h : (q + 1075).toNat < 2047 then
      .finite negative ⟨(q + 1075).toNat, h⟩ ⟨(m - 1 <<< 52) % (1 <<< 52), Nat.mod_lt _ (by decide)⟩
    else .infinite negative := by
  unfold assemble
  simp only [if_neg (Nat.ne_of_lt h)]

/-- A datum is assembled from its significand and its scale. -/
theorem assemble_significand : assemble negative (significand exponent fraction) (scale exponent)
    = .finite negative exponent fraction := by
  rw [assemble_of_lt negative (significand_lt exponent fraction)]
  rcases significand_cases exponent fraction with ⟨he, hs, hq⟩ | ⟨he, hs, hq⟩
  · have hfrac : fraction.val % (1 <<< 52) = fraction.val := Nat.mod_eq_of_lt fraction.isLt
    rw [if_pos (by rw [hs]; exact fraction.isLt)]
    exact (finite.injEq ..).mpr ⟨rfl, Fin.ext he.symm, Fin.ext (by rw [hs]; exact hfrac)⟩
  · have hbiased : (scale exponent + 1075).toNat = exponent.val := by omega
    have hfrac : (significand exponent fraction - 1 <<< 52) % (1 <<< 52) = fraction.val := by
      rw [hs, Nat.add_sub_cancel_left]
      exact Nat.mod_eq_of_lt fraction.isLt
    have hlow : ¬ significand exponent fraction < 1 <<< 52 := by
      rw [hs]
      exact Nat.not_lt.mpr (Nat.le_add_right _ _)
    rw [if_neg hlow, dif_pos (by rw [hbiased]; exact exponent.isLt)]
    exact (finite.injEq ..).mpr ⟨rfl, Fin.ext hbiased, Fin.ext hfrac⟩

/-- A significand one above the greatest is the least one at the next scale. -/
theorem assemble_two_pow (q : Int) :
    assemble negative (1 <<< 53) q = assemble negative (1 <<< 52) (q + 1) := by
  rw [assemble_of_lt negative (show (1 <<< 52 : Nat) < 1 <<< 53 by decide)]
  unfold assemble
  simp only [if_true]

end

end Binary64

/-! ## Windows -/

/-- A rational number lies in a window on a grid of powers of two. -/
structure Window.Contains (w : Window) (grid : Int) (x : ℚ) : Prop where
  low : w.low * 2 ^ grid ≤ x
  high : x ≤ w.high * 2 ^ grid
  interior : w.closed = true ∨ w.low * 2 ^ grid < x ∧ x < w.high * 2 ^ grid

/-- So many quarters of a unit below a significand, or half a unit above it. -/
structure InWindow (m below : Nat) (y : ℚ) : Prop where
  low : m - (below : ℚ) / 4 ≤ y
  high : y ≤ m + 1 / 2
  interior : m % 2 = 0 ∨ m - (below : ℚ) / 4 < y ∧ y < m + 1 / 2

/-- A window on the grid is one around the significand at its scale. -/
theorem Window.Contains.inWindow {m below mid : Nat} {q : Int} {x : ℚ}
    (h : Window.Contains ⟨4 * m - below, mid, 4 * m + 2, m % 2 = 0⟩ (q - 2) x) :
    InWindow m below (x / 2 ^ q) := by
  have hpos : (0 : ℚ) < 2 ^ q := by positivity
  have hgrid : (2 : ℚ) ^ (q - 2) = 2 ^ q / 4 := by
    rw [zpow_sub₀ (by norm_num)]
    norm_num
  have hsub : (4 * m : ℚ) - below ≤ (4 * m - below : Nat) := by
    rw [sub_le_iff_le_add]
    exact_mod_cast (le_tsub_add : 4 * m ≤ 4 * m - below + below)
  have hlowGrid : (m - (below : ℚ) / 4) * 2 ^ q ≤ (4 * m - below : Nat) * 2 ^ (q - 2) := by
    rw [hgrid]
    nlinarith
  have hhighGrid : ((4 * m + 2 : Nat) : ℚ) * 2 ^ (q - 2) = (m + 1 / 2) * 2 ^ q := by
    rw [hgrid]
    push_cast
    ring
  refine ⟨?_, ?_, h.interior.imp of_decide_eq_true fun hopen => ⟨?_, ?_⟩⟩
  · rw [le_div_iff₀ hpos]
    exact hlowGrid.trans h.low
  · rw [div_le_iff₀ hpos, ← hhighGrid]
    exact h.high
  · rw [lt_div_iff₀ hpos]
    exact hlowGrid.trans_lt hopen.1
  · rw [div_lt_iff₀ hpos, ← hhighGrid]
    exact hopen.2

namespace Binary64

section

variable (negative : Bool) {exponent : Fin 2047} {fraction : Fin (1 <<< 52)} {num den : Nat}

/-- The window of a power of two.  Below the power the next finer scale fits, and rounds up to it. -/
theorem ofQuotient_of_inWindow_two_pow {q : Int} (hn : 0 < num) (hd : 0 < den)
    (hq : -1074 ≤ q - 1) (h : InWindow (1 <<< 52) 1 ((num : ℚ) / den / 2 ^ q)) :
    ofQuotient negative num den = assemble negative (1 <<< 52) q := by
  have h52 : ((1 <<< 52 : Nat) : ℚ) = 2 ^ 52 := by
    exact_mod_cast (rfl : (1 <<< 52 : Nat) = 2 ^ 52)
  have hlow := h.low
  have hhigh := h.high
  rw [h52] at hlow hhigh
  by_cases hfine : (num : ℚ) / den / 2 ^ q < 2 ^ 52
  · have hdouble : (num : ℚ) / den / 2 ^ (q - 1) = 2 * ((num : ℚ) / den / 2 ^ q) := by
      rw [zpow_sub_one₀ (by norm_num)]
      field_simp
    have h53 : ((1 <<< 53 : Nat) : ℚ) = 2 ^ 53 := by
      exact_mod_cast (rfl : (1 <<< 53 : Nat) = 2 ^ 53)
    have hup := assemble_two_pow negative (q - 1)
    rw [sub_add_cancel] at hup
    rw [← hup]
    refine ofQuotient_of_fits negative hn hd ⟨hq, ?_, .inr ?_⟩ ?_ ?_ (.inl (by decide))
    all_goals
      rw [hdouble]
      push_cast at hlow
      linarith
  · refine ofQuotient_of_fits negative hn hd ⟨by omega, ?_, .inr (not_lt.mp hfine)⟩ ?_ h.high
      (.inl (by decide))
    · linarith
    · rw [h52]
      linarith

/-- The window of a significand that is the least only at the finest scale. -/
theorem ofQuotient_of_inWindow {m : Nat} {q : Int} (hn : 0 < num) (hd : 0 < den) (hq : -1074 ≤ q)
    (hm : m < 1 <<< 53) (hleast : q = -1074 ∨ 1 <<< 52 < m)
    (h : InWindow m 2 ((num : ℚ) / den / 2 ^ q)) :
    ofQuotient negative num den = assemble negative m q := by
  have hhalf : (m : ℚ) - (2 : Nat) / 4 = m - 1 / 2 := by norm_num
  have hmhigh : (m : ℚ) + 1 ≤ 2 ^ 53 := by exact_mod_cast hm
  obtain ⟨hlow, hhigh, hinterior⟩ := h
  rw [hhalf] at hlow hinterior
  refine ofQuotient_of_fits negative hn hd ⟨hq, by linarith, ?_⟩ hlow hhigh hinterior
  refine hleast.imp_right fun hnormal => ?_
  have hmlow : (2 : ℚ) ^ 52 + 1 ≤ m := by exact_mod_cast hnormal
  linarith

/-- Every quotient in the window of a datum is rounded to the datum. -/
theorem ofQuotient_of_contains (hn : 0 < num) (hd : 0 < den)
    (h : (window exponent fraction).1.Contains (window exponent fraction).2 ((num : ℚ) / den)) :
    ofQuotient negative num den = .finite negative exponent fraction := by
  have hin := Window.Contains.inWindow h
  have hcases := significand_cases exponent fraction
  have hlt := significand_lt exponent fraction
  rw [← assemble_significand negative exponent fraction]
  by_cases hbelow : fraction.val = 0 && exponent.val > 1
  · rw [if_pos hbelow] at hin
    simp only [Bool.and_eq_true, decide_eq_true_eq] at hbelow
    obtain ⟨hm, hq⟩ : significand exponent fraction = 1 <<< 52 ∧ -1074 ≤ scale exponent - 1 := by
      omega
    rw [hm] at hin ⊢
    exact ofQuotient_of_inWindow_two_pow negative hn hd hq hin
  · rw [if_neg hbelow] at hin
    simp only [Bool.and_eq_true, decide_eq_true_eq, not_and] at hbelow
    exact ofQuotient_of_inWindow negative hn hd (by omega) hlt (by omega) hin

end

/-! ## Beyond the finite data -/

/-- The least rational number that is rounded to no finite datum, `2 ^ 1024 - 2 ^ 970`: half a unit
of the last scale below its end. -/
def threshold : Nat := (2 ^ 54 - 1) * 2 ^ 970

/-- The threshold lies half a unit below the first power of two that is out of range. -/
theorem threshold_cast : (threshold : ℚ) = (2 ^ 53 - 1 / 2) * 2 ^ (971 : Int) := by
  rw [threshold, Nat.cast_mul, Nat.cast_pow, Nat.cast_ofNat, ← zpow_natCast (2 : ℚ) 970,
    show (971 : Int) = (970 : Nat) + 1 from rfl, zpow_add_one₀ (by norm_num)]
  generalize (2 : ℚ) ^ ((970 : Nat) : Int) = unit
  norm_num
  ring

theorem one_lt_threshold : 1 < threshold := by
  have hpos : ∀ n : Nat, 1 < (2 ^ 54 - 1) * 2 ^ n := fun n =>
    Nat.lt_of_lt_of_le (by decide) (Nat.le_mul_of_pos_right _ (Nat.two_pow_pos n))
  exact hpos 970

/-- An assembled datum is infinite if its significand is normal and its scale is beyond the last. -/
theorem exists_assemble_eq_infinite_iff (negative : Bool) {m : Nat} (hm : m ≤ 1 <<< 53) (q : Int) :
    (∃ s, assemble negative m q = .infinite s) ↔
      1 <<< 52 ≤ m ∧ (972 ≤ q ∨ q = 971 ∧ m = 1 <<< 53) := by
  have h52 : (1 <<< 52 : Nat) < 1 <<< 53 := by decide
  -- a significand of 53 digits, at the scale it is assembled at
  have hnormal : ∀ m' : Nat, ∀ q' : Int, 1 <<< 52 ≤ m' → m' < 1 <<< 53 →
      ((∃ s, assemble negative m' q' = .infinite s) ↔ 972 ≤ q') := fun m' q' hlow hhigh => by
    rw [assemble_of_lt negative hhigh, if_neg (Nat.not_lt.mpr hlow)]
    split
    · exact ⟨fun ⟨_, h⟩ => (nomatch h), fun h => by omega⟩
    · exact ⟨fun _ => by omega, fun _ => ⟨_, rfl⟩⟩
  rcases Nat.lt_or_eq_of_le hm with hlt | rfl
  · by_cases hlow : 1 <<< 52 ≤ m
    · rw [hnormal m q hlow hlt]
      exact ⟨fun h => ⟨hlow, .inl h⟩, fun ⟨_, h⟩ => h.resolve_right fun h => by omega⟩
    · rw [assemble_of_lt negative hlt, if_pos (Nat.not_le.mp hlow)]
      exact ⟨fun ⟨_, h⟩ => (nomatch h), fun ⟨h, _⟩ => absurd h hlow⟩
  · rw [assemble_two_pow, hnormal _ _ le_rfl h52]
    omega

/-- The rounding of a quotient below `2 ^ 53` reaches it from half a unit below. -/
theorem roundDiv_eq_two_pow_iff {n d : Nat} {y : ℚ} (hd : 0 < d) (hy : (n : ℚ) / d = y)
    (hhigh : y < 2 ^ 53) : roundDiv n d = 1 <<< 53 ↔ 2 ^ 53 - 1 / 2 ≤ y := by
  have h53 : ((1 <<< 53 : Nat) : ℚ) = 2 ^ 53 := by
    exact_mod_cast (rfl : (1 <<< 53 : Nat) = 2 ^ 53)
  have hdq : (0 : ℚ) < d := by exact_mod_cast hd
  constructor
  · intro h
    have hround : (2 * (roundDiv n d * d) : ℚ) ≤ 2 * n + d := by
      exact_mod_cast two_mul_roundDiv_le n hd
    rw [h, h53] at hround
    rw [← hy, le_div_iff₀ hdq]
    linarith
  · intro h
    refine roundDiv_eq_of_abs hd hy (h53 ▸ h) ?_ (.inl (by decide))
    rw [h53]
    linarith

/-- A quotient is rounded to an infinity from the threshold on. -/
theorem exists_ofQuotient_eq_infinite_iff (negative : Bool) (num : Nat) {den : Nat}
    (hd : 0 < den) :
    (∃ s, ofQuotient negative num den = .infinite s) ↔ (threshold : ℚ) ≤ (num : ℚ) / den := by
  have hthreshold : (0 : ℚ) < threshold := by exact_mod_cast one_pos.trans one_lt_threshold
  rcases Nat.eq_zero_or_pos num with rfl | hn
  · rw [Nat.cast_zero, zero_div]
    exact ⟨fun ⟨_, h⟩ => (nomatch h), fun h => absurd hthreshold (not_lt.mpr h)⟩
  · obtain ⟨q, n, d, hq, hdpos, hnd, heq⟩ := exists_ofQuotient_eq_assemble negative hn hd
    obtain ⟨-, hhigh, hlow⟩ := hq
    have hscaled : (num : ℚ) / den = (num : ℚ) / den / 2 ^ q * 2 ^ q := by field_simp
    generalize (num : ℚ) / den / 2 ^ q = y at hhigh hlow hnd hscaled
    have hdq : (0 : ℚ) < d := by exact_mod_cast hdpos
    have hfloor : n / d < 1 <<< 53 := by
      rw [Nat.div_lt_iff_lt_mul hdpos]
      rw [← hnd, div_lt_iff₀ hdq] at hhigh
      exact_mod_cast hhigh
    have hround := roundDiv_eq_or n d
    rw [heq, exists_assemble_eq_infinite_iff negative (by omega), hscaled]
    rcases lt_trichotomy q 971 with hbelow | rfl | habove
    · -- everything at a smaller scale is below the threshold
      have hpow : (2 : ℚ) ^ q ≤ 2 ^ (970 : Int) := zpow_le_zpow_right₀ (by norm_num) (by omega)
      have hsmall : y * 2 ^ q < threshold := by
        calc y * 2 ^ q ≤ 2 ^ 53 * 2 ^ q := by gcongr
          _ ≤ 2 ^ 53 * 2 ^ (970 : Int) := by gcongr
          _ < threshold := by
            rw [threshold_cast]
            have hpos : (0 : ℚ) < 2 ^ (970 : Int) := by positivity
            calc (2 : ℚ) ^ 53 * 2 ^ (970 : Int) < (2 ^ 53 - 1 / 2) * 2 * 2 ^ (970 : Int) := by
                  gcongr
                  norm_num
              _ = (2 ^ 53 - 1 / 2) * 2 ^ (971 : Int) := by
                  rw [show (971 : Int) = 970 + 1 from rfl, zpow_add_one₀ (by norm_num)]
                  ring
      exact ⟨fun h => by omega, fun h => absurd hsmall (not_lt.mpr h)⟩
    · -- at the last scale only what is rounded up to the next one is beyond it
      rw [threshold_cast, mul_le_mul_iff_left₀ (by positivity),
        ← roundDiv_eq_two_pow_iff hdpos hnd hhigh]
      exact ⟨fun h => (h.2.resolve_left (by decide)).2, fun h => ⟨by rw [h]; decide, .inr ⟨rfl, h⟩⟩⟩
    · -- a significand at a greater scale is normal
      have hnormal : 2 ^ 52 ≤ y := hlow.resolve_left (by omega)
      have hfloor' : 1 <<< 52 ≤ n / d := by
        rw [Nat.le_div_iff_mul_le hdpos]
        rw [← hnd, le_div_iff₀ hdq] at hnormal
        exact_mod_cast hnormal
      have hpow : (2 : ℚ) ^ (972 : Int) ≤ 2 ^ q := zpow_le_zpow_right₀ (by norm_num) (by omega)
      have hlarge : threshold ≤ y * 2 ^ q := by
        calc (threshold : ℚ) ≤ 2 ^ 53 * 2 ^ (971 : Int) := by
              rw [threshold_cast]
              gcongr
              norm_num
          _ = 2 ^ 52 * 2 ^ (972 : Int) := by
              rw [show (972 : Int) = 971 + 1 from rfl, zpow_add_one₀ (by norm_num)]
              ring
          _ ≤ y * 2 ^ q := by gcongr
      exact ⟨fun _ => hlarge, fun _ => ⟨by omega, .inl (by omega)⟩⟩

/-- The integers without a nearest datum. -/
theorem ofInt?_eq_none_iff (i : Int) : ofInt? i = none ↔ threshold ≤ i.natAbs := by
  have hinfinite : ofInt? i = none ↔ ∃ s, ofQuotient (i < 0) i.natAbs 1 = .infinite s := by
    unfold ofInt?
    split
    · next s h => exact ⟨fun _ => ⟨s, h⟩, fun _ => rfl⟩
    · next hne => exact ⟨fun h => (nomatch h), fun ⟨s, h⟩ => absurd h (hne s)⟩
  rw [hinfinite, exists_ofQuotient_eq_infinite_iff _ _ one_pos, Nat.cast_one, div_one]
  exact Nat.cast_le

end Binary64

end Logwire.Number
