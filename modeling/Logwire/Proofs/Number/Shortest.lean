import Logwire.Proofs.Number.Digits
import Logwire.Proofs.Number.Nearest

/-!
# Logwire.Proofs.Number.Shortest

The shortest digits of a datum read back as the datum.

`shortest` looks through the grids of the powers of ten, from coarse to fine,
for a point in the window of the datum.

* `contains_of_gridPoint?` — what it finds lies in the window;
* `isSome_gridPoint?` — on a grid finer than the window is wide, it finds one,
  and the seventeenth grid is as fine as that;
* `nearest_of_value_eq_shortest` — so every numeral of that value is read as the
  datum, whatever its layout.
-/

namespace Logwire.Number

open Binary64 (Quotient powerOfTen)

/-! ## Exact values -/

/-- The rational number that a quotient denotes. -/
def Binary64.Quotient.value (v : Quotient) : ℚ := (v.num : ℚ) / v.den

/-- The rational number that decimal digits denote. -/
def Decimal.value (d : Decimal) : ℚ := d.coefficient * 10 ^ d.power

theorem powerOfTen_eq (n : Nat) : powerOfTen n = 10 ^ n := rfl

theorem powerOfTen_pos (n : Nat) : 0 < powerOfTen n := Nat.pow_pos (by decide)

theorem Binary64.Quotient.den_scaled_pos (m : Nat) (q : Int) : 0 < (Quotient.scaled m q).den := by
  cases q with
  | ofNat n => exact Nat.one_pos
  | negSucc n =>
    simp only [Quotient.scaled, Nat.one_shiftLeft]
    exact Nat.two_pow_pos _

theorem Binary64.Quotient.value_scaled (m : Nat) (q : Int) :
    (Quotient.scaled m q).value = m * 2 ^ q := by
  cases q with
  | ofNat n => simp [Quotient.scaled, value, Nat.shiftLeft_eq]
  | negSucc n => simp [Quotient.scaled, value, Nat.shiftLeft_eq, zpow_negSucc, div_eq_mul_inv]

/-- A quotient brought to a power of ten is the quotient over that power. -/
theorem tenfold_div (num : Nat) {den : Nat} (hd : 0 < den) (k : Int) :
    0 < (tenfold num den k).2 ∧
      ((tenfold num den k).1 : ℚ) / (tenfold num den k).2 = (num : ℚ) / den / 10 ^ k := by
  have hdq : (den : ℚ) ≠ 0 := by exact_mod_cast hd.ne'
  cases k with
  | ofNat n =>
    refine ⟨Nat.mul_pos hd (powerOfTen_pos n), ?_⟩
    simp only [tenfold, powerOfTen_eq, Int.ofNat_eq_natCast, zpow_natCast]
    push_cast
    field_simp
  | negSucc n =>
    refine ⟨hd, ?_⟩
    simp only [tenfold, powerOfTen_eq, zpow_negSucc]
    push_cast
    field_simp

/-- A positive number has the digits that its power of ten takes, and no more. -/
theorem pow_length_digitsOf {n : Nat} (h : 0 < n) :
    10 ^ ((digitsOf n).length - 1) ≤ n ∧ n < 10 ^ (digitsOf n).length := by
  have hpos := length_digitsOf_pos n
  refine ⟨?_, (Nat.length_toDigits_le_iff (by decide) hpos).mp (Nat.le_refl _)⟩
  by_cases hone : (digitsOf n).length = 1
  · rw [hone]
    exact h
  · by_contra hlt
    have := length_digitsOf_le (by omega) (Nat.not_le.mp hlt)
    omega

/-- The same over the rational numbers. -/
theorem zpow_length_digitsOf {n : Nat} (h : 0 < n) :
    (10 : ℚ) ^ ((digitsOf n).length - 1 : Int) ≤ n ∧
      (n : ℚ) < 10 ^ ((digitsOf n).length : Int) := by
  obtain ⟨hlow, hhigh⟩ := pow_length_digitsOf h
  have hpos := length_digitsOf_pos n
  have hcast : ((digitsOf n).length - 1 : Int) = ((digitsOf n).length - 1 : Nat) := by omega
  rw [hcast, zpow_natCast, zpow_natCast]
  exact ⟨by exact_mod_cast hlow, by exact_mod_cast hhigh⟩

/-- A positive quotient is at least the power of ten of its first digit. -/
theorem zpow_leadingPower_le {v : Quotient} (hn : 0 < v.num) (hd : 0 < v.den) :
    (10 : ℚ) ^ leadingPower v ≤ v.value := by
  set guess : Int := (digitsOf v.num).length - (digitsOf v.den).length with hguess
  obtain ⟨hdpos, hdiv⟩ := tenfold_div v.num hd guess
  have hdenq : (0 : ℚ) < (tenfold v.num v.den guess).2 := by exact_mod_cast hdpos
  have hunfold : leadingPower v =
      if (tenfold v.num v.den guess).2 ≤ (tenfold v.num v.den guess).1 then guess
      else guess - 1 := rfl
  rw [hunfold]
  split
  case isTrue h =>
    have hone : 1 ≤ v.value / 10 ^ guess := by
      rw [Binary64.Quotient.value, ← hdiv, le_div_iff₀ hdenq, one_mul]
      exact_mod_cast h
    rwa [le_div_iff₀ (by positivity), one_mul] at hone
  case isFalse =>
    have hvden : (0 : ℚ) < v.den := by exact_mod_cast hd
    rw [Binary64.Quotient.value, le_div_iff₀ hvden]
    calc (10 : ℚ) ^ (guess - 1) * v.den
        ≤ 10 ^ (guess - 1) * 10 ^ ((digitsOf v.den).length : Int) := by
          gcongr
          exact (zpow_length_digitsOf hd).2.le
      _ = 10 ^ ((digitsOf v.num).length - 1 : Int) := by
          rw [← zpow_add₀ (by norm_num), hguess]
          congr 1
          omega
      _ ≤ v.num := (zpow_length_digitsOf hn).1

/-! ## Points of a grid in the window -/

def powerParts (base : Nat) (k : Int) : Nat × Nat :=
  match k with
  | .ofNat n => (base ^ n, 1)
  | .negSucc n => (1, base ^ (n + 1))

/-- The two parts of a power are its numerator and its denominator. -/
theorem powerParts_spec {base : Nat} (h : 0 < base) (k : Int) :
    ((powerParts base k).1 : ℚ) = base ^ k * (powerParts base k).2 ∧ 0 < (powerParts base k).2 := by
  have hbase : (base : ℚ) ≠ 0 := by exact_mod_cast h.ne'
  cases k with
  | ofNat n => simp [powerParts]
  | negSucc n =>
    refine ⟨?_, Nat.pow_pos h⟩
    simp only [powerParts, zpow_negSucc]
    push_cast
    field_simp

/-- Natural numbers that bring a grid of powers of two and one of powers of ten to the same
scale. -/
structure Common (grid k : Int) (unit step : Nat) (ratio : ℚ) : Prop where
  pos : 0 < ratio
  unit_eq : (unit : ℚ) = 2 ^ grid * ratio
  step_eq : (step : ℚ) = 10 ^ k * ratio

section

variable {grid k : Int} {unit step : Nat} {ratio : ℚ}

/-- Multiples of the unit are the points of the binary grid at the common scale. -/
theorem Common.unit_mul (h : Common grid k unit step ratio) (n : Nat) :
    ((n * unit : Nat) : ℚ) = n * 2 ^ grid * ratio := by
  rw [Nat.cast_mul, h.unit_eq, mul_assoc]

/-- Multiples of the step are those of the decimal grid. -/
theorem Common.mul_step (h : Common grid k unit step ratio) (c : Nat) :
    ((c * step : Nat) : ℚ) = c * 10 ^ k * ratio := by
  rw [Nat.cast_mul, h.step_eq, mul_assoc]

theorem Common.unit_pos (h : Common grid k unit step ratio) : 0 < unit := by
  have hq : (0 : ℚ) < unit := by
    rw [h.unit_eq]
    have := h.pos
    positivity
  exact_mod_cast hq

theorem Common.step_pos (h : Common grid k unit step ratio) : 0 < step := by
  have hq : (0 : ℚ) < step := by
    rw [h.step_eq]
    have := h.pos
    positivity
  exact_mod_cast hq

end

namespace Window

variable {w : Window} {grid k : Int}

/-- A point that holds is contained. -/
theorem contains_of_holds {unit step c : Nat} {ratio : ℚ} (hc : Common grid k unit step ratio)
    (h : w.holds unit (c * step) = true) : w.Contains grid (c * 10 ^ k) := by
  have hle : ∀ n : Nat, (n * unit ≤ c * step → (n : ℚ) * 2 ^ grid ≤ c * 10 ^ k) ∧
      (c * step ≤ n * unit → (c : ℚ) * 10 ^ k ≤ n * 2 ^ grid) := by
    intro n
    rw [← Nat.cast_le (α := ℚ), ← Nat.cast_le (α := ℚ), hc.unit_mul, hc.mul_step]
    exact ⟨fun h => le_of_mul_le_mul_right h hc.pos, fun h => le_of_mul_le_mul_right h hc.pos⟩
  have hlt : ∀ n : Nat, (n * unit < c * step → (n : ℚ) * 2 ^ grid < c * 10 ^ k) ∧
      (c * step < n * unit → (c : ℚ) * 10 ^ k < n * 2 ^ grid) := by
    intro n
    rw [← Nat.cast_lt (α := ℚ), ← Nat.cast_lt (α := ℚ), hc.unit_mul, hc.mul_step]
    exact ⟨fun h => lt_of_mul_lt_mul_right h hc.pos.le, fun h => lt_of_mul_lt_mul_right h hc.pos.le⟩
  unfold holds at h
  split at h
  case isTrue hclosed =>
    simp only [Bool.and_eq_true, decide_eq_true_eq] at h
    exact ⟨(hle _).1 h.1, (hle _).2 h.2, .inl hclosed⟩
  case isFalse =>
    simp only [Bool.and_eq_true, decide_eq_true_eq] at h
    have hlow := (hlt w.low).1 h.1
    have hhigh := (hlt w.high).2 h.2
    exact ⟨hlow.le, hhigh.le, .inr ⟨hlow, hhigh⟩⟩

/-- The search for a point looks at the two points around the middle, at a common scale. -/
theorem gridPoint?_eq (w : Window) (grid k : Int) : ∃ unit step ratio,
    Common grid k unit step ratio ∧ w.gridPoint? grid k =
      if w.holds unit (w.mid * unit / step * step) &&
          w.holds unit ((w.mid * unit / step + 1) * step) then some (roundDiv (w.mid * unit) step)
      else if w.holds unit (w.mid * unit / step * step) then some (w.mid * unit / step)
      else if w.holds unit ((w.mid * unit / step + 1) * step) then some (w.mid * unit / step + 1)
      else none := by
  obtain ⟨htwo, hhalf⟩ := powerParts_spec (show 0 < 2 by decide) grid
  obtain ⟨hten, htenth⟩ := powerParts_spec (show 0 < 10 by decide) k
  refine ⟨(powerParts 2 grid).1 * (powerParts 10 k).2, (powerParts 10 k).1 * (powerParts 2 grid).2,
    ((powerParts 2 grid).2 * (powerParts 10 k).2 : Nat), ⟨?_, ?_, ?_⟩, ?_⟩
  · exact_mod_cast Nat.mul_pos hhalf htenth
  · rw [Nat.cast_mul, htwo, Nat.cast_mul, Nat.cast_ofNat, mul_assoc]
  · rw [Nat.cast_mul, hten, Nat.cast_mul, Nat.cast_ofNat, mul_assoc,
      mul_comm ((powerParts 2 grid).2 : ℚ)]
  · unfold gridPoint? powerParts
    simp only [Nat.one_shiftLeft]
    cases grid <;> cases k <;> rfl

/-- A point that is found is contained. -/
theorem contains_of_gridPoint? {c : Nat} (h : w.gridPoint? grid k = some c) :
    w.Contains grid (c * 10 ^ k) := by
  obtain ⟨unit, step, ratio, hc, heq⟩ := gridPoint?_eq w grid k
  rw [heq] at h
  split at h
  case isTrue hboth =>
    obtain rfl := Option.some.inj h
    obtain ⟨hlower, hupper⟩ := Bool.and_eq_true_iff.mp hboth
    cases roundDiv_eq_or (w.mid * unit) step with
    | inl hfloor => rw [hfloor]; exact contains_of_holds hc hlower
    | inr hceil => rw [hceil]; exact contains_of_holds hc hupper
  case isFalse =>
    split at h
    case isTrue hlower =>
      obtain rfl := Option.some.inj h
      exact contains_of_holds hc hlower
    case isFalse =>
      obtain ⟨hupper, hsome⟩ := Option.ite_none_right_eq_some.mp h
      obtain rfl := Option.some.inj hsome
      exact contains_of_holds hc hupper

/-- A grid finer than the window is wide has a point in it. -/
theorem isSome_gridPoint? (hlow : w.low < w.mid) (hhigh : w.mid < w.high)
    (hwide : (w.low : ℚ) * 2 ^ grid + 10 ^ k < w.high * 2 ^ grid) :
    (w.gridPoint? grid k).isSome = true := by
  obtain ⟨unit, step, ratio, hc, heq⟩ := gridPoint?_eq w grid k
  set c := w.mid * unit / step with hfloor
  have hwide' : w.low * unit + 1 * step < w.high * unit := by
    rw [← Nat.cast_lt (α := ℚ), Nat.cast_add, hc.unit_mul, hc.mul_step, hc.unit_mul, ← add_mul,
      Nat.cast_one, one_mul]
    exact mul_lt_mul_of_pos_right hwide hc.pos
  have hlowMid : w.low * unit < w.mid * unit := Nat.mul_lt_mul_of_pos_right hlow hc.unit_pos
  have hmidHigh : w.mid * unit < w.high * unit := Nat.mul_lt_mul_of_pos_right hhigh hc.unit_pos
  have hbelow : c * step ≤ w.mid * unit := Nat.div_mul_le_self _ _
  have habove : w.mid * unit < (c + 1) * step := by
    rw [Nat.mul_comm _ step]
    exact Nat.lt_mul_div_succ _ hc.step_pos
  -- a window without either point would be no wider than the step between them
  have hor : w.holds unit (c * step) = true ∨ w.holds unit ((c + 1) * step) = true := by
    rw [Nat.add_mul] at habove ⊢
    unfold holds
    split
    case isTrue =>
      simp only [Bool.and_eq_true, decide_eq_true_eq]
      omega
    case isFalse =>
      simp only [Bool.and_eq_true, decide_eq_true_eq]
      omega
  rw [heq]
  cases hl : w.holds unit (c * step) with
  | true => cases w.holds unit ((c + 1) * step) <;> rfl
  | false => rw [hor.resolve_left (by simp [hl])]; rfl

/-- A search that reaches such a grid finds digits in the window. -/
theorem exists_search (hlow : w.low < w.mid) (hhigh : w.mid < w.high) (n : Nat)
    (hwide : (w.low : ℚ) * 2 ^ grid + 10 ^ (k - n) < w.high * 2 ^ grid) :
    ∃ d, w.search grid (n + 1) k = some d ∧ w.Contains grid d.value := by
  induction n generalizing k with
  | zero =>
    obtain ⟨c, hc⟩ := Option.isSome_iff_exists.mp
      (isSome_gridPoint? hlow hhigh (k := k) (by simpa using hwide))
    exact ⟨⟨c, k⟩, by simp [search, hc], contains_of_gridPoint? hc⟩
  | succ n ih =>
    rw [search]
    cases hc : w.gridPoint? grid k with
    | some c => exact ⟨⟨c, k⟩, rfl, contains_of_gridPoint? hc⟩
    | none =>
      rw [show k - ((n + 1 : Nat) : Int) = k - 1 - n by omega] at hwide
      exact ih hwide

end Window

/-! ## The shortest digits -/

/-- Dropping zeros at the end keeps the value. -/
theorem Decimal.value_strip (fuel : Nat) (d : Decimal) : (d.strip fuel).value = d.value := by
  induction fuel generalizing d with
  | zero => rfl
  | succ fuel ih =>
    rw [strip]
    split
    case isTrue h =>
      have htens : d.coefficient = d.coefficient / 10 * 10 := by omega
      rw [ih, value, value]
      conv_rhs => rw [htens]
      rw [zpow_add_one₀ (by norm_num)]
      push_cast
      ring
    case isFalse => rfl

section

variable {exponent : Fin 2047} {fraction : Fin (1 <<< 52)}

/-- Seventeen digits tell a datum from its neighbours: the grid of the seventeenth digit is finer
than its window is wide. -/
theorem window_wide (h : 0 < Binary64.significand exponent fraction) {k : Int}
    (hk : (10 : ℚ) ^ k ≤ Binary64.significand exponent fraction * 2 ^ Binary64.scale exponent) :
    ((window exponent fraction).1.low : ℚ) * 2 ^ (window exponent fraction).2 + 10 ^ (k - 16) <
      (window exponent fraction).1.high * 2 ^ (window exponent fraction).2 := by
  have hcases := Binary64.significand_cases exponent fraction
  have hlt := Binary64.significand_lt exponent fraction
  simp only [window]
  set m := Binary64.significand exponent fraction with hm
  set q := Binary64.scale exponent with hq
  set below : Nat := if fraction.val = 0 && exponent.val > 1 then 1 else 2 with hbelow
  obtain ⟨hsub, hfew⟩ : below ≤ 4 * m ∧ 4 * m < (2 + below) * 10 ^ 16 := by
    rw [hbelow]
    split
    case isTrue htwo =>
      simp only [Bool.and_eq_true, decide_eq_true_eq] at htwo
      omega
    case isFalse => omega
  have hlow : ((4 * m - below : Nat) : ℚ) = 4 * m - below := by
    rw [Nat.cast_sub hsub]
    push_cast
    rfl
  have hfewq : (4 * m / 10 ^ 16 : ℚ) < 2 + below := by
    rw [div_lt_iff₀ (by norm_num)]
    exact_mod_cast hfew
  have hgrid : (2 : ℚ) ^ q = 4 * 2 ^ (q - 2) := by
    rw [zpow_sub₀ (by norm_num)]
    norm_num
    ring
  have hstep : (10 : ℚ) ^ (k - 16) ≤ 4 * m / 10 ^ 16 * 2 ^ (q - 2) := by
    rw [hgrid] at hk
    rw [zpow_sub₀ (by norm_num), div_le_iff₀ (by norm_num)]
    norm_num
    linarith
  have hpos : (0 : ℚ) < 2 ^ (q - 2) := by positivity
  calc ((4 * m - below : Nat) : ℚ) * 2 ^ (q - 2) + 10 ^ (k - 16)
      ≤ (4 * m - below) * 2 ^ (q - 2) + 4 * m / 10 ^ 16 * 2 ^ (q - 2) := by
        rw [hlow]
        gcongr
    _ < (4 * m - below) * 2 ^ (q - 2) + (2 + below) * 2 ^ (q - 2) := by gcongr
    _ = ((4 * m + 2 : Nat) : ℚ) * 2 ^ (q - 2) := by
        push_cast
        ring

/-- The shortest digits of a datum lie in its window. -/
theorem contains_shortest (h : 0 < Binary64.significand exponent fraction) :
    (window exponent fraction).1.Contains (window exponent fraction).2
      (shortest exponent fraction).value := by
  set v := Binary64.magnitude exponent fraction with hv
  have hden : 0 < v.den := Quotient.den_scaled_pos _ _
  have hvalue : v.value = _ := Quotient.value_scaled _ _
  have hnum : 0 < v.num := by
    by_contra hzero
    have hpos : (0 : ℚ) < v.value := by
      rw [hvalue]
      have : (0 : ℚ) < Binary64.significand exponent fraction := by exact_mod_cast h
      positivity
    rw [Quotient.value, Nat.eq_zero_of_not_pos hzero] at hpos
    simp at hpos
  have hlead := zpow_leadingPower_le hnum hden
  rw [hvalue] at hlead
  have hlow : (window exponent fraction).1.low < (window exponent fraction).1.mid := by
    simp only [window]
    split
    · omega
    · omega
  have hhigh : (window exponent fraction).1.mid < (window exponent fraction).1.high := by
    simp only [window]
    omega
  obtain ⟨d, hd, hcontains⟩ := Window.exists_search hlow hhigh 16 (window_wide h hlead)
  change (window exponent fraction).1.search (window exponent fraction).2 17 (leadingPower v) =
    some d at hd
  have hshortest : shortest exponent fraction = d.strip 17 := by
    unfold shortest
    rw [if_neg (show ¬ v.num = 0 by omega)]
    simp only [← hv, hd]
  rw [hshortest, Decimal.value_strip]
  exact hcontains

end

/-! ## Read back -/

/-- The powers of two at the ends of the range, by their fifth roots. -/
theorem zpow_two_range :
    (10 : ℚ) ^ (-330 : Int) ≤ 2 ^ (-1075 : Int) ∧ (2 : ℚ) ^ (1025 : Int) ≤ 10 ^ (310 : Int) := by
  constructor
  · calc (10 : ℚ) ^ (-330 : Int) = ((10 ^ 66 : ℚ)⁻¹) ^ 5 := by
          rw [inv_pow, ← pow_mul, ← zpow_natCast, ← zpow_neg]
          rfl
      _ ≤ ((2 ^ 215 : ℚ)⁻¹) ^ 5 := by gcongr; norm_num
      _ = 2 ^ (-1075 : Int) := by
          rw [inv_pow, ← pow_mul, ← zpow_natCast, ← zpow_neg]
          rfl
  · calc (2 : ℚ) ^ (1025 : Int) = (2 ^ 205 : ℚ) ^ 5 := by
          rw [← pow_mul, ← zpow_natCast]
          rfl
      _ ≤ (10 ^ 62 : ℚ) ^ 5 := by gcongr; norm_num
      _ = 10 ^ (310 : Int) := by
          rw [← pow_mul, ← zpow_natCast]
          rfl

/-- A value in the window of a datum is in the range that is not settled beforehand. -/
theorem range_of_contains {exponent : Fin 2047} {fraction : Fin (1 <<< 52)} {x : ℚ}
    (h : 0 < Binary64.significand exponent fraction)
    (hx : (window exponent fraction).1.Contains (window exponent fraction).2 x) :
    (10 : ℚ) ^ (-330 : Int) ≤ x ∧ x < 10 ^ (310 : Int) := by
  have hlow := hx.low
  have hhigh := hx.high
  have hcases := Binary64.significand_cases exponent fraction
  have hlt := Binary64.significand_lt exponent fraction
  have hexp := exponent.isLt
  simp only [window] at hlow hhigh
  set m := Binary64.significand exponent fraction with hm
  set q := Binary64.scale exponent with hq
  set below : Nat := if fraction.val = 0 && exponent.val > 1 then 1 else 2 with hbelow
  have hbelow2 : below ≤ 2 := by
    rw [hbelow]
    split <;> omega
  have htwo : 2 ≤ 4 * m - below := by omega
  have hmost : 4 * m + 2 < 1 <<< 55 := by omega
  constructor
  · calc (10 : ℚ) ^ (-330 : Int) ≤ 2 ^ (-1075 : Int) := zpow_two_range.1
      _ = (2 : Nat) * 2 ^ (-1076 : Int) := by
        rw [show (-1075 : Int) = -1076 + 1 from rfl, zpow_add_one₀ (by norm_num), mul_comm]
        rfl
      _ ≤ (4 * m - below : Nat) * 2 ^ (q - 2) := by
        gcongr
        · norm_num
        · omega
      _ ≤ x := hlow
  · calc x ≤ (4 * m + 2 : Nat) * 2 ^ (q - 2) := hhigh
      _ < (1 <<< 55 : Nat) * 2 ^ (q - 2) := by gcongr
      _ ≤ 2 ^ (55 : Int) * 2 ^ (970 : Int) := by
        gcongr
        · exact_mod_cast (show (1 <<< 55 : Nat) ≤ 2 ^ 55 by decide)
        · norm_num
        · omega
      _ = 2 ^ (1025 : Int) := by
        rw [← zpow_add₀ (by norm_num)]
        rfl
      _ ≤ 10 ^ (310 : Int) := zpow_two_range.2

/-- The nearest datum, where the magnitude is computed. -/
theorem ofDecimal_of_contains (negative : Bool) {exponent : Fin 2047} {fraction : Fin (1 <<< 52)}
    {coefficient : Nat} {power : Int} (hpos : 0 < coefficient)
    (h : (window exponent fraction).1.Contains (window exponent fraction).2
      (coefficient * 10 ^ power)) :
    Binary64.ofDecimal negative coefficient power = .finite negative exponent fraction := by
  cases power with
  | ofNat n =>
    refine Binary64.ofQuotient_of_contains negative (Nat.mul_pos hpos (powerOfTen_pos n))
      Nat.one_pos ?_
    rw [Nat.cast_one, div_one, Nat.cast_mul, powerOfTen_eq, Nat.cast_pow]
    exact h
  | negSucc n =>
    refine Binary64.ofQuotient_of_contains negative hpos (powerOfTen_pos (n + 1)) ?_
    rw [powerOfTen_eq, Nat.cast_pow, div_eq_mul_inv]
    rwa [zpow_negSucc] at h

/-- The shortest digits of a zero are one zero. -/
theorem shortest_of_significand_eq_zero {exponent : Fin 2047} {fraction : Fin (1 <<< 52)}
    (h : Binary64.significand exponent fraction = 0) : shortest exponent fraction = ⟨0, 0⟩ := by
  have hnum : (Binary64.magnitude exponent fraction).num = 0 := by
    unfold Binary64.magnitude Quotient.scaled
    rw [h]
    cases Binary64.scale exponent <;> simp
  unfold shortest
  rw [if_pos hnum]

/-- Only for zero are the shortest digits a zero. -/
theorem power_shortest_eq_zero {exponent : Fin 2047} {fraction : Fin (1 <<< 52)}
    (h : (shortest exponent fraction).coefficient = 0) :
    (shortest exponent fraction).power = 0 := by
  by_cases hzero : Binary64.significand exponent fraction = 0
  · rw [shortest_of_significand_eq_zero hzero]
  · have hm : 0 < Binary64.significand exponent fraction := Nat.pos_of_ne_zero hzero
    have hlow := (range_of_contains hm (contains_shortest hm)).1
    rw [Decimal.value, h, Nat.cast_zero, zero_mul] at hlow
    exact absurd hlow (not_le.mpr (by positivity))

/-- A numeral whose value is that of the shortest digits is read as the datum. -/
theorem nearest_of_value_eq_shortest (negative : Bool) {exponent : Fin 2047}
    {fraction : Fin (1 <<< 52)} {digits : List Nat} {power : Int}
    (h : (Text.ofDigits digits : ℚ) * 10 ^ power = (shortest exponent fraction).value) :
    nearest negative digits power = .finite negative exponent fraction := by
  unfold nearest
  set coefficient := Text.ofDigits digits with hcoefficient
  by_cases hzero : Binary64.significand exponent fraction = 0
  · have hcoefficient0 : coefficient = 0 := by
      rw [shortest_of_significand_eq_zero hzero, Decimal.value, Nat.cast_zero, zero_mul] at h
      exact_mod_cast (mul_eq_zero.mp h).resolve_right (by positivity)
    obtain ⟨hexponent, hfraction⟩ : exponent.val = 0 ∧ fraction.val = 0 := by
      have := Binary64.significand_cases exponent fraction
      omega
    simp only [hcoefficient0, decide_true, Bool.true_or, if_true, Binary64.signedZero]
    exact (Binary64.finite.injEq ..).mpr ⟨rfl, Fin.ext hexponent.symm, Fin.ext hfraction.symm⟩
  · have hm : 0 < Binary64.significand exponent fraction := Nat.pos_of_ne_zero hzero
    have hcontains := contains_shortest hm
    rw [← h] at hcontains
    obtain ⟨hlow, hhigh⟩ := range_of_contains hm hcontains
    have hpos : 0 < coefficient := by
      by_contra hnone
      rw [Nat.eq_zero_of_not_pos hnone, Nat.cast_zero, zero_mul] at hlow
      exact absurd hlow (not_le.mpr (by positivity))
    obtain ⟨hfirst, hlast⟩ := zpow_length_digitsOf hpos
    have hleast : (10 : ℚ) ^ (-330 : Int) < 10 ^ ((digitsOf coefficient).length + power) := by
      refine hlow.trans_lt ?_
      rw [zpow_add₀ (by norm_num)]
      gcongr
    have hmost : (10 : ℚ) ^ ((digitsOf coefficient).length - 1 + power) < 10 ^ (310 : Int) := by
      refine lt_of_le_of_lt ?_ hhigh
      rw [zpow_add₀ (by norm_num)]
      gcongr
    rw [zpow_lt_zpow_iff_right₀ (by norm_num)] at hleast hmost
    simp only
    rw [if_neg (by simp; omega), if_neg (by omega)]
    exact ofDecimal_of_contains negative hpos hcontains

end Logwire.Number
