import Logwire.Line.Writer
import Logwire.Number.Numeral
import Logwire.Text.Digit
import Mathlib.Algebra.Group.Nat.Defs
import Mathlib.Data.List.Induction
import Mathlib.Data.List.TakeWhile

/-!
# Logwire.Proofs.Number.Digits

Numbers in decimal notation read back.

Digits of any script are read, but only ASCII digits are written, so the two
sides meet in `digitValue?_of_isDigit`.  On it stand

* `decimalValue_digitsOf`, `decimalValue_padded` — the digits denote the number;
* `readBinary64_pointed` — two rows of digits with a point between are a numeral;
* `readBinary64_valueText` — so every metric value reads back as some number.
-/

namespace Logwire

open Text

/-! ## Digits and blanks -/

/-- No character of a range apart from the blank ones is blank. -/
theorem Text.isBlank_of_bounds {c : Char} {low high : Nat} (hc : low ≤ c.toNat ∧ c.toNat ≤ high)
    (hlow : 32 ≤ low) (hranges : ∀ range ∈ whiteSpace, high < range.1 ∨ range.2 < low) :
    isBlank c = false := by
  have hwhite : isWhiteSpace c = false := by
    unfold isWhiteSpace inRanges
    rw [List.any_eq_false]
    intro range hr
    have := hranges range hr
    simp only [Bool.and_eq_true, decide_eq_true_eq]
    omega
  unfold isBlank
  rw [hwhite, Bool.false_or, Bool.and_eq_false_iff, decide_eq_false_iff_not,
    decide_eq_false_iff_not]
  omega

/-- No decimal digit of any script is blank. -/
theorem Text.isBlank_of_isDecimal {c : Char} (h : isDecimal c = true) : isBlank c = false := by
  have htable : ∀ start ∈ zeros, 32 ≤ start ∧
      ∀ range ∈ whiteSpace, start + 9 < range.1 ∨ range.2 < start := by decide
  obtain ⟨n, hn⟩ := Option.isSome_iff_exists.mp h
  obtain ⟨start, hmem, hstart⟩ := List.exists_of_findSome?_eq_some hn
  obtain ⟨hc, -⟩ := Option.ite_none_right_eq_some.mp hstart
  obtain ⟨hlow, hranges⟩ := htable start hmem
  exact isBlank_of_bounds ⟨hc.1, by omega⟩ hlow hranges

/-- Nor is any other digit. -/
theorem Text.not_isBlank_of_isDigit {c : Char} (h : isDigit c = true) : isBlank c = false := by
  have htable : ∀ digits ∈ otherDigits, 32 ≤ digits.1 ∧
      ∀ range ∈ whiteSpace, digits.2 < range.1 ∨ range.2 < digits.1 := by decide
  rcases Bool.or_eq_true_iff.mp h with hd | hd
  · exact isBlank_of_isDecimal hd
  · obtain ⟨digits, hmem, hc⟩ := List.any_eq_true.mp hd
    obtain ⟨hlow, hranges⟩ := htable digits hmem
    exact isBlank_of_bounds (by simpa using hc) hlow hranges

/-! ## Bounds -/

/-- A digit of any script is below ten. -/
theorem Text.digitValue?_lt {c : Char} {n : Nat} (h : digitValue? c = some n) : n < 10 := by
  obtain ⟨start, -, hstart⟩ := List.exists_of_findSome?_eq_some h
  obtain ⟨hc, hn⟩ := Option.ite_none_right_eq_some.mp hstart
  have := Option.some.inj hn
  omega

/-- Digits denote a number with no more digits than they are. -/
theorem Text.ofDigits_lt {ds : List Nat} (h : ∀ d ∈ ds, d < 10) : ofDigits ds < 10 ^ ds.length := by
  induction ds using List.reverseRecOn with
  | nil => decide
  | append_singleton ds d ih =>
    have hd : d < 10 := h d (by simp)
    have hds : ofDigits ds < 10 ^ ds.length := ih fun x hx => h x (List.mem_append_left _ hx)
    have hstep : ofDigits (ds ++ [d]) = 10 * ofDigits ds + d := by simp [ofDigits]
    rw [hstep, List.length_append, List.length_singleton, Nat.pow_succ]
    omega

/-- A row goes on by shifting what it denotes so far. -/
theorem Text.ofDigits_append (ds es : List Nat) :
    ofDigits (ds ++ es) = ofDigits ds * 10 ^ es.length + ofDigits es := by
  induction es using List.reverseRecOn with
  | nil => simp [ofDigits]
  | append_singleton es d ih =>
    have hstep : ∀ xs, ofDigits (xs ++ [d]) = 10 * ofDigits xs + d := fun xs => by simp [ofDigits]
    rw [← List.append_assoc, hstep, hstep, ih, List.length_append, List.length_singleton,
      Nat.pow_succ, Nat.mul_add, ← Nat.mul_assoc (ofDigits ds), Nat.mul_comm 10]
    omega

/-- The value of two rows side by side, by the places of the second. -/
theorem Text.decimalValue_append (s t : List Char) :
    decimalValue (s ++ t) = decimalValue s * 10 ^ t.length + decimalValue t := by
  unfold decimalValue
  rw [List.map_append, ofDigits_append, List.length_map]

/-- So a row of digits denotes a number with no more digits. -/
theorem Text.decimalValue_lt (s : List Char) : decimalValue s < 10 ^ s.length := by
  have hall : ∀ d ∈ s.map (fun c => (digitValue? c).getD 0), d < 10 := by
    intro d hd
    obtain ⟨c, -, rfl⟩ := List.mem_map.mp hd
    cases hc : digitValue? c with
    | none => simp
    | some n => exact digitValue?_lt hc
  have := ofDigits_lt hall
  rwa [List.length_map] at this

namespace Number

/-! ## ASCII digits -/

theorem toNat_of_isDigit {c : Char} (h : c.isDigit = true) : 48 ≤ c.toNat ∧ c.toNat < 58 := by
  obtain ⟨h1, h2⟩ := Char.isDigit_iff_toNat.mp h
  have h9 : '9'.toNat = 57 := rfl
  exact ⟨h1, by omega⟩

/-- An ASCII digit has the value that its place after the zero gives. -/
theorem digitValue?_of_isDigit {c : Char} (h : c.isDigit = true) :
    digitValue? c = some (c.toNat - 48) := by
  obtain ⟨h1, h2⟩ := toNat_of_isDigit h
  unfold digitValue? zeros
  rw [List.findSome?_cons, if_pos ⟨h1, h2⟩]

theorem isDecimal_of_isDigit {c : Char} (h : c.isDigit = true) : isDecimal c = true := by
  unfold isDecimal
  rw [digitValue?_of_isDigit h, Option.isSome_some]

theorem isBlank_of_isDigit {c : Char} (h : c.isDigit = true) : isBlank c = false :=
  isBlank_of_isDecimal (isDecimal_of_isDigit h)

theorem isWhiteSpace_of_isDigit {c : Char} (h : c.isDigit = true) : isWhiteSpace c = false :=
  (Bool.or_eq_false_iff.mp (isBlank_of_isDigit h)).1

/-- On ASCII digits the value is the positional one of the core library. -/
theorem decimalValue_eq_ofDigitChars {s : List Char} (h : ∀ c ∈ s, c.isDigit = true) :
    decimalValue s = Nat.ofDigitChars 10 s 0 := by
  have hmap : s.map (fun c => (digitValue? c).getD 0) = s.map (fun c => c.toNat - 48) :=
    List.map_congr_left fun c hc => by rw [digitValue?_of_isDigit (h c hc), Option.getD_some]
  unfold decimalValue ofDigits
  rw [hmap, List.foldl_map, Nat.ofDigitChars_eq_foldl]
  rfl

/-! ## Natural numbers -/

/-- A natural number is written in ASCII digits. -/
theorem isDigit_of_mem_digitsOf {n : Nat} {c : Char} (h : c ∈ digitsOf n) : c.isDigit = true :=
  Nat.isDigit_of_mem_toDigits (by decide) (by decide) h

theorem digitsOf_ne_nil (n : Nat) : digitsOf n ≠ [] := Nat.toDigits_ne_nil

theorem length_digitsOf_pos (n : Nat) : 1 ≤ (digitsOf n).length := Nat.length_toDigits_pos

theorem length_digitsOf_le {n width : Nat} (hw : 0 < width) (h : n < 10 ^ width) :
    (digitsOf n).length ≤ width :=
  (Nat.length_toDigits_le_iff (by decide) hw).mpr h

/-- The digits of a number denote it. -/
theorem decimalValue_digitsOf (n : Nat) : decimalValue (digitsOf n) = n := by
  rw [decimalValue_eq_ofDigitChars fun _ hc => isDigit_of_mem_digitsOf hc]
  exact Nat.ofDigitChars_ten_toDigits

theorem isDigit_of_mem_padded {width n : Nat} {c : Char} (h : c ∈ padded width n) :
    c.isDigit = true := by
  cases List.mem_append.mp h with
  | inl h =>
    rw [List.eq_of_mem_replicate h]
    rfl
  | inr h =>
    exact isDigit_of_mem_digitsOf h

theorem decimalValue_zeros (n : Nat) : decimalValue (List.replicate n '0') = 0 := by
  rw [decimalValue_eq_ofDigitChars fun c hc => by rw [List.eq_of_mem_replicate hc]; rfl,
    Nat.ofDigitChars_replicate_zero, Nat.mul_zero]

/-- Zeros in front do not count. -/
theorem decimalValue_padded (width n : Nat) : decimalValue (padded width n) = n := by
  unfold padded
  rw [decimalValue_append, decimalValue_zeros, Nat.zero_mul, Nat.zero_add, decimalValue_digitsOf]

/-- A number that fits its field fills it. -/
theorem length_padded {width n : Nat} (hw : 0 < width) (h : n < 10 ^ width) :
    (padded width n).length = width := by
  have := length_digitsOf_le hw h
  simp only [padded, List.length_append, List.length_replicate]
  omega

/-! ## Integers -/

theorem intDigits_natCast (n : Nat) : intDigits n = digitsOf n := by
  unfold intDigits
  rw [if_neg (by omega), Int.natAbs_natCast]

/-- The integers that can be written, by their size. -/
theorem isWritable_iff {i : Int} : isWritable i = true ↔ i.natAbs < 10 ^ maxDigits := by
  unfold isWritable
  rw [decide_eq_true_eq]
  exact Nat.length_toDigits_le_iff (by decide) (by decide)

/-- A row without underscores is read up to the first character that is no decimal digit. -/
theorem scanDigits_of_not_mem {s : List Char} (h : '_' ∉ s) :
    scanDigits s =
      ((s.takeWhile isDecimal).map fun c => (digitValue? c).getD 0, s.dropWhile isDecimal) := by
  induction s with
  | nil => rfl
  | cons c s ih =>
    have hs : '_' ∉ s := fun hm => h (List.mem_cons_of_mem c hm)
    have hnext : ∀ d r, s = '_' :: d :: r → False := by
      rintro d r rfl
      exact hs List.mem_cons_self
    rw [scanDigits.eq_3 c s hnext]
    cases hc : digitValue? c with
    | none => simp [isDecimal, hc]
    | some d => simp [isDecimal, hc, ih hs]

/-- A row of digits, with or without decimal values, is an integer exactly if all of them have one
and they are not too many. -/
theorem readInteger_eq_ok_iff {s : List Char} (hs : s ≠ []) (hd : ∀ c ∈ s, isDigit c = true)
    {i : Int} : readInteger s = .ok i ↔
      (∀ c ∈ s, isDecimal c = true) ∧ s.length ≤ maxDigits ∧ i = decimalValue s := by
  have hne : ∀ x, isDigit x = false → x ∉ s := by
    intro x hx hm
    rw [hd x hm] at hx
    contradiction
  have htrim : trim isWhiteSpace s = s := trim_eq_self fun c hc =>
    (Bool.or_eq_false_iff.mp (not_isBlank_of_isDigit (hd c hc))).1
  have hsign : scanSign s = (false, s) := by
    cases s with
    | nil => rfl
    | cons c s =>
      have hm : c ≠ '-' := by rintro rfl; exact hne _ (by decide) List.mem_cons_self
      have hp : c ≠ '+' := by rintro rfl; exact hne _ (by decide) List.mem_cons_self
      exact scanSign.eq_3 _ (fun _ h => hm (List.cons.inj h).1) fun _ h => hp (List.cons.inj h).1
  unfold readInteger
  rw [htrim, hsign]
  simp only [scanDigits_of_not_mem (hne '_' (by decide))]
  by_cases hall : ∀ c ∈ s, isDecimal c = true
  · obtain ⟨c, r, rfl⟩ := List.exists_cons_of_ne_nil hs
    rw [List.takeWhile_eq_self_iff.mpr hall, List.dropWhile_eq_nil_iff.mpr hall, List.map_cons]
    dsimp only
    rw [List.length_cons, List.length_map, ← List.length_cons (a := c)]
    by_cases hlong : maxDigits < (c :: r).length
    · rw [if_pos hlong]
      exact iff_of_false nofun fun h => absurd h.2.1 (Nat.not_le.mpr hlong)
    · rw [if_neg hlong]
      have hvalue : signed false (ofDigits ((digitValue? c).getD 0 ::
          r.map fun c => (digitValue? c).getD 0)) = decimalValue (c :: r) := rfl
      rw [hvalue]
      exact ⟨fun h => ⟨hall, Nat.not_lt.mp hlong, (Except.ok.inj h).symm⟩,
        fun h => by rw [h.2.2]; rfl⟩
  · refine iff_of_false (fun h => ?_) fun h => hall h.1
    have hrest : (s.dropWhile isDecimal).isEmpty = false := by
      simpa [List.isEmpty_eq_false_iff] using hall
    split at h
    · contradiction
    · contradiction
    · next heq =>
      obtain ⟨-, rfl⟩ := Prod.mk.inj heq
      rw [hrest] at h
      split at h <;> contradiction

/-! ## Double precision numerals -/

/-- A digit is read if what follows it is no underscore. -/
theorem scanDigits_cons {c : Char} {s : List Char} (hc : c.isDigit = true)
    (hs : ∀ r, s ≠ '_' :: r) :
    scanDigits (c :: s) = ((c.toNat - 48) :: (scanDigits s).1, (scanDigits s).2) := by
  rw [scanDigits.eq_3 c s fun _ _ h => hs _ h, digitValue?_of_isDigit hc]

/-- Nothing is read where no digit stands. -/
theorem scanDigits_point (s : List Char) : scanDigits ('.' :: s) = ([], '.' :: s) := by
  have hp : digitValue? '.' = none := by decide
  unfold scanDigits
  split
  · contradiction
  · next heq =>
    obtain ⟨rfl, rfl⟩ := List.cons.inj heq
    rw [hp]
  · next heq =>
    obtain ⟨rfl, rfl⟩ := List.cons.inj heq
    rw [hp]

/-- A row of digits is read up to the point behind it, or to the end. -/
theorem scanDigits_append {ds rest : List Char} (hd : ∀ c ∈ ds, c.isDigit = true)
    (hr : rest = [] ∨ ∃ r, rest = '.' :: r) :
    scanDigits (ds ++ rest) = (ds.map fun c => c.toNat - 48, rest) := by
  have hrest : ∀ r, rest ≠ '_' :: r := by
    rintro r rfl
    rcases hr with h | ⟨r', h⟩
    · contradiction
    · exact absurd (List.cons.inj h).1 (by decide)
  induction ds with
  | nil =>
    rcases hr with rfl | ⟨r, rfl⟩
    · rfl
    · exact scanDigits_point r
  | cons c ds ih =>
    have hne : ∀ r, ds ++ rest ≠ '_' :: r := by
      intro r h
      cases ds with
      | nil => exact hrest r h
      | cons d ds =>
        have hdig := hd d (by simp)
        rw [(List.cons.inj h).1] at hdig
        exact absurd hdig (by decide)
    rw [List.cons_append, scanDigits_cons (hd c List.mem_cons_self) hne,
      ih fun d h => hd d (List.mem_cons_of_mem c h), List.map_cons]

theorem scanSign_cons {c : Char} (s : List Char) (hc : c.isDigit = true) :
    scanSign (c :: s) = (false, c :: s) := by
  have hm : c ≠ '-' := by rintro rfl; exact absurd hc (by decide)
  have hp : c ≠ '+' := by rintro rfl; exact absurd hc (by decide)
  exact scanSign.eq_3 (c :: s) (fun _ h => hm (List.cons.inj h).1) fun _ h => hp (List.cons.inj h).1

/-- A minus sign, if there is one, as text. -/
def minus (negative : Bool) : List Char := if negative then ['-'] else []

theorem scanSign_minus (negative : Bool) {c : Char} (s : List Char) (hc : c.isDigit = true) :
    scanSign (minus negative ++ c :: s) = (negative, c :: s) := by
  cases negative with
  | false => exact scanSign_cons s hc
  | true => rfl

/-- Two rows of digits with a point between them, and perhaps a minus in front, are a numeral. -/
theorem readBinary64_pointed (negative : Bool) {whole places : List Char} (hne : whole ≠ [])
    (hw : ∀ c ∈ whole, c.isDigit = true) (hp : ∀ c ∈ places, c.isDigit = true) :
    ∃ x, readBinary64 (minus negative ++ (whole ++ '.' :: places)) = some x := by
  have hwhite : ∀ c ∈ minus negative ++ (whole ++ '.' :: places), isWhiteSpace c = false := by
    intro c hc
    simp only [List.mem_append, List.mem_cons] at hc
    rcases hc with hc | hc | rfl | hc
    · cases negative with
      | false => cases hc
      | true => rw [List.mem_singleton.mp hc]; decide
    · exact isWhiteSpace_of_isDigit (hw c hc)
    · decide
    · exact isWhiteSpace_of_isDigit (hp c hc)
  have hwhole : scanDigits (whole ++ '.' :: places)
      = (whole.map fun c => c.toNat - 48, '.' :: places) :=
    scanDigits_append hw (.inr ⟨places, rfl⟩)
  have hplaces : scanDigits places = (places.map fun c => c.toNat - 48, []) := by
    have := scanDigits_append hp (.inl rfl)
    rwa [List.append_nil] at this
  obtain ⟨c, ds, rfl⟩ := List.exists_cons_of_ne_nil hne
  refine ⟨nearest negative ((c :: ds).map (fun c => c.toNat - 48) ++ places.map fun c => c.toNat - 48)
    (0 - (places.map fun c => c.toNat - 48).length), ?_⟩
  unfold readBinary64
  rw [trim_eq_self hwhite, List.cons_append, scanSign_minus negative _ (hw c List.mem_cons_self)]
  simp only [← List.cons_append, hwhole, scanFraction, hplaces, scanExponent]
  rfl

end Number

/-! ## Metric values -/

namespace Line

open Number

/-- The digits of a quotient with places are two rows with a point between. -/
theorem fixed_eq_pointed {places : Nat} (h : places ≠ 0) (v : Binary64.Quotient) :
    ∃ whole fraction, fixed places v = whole ++ '.' :: fraction ∧ whole ≠ [] ∧
      (∀ c ∈ whole, c.isDigit = true) ∧ ∀ c ∈ fraction, c.isDigit = true := by
  refine ⟨_, _, if_neg h, digitsOf_ne_nil _, ?_, ?_⟩
  · exact fun c hc => isDigit_of_mem_digitsOf hc
  · exact fun c hc => isDigit_of_mem_padded hc

/-- A finite value is written as two rows of digits with a point between, behind its sign. -/
theorem toList_valueText_finite (negative : Bool) (exponent : Fin 2047)
    (fraction : Fin (1 <<< 52)) :
    ∃ whole places, (valueText (.finite negative exponent fraction)).toList
        = minus negative ++ (whole ++ '.' :: places) ∧ whole ≠ [] ∧
      (∀ c ∈ whole, c.isDigit = true) ∧ ∀ c ∈ places, c.isDigit = true := by
  obtain ⟨whole, places, heq, hdigits⟩ :=
    fixed_eq_pointed (show valuePlaces ≠ 0 by decide) (Binary64.magnitude exponent fraction)
  refine ⟨whole, places, ?_, hdigits⟩
  unfold valueText
  rw [String.toList_ofList, heq]
  cases negative <;> rfl

/-- Every metric value, as it is written, is a numeral. -/
theorem readBinary64_valueText (x : Binary64) :
    ∃ y, readBinary64 (valueText x).toList = some y := by
  cases x with
  | nan => exact ⟨.nan, by decide⟩
  | infinite negative =>
    cases negative with
    | false => exact ⟨.infinite false, by decide⟩
    | true => exact ⟨.infinite true, by decide⟩
  | finite negative exponent fraction =>
    obtain ⟨whole, places, htext, hne, hw, hp⟩ := toList_valueText_finite negative exponent fraction
    rw [htext]
    exact readBinary64_pointed negative hne hw hp

/-- A written metric value holds no blanks. -/
theorem isBlank_of_mem_valueText (x : Binary64) :
    ∀ c ∈ (valueText x).toList, isBlank c = false := by
  cases x with
  | nan => exact forall_mem_of_all (by decide)
  | infinite negative =>
    cases negative with
    | false => exact forall_mem_of_all (by decide)
    | true => exact forall_mem_of_all (by decide)
  | finite negative exponent fraction =>
    obtain ⟨whole, places, htext, -, hw, hp⟩ := toList_valueText_finite negative exponent fraction
    intro c hc
    rw [htext] at hc
    simp only [List.mem_append, List.mem_cons] at hc
    rcases hc with hc | hc | rfl | hc
    · cases negative with
      | false => cases hc
      | true => rw [List.mem_singleton.mp hc]; decide
    · exact isBlank_of_isDigit (hw c hc)
    · decide
    · exact isBlank_of_isDigit (hp c hc)

end Line

end Logwire
