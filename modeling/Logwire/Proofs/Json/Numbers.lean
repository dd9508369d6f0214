import Logwire.Json.Reader
import Logwire.Json.Writer
import Logwire.Proofs.Number.Shortest

/-!
# Logwire.Proofs.Json.Numbers

Numbers in JSON text read back.

A number is written as a row of digits, perhaps a point and places, and perhaps
a power of ten (`NumberText`).  `readNumber_chars` says what is read of such a
text, whatever follows it.  An integer is the row of digits alone
(`readNumber_intDigits`); the layouts of a datum, positional and scientific, are
such texts of the value of its shortest digits (`exists_numberText`), so the
datum itself is read (`readNumber_shortestText`).
-/

namespace Logwire.Json

open Number Text

/-! ## Rows of digits -/

theorem isAsciiDigit_eq : isAsciiDigit = Char.isDigit := rfl

theorem ne_of_isDigit {c x : Char} (hc : c.isDigit = true) (hx : x.isDigit = false) : c ≠ x := by
  rintro rfl
  rw [hc] at hx
  contradiction

/-- The values of the digits of a row. -/
def digitValues (ds : List Char) : List Nat := ds.map fun c => c.toNat - 48

theorem digitValues_append (ds es : List Char) :
    digitValues (ds ++ es) = digitValues ds ++ digitValues es := List.map_append

/-- The values of a row of ASCII digits denote what the row denotes. -/
theorem ofDigits_digitValues {ds : List Char} (h : ∀ c ∈ ds, c.isDigit = true) :
    ofDigits (digitValues ds) = decimalValue ds := by
  unfold decimalValue digitValues
  congr 1
  exact List.map_congr_left fun c hc => by rw [digitValue?_of_isDigit (h c hc), Option.getD_some]

/-- A row of digits ends before a character that is no digit. -/
theorem scanAsciiDigits_append {ds rest : List Char} (hd : ∀ c ∈ ds, c.isDigit = true)
    (hr : ∀ c ∈ rest.head?, c.isDigit = false) :
    scanAsciiDigits (ds ++ rest) = (digitValues ds, rest) := by
  have hstop : rest.takeWhile Char.isDigit = [] ∧ rest.dropWhile Char.isDigit = rest := by
    cases rest with
    | nil => exact ⟨rfl, rfl⟩
    | cons c r =>
      have hc : ¬ c.isDigit = true := by simp [hr c rfl]
      exact ⟨List.takeWhile_cons_of_neg hc, List.dropWhile_cons_of_neg hc⟩
  unfold scanAsciiDigits
  rw [isAsciiDigit_eq, List.takeWhile_append_of_pos hd, List.dropWhile_append_of_pos hd, hstop.1,
    hstop.2, List.append_nil]
  rfl

/-- A sign and a magnitude make the integer. -/
theorem signed_natAbs (i : Int) : signed (decide (i < 0)) i.natAbs = i := by
  unfold signed
  by_cases h : i < 0
  · rw [if_pos (decide_eq_true h)]
    omega
  · rw [if_neg (by simpa using h)]
    omega

/-! ## The parts of a number -/

/-- A number by its parts: the digits before the point, those after it, which may be missing, and
a power of ten. -/
structure NumberText where
  whole : List Char
  places : List Char
  power : Option Int

namespace NumberText

/-- The places behind their point. -/
def pointed (places : List Char) : List Char := if places = [] then [] else '.' :: places

/-- A number as text, without a sign. -/
def chars (t : NumberText) : List Char :=
  t.whole ++ (pointed t.places ++ t.power.elim [] (exponentText 'e'))

/-- The parts are rows of digits, the first without a needless zero in front. -/
structure Formed (t : NumberText) : Prop where
  ne_nil : t.whole ≠ []
  whole : ∀ c ∈ t.whole, c.isDigit = true
  places : ∀ c ∈ t.places, c.isDigit = true
  leading : t.whole.head? = some '0' → t.whole = ['0']

/-- The digits of a number, and the power of ten that goes with them. -/
def digits (t : NumberText) : List Nat := digitValues (t.whole ++ t.places)

def scale (t : NumberText) : Int := t.power.getD 0 - t.places.length

end NumberText

/-- A text that no number goes on with. -/
def EndsNumber (rest : List Char) : Prop :=
  ∀ c ∈ rest.head?, c.isDigit = false ∧ c ≠ '.' ∧ c ≠ 'e' ∧ c ≠ 'E'

namespace NumberText

variable {t : NumberText} {rest : List Char}

/-- A whole part is read up to the first character that is no digit. -/
theorem scanWhole_append {whole : List Char} (hne : whole ≠ [])
    (hw : ∀ c ∈ whole, c.isDigit = true) (hlead : whole.head? = some '0' → whole = ['0'])
    (hr : ∀ c ∈ rest.head?, c.isDigit = false) :
    scanWhole (whole ++ rest) = some (digitValues whole, rest) := by
  obtain ⟨c, ds, rfl⟩ := List.exists_cons_of_ne_nil hne
  by_cases hc : c = '0'
  · subst hc
    obtain rfl : ds = [] := (List.cons.inj (hlead rfl)).2
    rfl
  · rw [List.cons_append, scanWhole.eq_2 _ _ (by simpa using hc)]
    rw [isAsciiDigit_eq, if_pos (hw c List.mem_cons_self), ← List.cons_append,
      scanAsciiDigits_append hw hr]

/-- So are the places behind a point. -/
theorem scanPlaces_append {places : List Char} (hp : ∀ c ∈ places, c.isDigit = true)
    (hr : ∀ c ∈ rest.head?, c.isDigit = false ∧ c ≠ '.') :
    scanPlaces (pointed places ++ rest) = (digitValues places, rest) := by
  unfold pointed
  split
  case isTrue h =>
    subst h
    rw [List.nil_append]
    unfold scanPlaces
    split
    · exact absurd rfl (hr '.' rfl).2
    · rfl
  case isFalse h =>
    have hdigits : ¬ (digitValues places).isEmpty = true := by simpa [digitValues] using h
    rw [List.cons_append, scanPlaces, scanAsciiDigits_append hp fun c hc => (hr c hc).1,
      if_neg hdigits]

/-- An exponent is read up to the end of the number. -/
theorem scanPower_append (power : Option Int) (hr : EndsNumber rest) :
    scanPower (power.elim [] (exponentText 'e') ++ rest) = (power, rest) := by
  cases power with
  | none =>
    rw [Option.elim, List.nil_append]
    cases rest with
    | nil => rfl
    | cons c r =>
      obtain ⟨-, -, he, hE⟩ := hr c rfl
      simp [scanPower, he, hE]
  | some e =>
    have hdigits : ∀ c ∈ padded 2 e.natAbs, c.isDigit = true := fun c hc =>
      isDigit_of_mem_padded hc
    have hvalue : ofDigits (digitValues (padded 2 e.natAbs)) = e.natAbs := by
      rw [ofDigits_digitValues hdigits, decimalValue_padded]
    have hne : (digitValues (padded 2 e.natAbs)).isEmpty = false := by
      simp [digitValues, padded, digitsOf_ne_nil]
    have hscan := scanAsciiDigits_append hdigits fun c hc => (hr c hc).1
    have hsign : scanSign ((if e < 0 then '-' else '+') :: (padded 2 e.natAbs ++ rest)) =
        (decide (e < 0), padded 2 e.natAbs ++ rest) := by
      by_cases h : e < 0
      · simp [h, scanSign]
      · simp [h, scanSign]
    rw [Option.elim, exponentText, List.cons_append, List.cons_append, scanPower]
    simp only [true_or, if_true, hsign, hscan, hne, Bool.false_eq_true, if_false, hvalue,
      signed_natAbs]

/-- What follows the places of a number begins with no digit and no point. -/
theorem head?_power_append (power : Option Int) (hr : EndsNumber rest) :
    ∀ c ∈ (power.elim [] (exponentText 'e') ++ rest).head?, c.isDigit = false ∧ c ≠ '.' := by
  intro c hc
  cases power with
  | none => exact ⟨(hr c hc).1, (hr c hc).2.1⟩
  | some e =>
    obtain rfl : 'e' = c := Option.some.inj hc
    decide

/-- What follows the integer part of a number begins with no digit. -/
theorem head?_pointed_append (places : List Char) {s : List Char}
    (hs : ∀ c ∈ s.head?, c.isDigit = false) :
    ∀ c ∈ (pointed places ++ s).head?, c.isDigit = false := by
  intro c hc
  unfold pointed at hc
  split at hc
  case isTrue => exact hs c hc
  case isFalse =>
    obtain rfl : '.' = c := Option.some.inj hc
    decide

theorem scanMinus_minus (negative : Bool) {ds s : List Char} (hne : ds ≠ [])
    (hd : ∀ c ∈ ds, c.isDigit = true) :
    scanMinus (minus negative ++ (ds ++ s)) = (negative, ds ++ s) := by
  obtain ⟨c, ds, rfl⟩ := List.exists_cons_of_ne_nil hne
  have hc : c ≠ '-' := ne_of_isDigit (hd c List.mem_cons_self) rfl
  cases negative with
  | false => exact scanMinus.eq_2 _ fun _ h => hc (List.cons.inj h).1
  | true => rfl

/-- What is read of a number and of what follows it. -/
theorem readNumber_chars (negative : Bool) (ht : t.Formed) (hr : EndsNumber rest) :
    readNumber (minus negative ++ (t.chars ++ rest)) =
      some (if t.places = [] ∧ t.power = none then
          if maxDigits < t.whole.length then .error (.tooManyDigits t.whole.length)
          else .ok (.int (signed negative (ofDigits t.digits)))
        else .ok (.num (nearest negative t.digits t.scale)), rest) := by
  have hpower := head?_power_append t.power hr
  have hwhole := scanWhole_append ht.ne_nil ht.whole ht.leading
    (head?_pointed_append t.places fun c hc => (hpower c hc).1)
  have hminus := scanMinus_minus negative (s := pointed t.places ++
    (t.power.elim [] (exponentText 'e') ++ rest)) ht.ne_nil ht.whole
  have hsplit : t.chars ++ rest =
      t.whole ++ (pointed t.places ++ (t.power.elim [] (exponentText 'e') ++ rest)) := by
    simp only [chars, List.append_assoc]
  have hlength : ∀ ds : List Char, (digitValues ds).length = ds.length := fun ds =>
    List.length_map ..
  rw [hsplit]
  unfold readNumber
  simp only [hminus, hwhole, scanPlaces_append ht.places hpower, scanPower_append t.power hr,
    hlength]
  have hplain : ((digitValues t.places).isEmpty && t.power.isNone) = true ↔
      t.places = [] ∧ t.power = none := by
    simp [digitValues]
  simp only [hplain]
  split
  case isTrue h =>
    rw [digits, h.1, List.append_nil]
    split
    · rfl
    · rfl
  case isFalse => rw [digits, digitValues_append, scale]

end NumberText

/-! ## Integers -/

/-- The digits of a number begin with a zero for zero only. -/
theorem head?_digitsOf {n : Nat} (h : (digitsOf n).head? = some '0') : n = 0 := by
  obtain ⟨ds, hds⟩ := List.head?_eq_some_iff.mp h
  by_contra hn
  have hlow := (pow_length_digitsOf (Nat.pos_of_ne_zero hn)).1
  have hvalue : n = decimalValue ds := by
    rw [← decimalValue_digitsOf n, hds, ← List.singleton_append, decimalValue_append,
      show decimalValue ['0'] = 0 from rfl, Nat.zero_mul, Nat.zero_add]
  have hlt := decimalValue_lt ds
  rw [hds, List.length_cons, Nat.add_sub_cancel] at hlow
  omega

/-- The digits of a number make a number without places and power. -/
theorem formed_digitsOf (n : Nat) : NumberText.Formed ⟨digitsOf n, [], none⟩ where
  ne_nil := digitsOf_ne_nil n
  whole := fun _ hc => isDigit_of_mem_digitsOf hc
  places := fun _ hc => absurd hc List.not_mem_nil
  leading := fun h => by
    obtain rfl := head?_digitsOf h
    rfl

theorem intDigits_eq (i : Int) : intDigits i = minus (decide (i < 0)) ++ digitsOf i.natAbs := by
  unfold intDigits minus
  by_cases h : i < 0
  · simp [h]
  · simp [h]

/-- An integer that is written is read, whatever follows it. -/
theorem readNumber_intDigits {i : Int} {rest : List Char} (hi : isWritable i = true)
    (hr : EndsNumber rest) : readNumber (intDigits i ++ rest) = some (.ok (.int i), rest) := by
  have hsplit : intDigits i ++ rest = minus (decide (i < 0)) ++
      (NumberText.chars ⟨digitsOf i.natAbs, [], none⟩ ++ rest) := by
    rw [intDigits_eq, List.append_assoc]
    simp [NumberText.chars, NumberText.pointed]
  have hvalue : ofDigits (NumberText.digits ⟨digitsOf i.natAbs, [], none⟩) = i.natAbs := by
    rw [NumberText.digits, List.append_nil,
      ofDigits_digitValues fun _ hc => isDigit_of_mem_digitsOf hc, decimalValue_digitsOf]
  have hlength : ¬ maxDigits < (digitsOf i.natAbs).length := Nat.not_lt.mpr (of_decide_eq_true hi)
  rw [hsplit, NumberText.readNumber_chars _ (formed_digitsOf _) hr, if_pos ⟨rfl, rfl⟩,
    if_neg hlength, hvalue, signed_natAbs]

/-! ## Double precision numbers -/

/-- A number has the value of a decimal. -/
structure NumberText.Denotes (t : NumberText) (d : Decimal) : Prop where
  formed : t.Formed
  value : (ofDigits t.digits : ℚ) * 10 ^ t.scale = d.value

/-- It has that value if its digits are those of the decimal, with zeros behind them that a smaller
power of ten makes up for. -/
theorem NumberText.Formed.denotes {t : NumberText} {d : Decimal} (h : t.Formed) (zeros : Nat)
    (hdigits : decimalValue (t.whole ++ t.places) = d.coefficient * 10 ^ zeros)
    (hscale : t.scale + zeros = d.power) : t.Denotes d where
  formed := h
  value := by
    have hall : ∀ c ∈ t.whole ++ t.places, c.isDigit = true := by
      simpa only [List.forall_mem_append] using And.intro h.whole h.places
    rw [digits, ofDigits_digitValues hall, hdigits, Decimal.value, ← hscale,
      zpow_add₀ (by norm_num), zpow_natCast]
    push_cast
    ring

section

variable {d : Decimal}

theorem isDigit_of_mem_zeros {n : Nat} : ∀ c ∈ List.replicate n '0', c.isDigit = true := by
  intro c hc
  rw [List.eq_of_mem_replicate hc]
  rfl

/-- The exponent puts the point behind the first digit. -/
theorem exponent_add_one (d : Decimal) :
    d.exponent + 1 = (digitsOf d.coefficient).length + d.power := by
  rw [Decimal.exponent]
  omega

/-- The digits of a decimal with a point among them or behind them. -/
theorem formed_take (d : Decimal) (n : Nat) (power : Option Int) :
    NumberText.Formed ⟨(digitsOf d.coefficient).take (n + 1),
      (digitsOf d.coefficient).drop (n + 1), power⟩ where
  ne_nil := by simp [digitsOf_ne_nil]
  whole := fun _ hc => isDigit_of_mem_digitsOf (List.mem_of_mem_take hc)
  places := fun _ hc => isDigit_of_mem_digitsOf (List.mem_of_mem_drop hc)
  leading := fun h => by
    have hzero : d.coefficient = 0 := head?_digitsOf (by simpa [List.head?_take] using h)
    simp [hzero, digitsOf]

/-- A decimal below one. -/
theorem denotes_small (h : d.exponent + 1 ≤ 0) :
    NumberText.Denotes ⟨['0'], List.replicate (d.exponent + 1).natAbs '0' ++
      digitsOf d.coefficient, none⟩ d := by
  have hformed : NumberText.Formed ⟨['0'], List.replicate (d.exponent + 1).natAbs '0' ++
      digitsOf d.coefficient, none⟩ :=
    { ne_nil := by simp
      whole := by simp
      places := by
        simp only [List.forall_mem_append]
        exact ⟨isDigit_of_mem_zeros, fun c hc => isDigit_of_mem_digitsOf hc⟩
      leading := fun _ => rfl }
  refine hformed.denotes 0 ?_ ?_
  · rw [decimalValue_append, decimalValue_append, decimalValue_zeros, decimalValue_digitsOf,
      show decimalValue ['0'] = 0 from rfl]
    omega
  · have hexp := exponent_add_one d
    simp only [NumberText.scale, List.length_append, List.length_replicate, Option.getD_none]
    omega

/-- A decimal whose last digit stands behind the point. -/
theorem denotes_middle {n : Nat} (h : d.exponent = n) (hp : d.power < 0) :
    NumberText.Denotes ⟨(digitsOf d.coefficient).take (n + 1),
      (digitsOf d.coefficient).drop (n + 1), none⟩ d := by
  have hexp := exponent_add_one d
  refine (formed_take d n none).denotes 0 ?_ ?_
  · rw [List.take_append_drop, decimalValue_digitsOf]
    omega
  · simp only [NumberText.scale, List.length_drop, Option.getD_none]
    omega

/-- A whole decimal, its zeros written out. -/
theorem denotes_large (hp : 0 ≤ d.power) (hz : d.coefficient = 0 → d.power = 0) :
    NumberText.Denotes ⟨digitsOf d.coefficient ++ List.replicate d.power.toNat '0', ['0'], none⟩
      d := by
  have hformed : NumberText.Formed
      ⟨digitsOf d.coefficient ++ List.replicate d.power.toNat '0', ['0'], none⟩ :=
    { ne_nil := by simp [digitsOf_ne_nil]
      whole := by
        simp only [List.forall_mem_append]
        exact ⟨fun c hc => isDigit_of_mem_digitsOf hc, isDigit_of_mem_zeros⟩
      places := by simp
      leading := fun h => by
        have hzero : d.coefficient = 0 :=
          head?_digitsOf (by simpa [List.head?_append, digitsOf_ne_nil] using h)
        simp only [hz hzero, hzero]
        rfl }
  refine hformed.denotes (d.power.toNat + 1) ?_ ?_
  · rw [List.append_assoc, decimalValue_append, decimalValue_append, decimalValue_zeros,
      decimalValue_digitsOf, show decimalValue ['0'] = 0 from rfl]
    simp
  · simp only [NumberText.scale, List.length_singleton, Option.getD_none]
    omega

/-- A decimal by its first digit, the others as places, and its power of ten. -/
theorem denotes_scientific (d : Decimal) :
    NumberText.Denotes ⟨(digitsOf d.coefficient).take 1, (digitsOf d.coefficient).drop 1,
      some d.exponent⟩ d := by
  have hexp := exponent_add_one d
  have hpos := length_digitsOf_pos d.coefficient
  refine (formed_take d 0 (some d.exponent)).denotes 0 ?_ ?_
  · rw [List.take_append_drop, decimalValue_digitsOf]
    omega
  · simp only [NumberText.scale, List.length_drop, Option.getD_some]
    omega

end

/-- The text of a datum is a number of the value of its shortest digits. -/
theorem exists_numberText (exponent : Fin 2047) (fraction : Fin (1 <<< 52)) :
    ∃ t : NumberText, t.Denotes (shortest exponent fraction) ∧
      ¬ (t.places = [] ∧ t.power = none) ∧ t.chars = shortestText exponent fraction := by
  have hz := @power_shortest_eq_zero exponent fraction
  unfold shortestText
  set d := shortest exponent fraction with hd
  have hexp := exponent_add_one d
  have hpos := length_digitsOf_pos d.coefficient
  simp only
  split
  case isTrue =>
    unfold positional
    by_cases hsmall : d.exponent + 1 ≤ 0
    · refine ⟨_, denotes_small hsmall, by simp [digitsOf_ne_nil], ?_⟩
      rw [if_pos hsmall]
      simp [NumberText.chars, NumberText.pointed, digitsOf_ne_nil]
    · rw [if_neg hsmall]
      by_cases hp : d.power < 0
      · obtain ⟨n, hn⟩ : ∃ n : Nat, d.exponent = n := ⟨d.exponent.toNat, by omega⟩
        have hwhole : (d.exponent + 1).toNat = n + 1 := by omega
        have hplaces : (digitsOf d.coefficient).drop (n + 1) ≠ [] := by
          rw [ne_eq, List.drop_eq_nil_iff]
          omega
        have hzeros : n + 1 - (digitsOf d.coefficient).length = 0 := by omega
        refine ⟨_, denotes_middle hn hp, by simp [hplaces], ?_⟩
        simp [NumberText.chars, NumberText.pointed, hwhole, hplaces, hzeros]
      · have hwhole : (digitsOf d.coefficient).length ≤ (d.exponent + 1).toNat := by omega
        have hzeros : (d.exponent + 1).toNat - (digitsOf d.coefficient).length =
            d.power.toNat := by omega
        refine ⟨_, denotes_large (by omega) hz, by simp, ?_⟩
        simp [NumberText.chars, NumberText.pointed, List.take_of_length_le hwhole,
          List.drop_of_length_le hwhole, hzeros]
  case isFalse =>
    refine ⟨_, denotes_scientific d, by simp, ?_⟩
    obtain ⟨c, ds, hds⟩ := List.exists_cons_of_ne_nil (digitsOf_ne_nil d.coefficient)
    rw [hds]
    cases ds with
    | nil => rfl
    | cons c' ds => rfl

/-- It begins with a digit. -/
theorem exists_shortestText (exponent : Fin 2047) (fraction : Fin (1 <<< 52)) :
    ∃ c s, shortestText exponent fraction = c :: s ∧ c.isDigit = true := by
  obtain ⟨t, ht, -, hchars⟩ := exists_numberText exponent fraction
  obtain ⟨c, ds, hds⟩ := List.exists_cons_of_ne_nil ht.formed.ne_nil
  refine ⟨c, _, by rw [← hchars, NumberText.chars, hds, List.cons_append], ?_⟩
  exact ht.formed.whole c (by rw [hds]; exact List.mem_cons_self)

/-- A datum that is written is read, whatever follows it. -/
theorem readNumber_shortestText (negative : Bool) (exponent : Fin 2047)
    (fraction : Fin (1 <<< 52)) {rest : List Char} (hr : EndsNumber rest) :
    readNumber (minus negative ++ (shortestText exponent fraction ++ rest)) =
      some (.ok (.num (.finite negative exponent fraction)), rest) := by
  obtain ⟨t, ht, hpoint, hchars⟩ := exists_numberText exponent fraction
  rw [← hchars, NumberText.readNumber_chars negative ht.formed hr, if_neg hpoint,
    nearest_of_value_eq_shortest negative ht.value]

end Logwire.Json
