import Logwire.Proofs.Number.Digits
import Logwire.Time.Rfc3339
import Mathlib.Data.List.Forall2
import Mathlib.Data.List.TakeWhile

/-!
# Logwire.Proofs.Time.Timestamp

Timestamps as text.

A text has the form of a timestamp exactly when it is made of `Formed` parts,

```
base [ "." fraction ] zone [ line feed ]
```

so none of its characters is blank but for the line feed at its end.  A moment
that was read is written in parts of the narrow form, whence

* `parseRfc3339_format` — what is written of it reads back, without its fraction;
* `isSyslogTimestamp_format` — and goes on the wire unchanged.
-/

namespace Logwire.Time

open Number Text

/-! ## Patterns -/

/-- The characters are in the classes of a pattern, one by one. -/
abbrev Fits (ps : List (Char → Bool)) (s : List Char) : Prop :=
  List.Forall₂ (fun p c => p c = true) ps s

/-- Characters that fit a pattern are read, whatever follows them. -/
theorem matchShape_append {ps : List (Char → Bool)} {front : List Char} (rest : List Char)
    (h : Fits ps front) : matchShape ps (front ++ rest) = some (front, rest) := by
  induction h with
  | nil => rfl
  | cons hp _ ih => rw [List.cons_append, matchShape, if_pos hp, ih]

/-- A pattern reads no other characters. -/
theorem fits_of_matchShape {ps : List (Char → Bool)} {s front rest : List Char}
    (h : matchShape ps s = some (front, rest)) : s = front ++ rest ∧ Fits ps front := by
  induction ps generalizing s front with
  | nil =>
    obtain ⟨rfl, rfl⟩ := Prod.mk.inj (Option.some.inj h)
    exact ⟨rfl, .nil⟩
  | cons p ps ih =>
    cases s with
    | nil => contradiction
    | cons c s =>
      rw [matchShape] at h
      by_cases hp : p c = true
      · rw [if_pos hp] at h
        cases hs : matchShape ps s with
        | none => rw [hs] at h; contradiction
        | some q =>
          obtain ⟨front', rest'⟩ := q
          simp only [hs, Option.some.injEq, Prod.mk.injEq] at h
          obtain ⟨rfl, rfl⟩ := h
          obtain ⟨rfl, hfits⟩ := ih hs
          exact ⟨rfl, .cons hp hfits⟩
      · rw [if_neg hp] at h; contradiction

/-! ## Parts -/

namespace Parts

def fractionChars (fraction : List Char) : List Char :=
  if fraction.isEmpty then [] else '.' :: fraction

/-- The text that is made of the parts. -/
def chars (p : Parts) : List Char := p.base ++ fractionChars p.fraction ++ p.zone

def ZoneForm (zone : List Char) : Prop := zone = ['Z'] ∨ zone = ['z'] ∨ Fits zoneShape zone

/-- The parts of a text in the form of a timestamp. -/
structure Formed (p : Parts) : Prop where
  base : Fits baseShape p.base
  fraction : ∀ c ∈ p.fraction, isDecimal c = true
  zone : ZoneForm p.zone

/-- A fraction is all of the digits behind the point. -/
theorem scanFraction_sound {s fraction rest : List Char} (h : scanFraction s = (fraction, rest)) :
    s = fractionChars fraction ++ rest ∧ ∀ c ∈ fraction, isDecimal c = true := by
  unfold scanFraction at h
  split at h
  · next r =>
    split at h
    · obtain ⟨rfl, rfl⟩ := Prod.mk.inj h
      exact ⟨rfl, fun _ hc => nomatch hc⟩
    · next hne =>
      obtain ⟨rfl, rfl⟩ := Prod.mk.inj h
      refine ⟨?_, fun c hc => ?_⟩
      · unfold fractionChars
        rw [if_neg hne, List.cons_append, List.takeWhile_append_dropWhile]
      · exact List.mem_takeWhile_imp hc
  · obtain ⟨rfl, rfl⟩ := Prod.mk.inj h
    exact ⟨rfl, fun _ hc => nomatch hc⟩

/-- A zone is taken off the front of a text and has the form of one. -/
theorem scanZone_sound {s zone rest : List Char} (h : scanZone s = some (zone, rest)) :
    s = zone ++ rest ∧ ZoneForm zone := by
  unfold scanZone at h
  split at h
  · obtain ⟨rfl, rfl⟩ := Prod.mk.inj (Option.some.inj h)
    exact ⟨rfl, .inl rfl⟩
  · obtain ⟨rfl, rfl⟩ := Prod.mk.inj (Option.some.inj h)
    exact ⟨rfl, .inr (.inl rfl)⟩
  · obtain ⟨rfl, hfits⟩ := fits_of_matchShape h
    exact ⟨rfl, .inr (.inr hfits)⟩

/-- A text with the form of a timestamp is made of its parts, and perhaps a line feed. -/
theorem scan?_sound {s : List Char} {p : Parts} (h : scan? s = some p) :
    p.Formed ∧ ∃ rest, atEnd rest = true ∧ s = p.chars ++ rest := by
  unfold scan? at h
  cases hb : matchShape baseShape s with
  | none => simp only [hb] at h; contradiction
  | some q =>
    obtain ⟨base, r⟩ := q
    obtain ⟨fraction, r', hf⟩ : ∃ fraction r', scanFraction r = (fraction, r') := ⟨_, _, rfl⟩
    simp only [hb, hf] at h
    cases hz : scanZone r' with
    | none => simp only [hz] at h; contradiction
    | some z =>
      obtain ⟨zone, rest⟩ := z
      simp only [hz, Option.ite_none_right_eq_some, Option.some.injEq] at h
      obtain ⟨hend, rfl⟩ := h
      obtain ⟨rfl, hbase⟩ := fits_of_matchShape hb
      obtain ⟨rfl, hfraction⟩ := scanFraction_sound hf
      obtain ⟨rfl, hzone⟩ := scanZone_sound hz
      refine ⟨⟨hbase, hfraction, hzone⟩, rest, hend, ?_⟩
      simp only [chars, List.append_assoc]

/-- Parts without a fraction are found in their text. -/
theorem scan?_append {base zone : List Char} (hb : Fits baseShape base) (hz : ZoneForm zone) :
    scan? (base ++ zone) = some ⟨base, [], zone⟩ := by
  have hzone : scanZone zone = some (zone, []) ∧ scanFraction zone = ([], zone) := by
    rcases hz with rfl | rfl | hfits
    · exact ⟨rfl, rfl⟩
    · exact ⟨rfl, rfl⟩
    · obtain ⟨sign, digits, rfl⟩ : ∃ sign digits, zone = sign :: digits := by
        cases hfits with
        | cons _ _ => exact ⟨_, _, rfl⟩
      have hsign : sign = '+' ∨ sign = '-' := by
        cases hfits with
        | cons hs _ => simpa using hs
      have hmatch := matchShape_append [] hfits
      rw [List.append_nil] at hmatch
      rcases hsign with rfl | rfl
      · exact ⟨hmatch, rfl⟩
      · exact ⟨hmatch, rfl⟩
  unfold scan?
  simp only [matchShape_append zone hb, hzone.1, hzone.2]
  rfl

end Parts

/-! ## Blanks -/

/-- Line breaks are blanks. -/
theorem any_isLineBreak_of_isBlank {s : List Char} (h : ∀ c ∈ s, isBlank c = false) :
    s.any isLineBreak = false := by
  rw [List.any_eq_false]
  intro c hc hb
  rcases eq_of_isLineBreak hb with rfl | rfl
  · exact absurd (h _ hc) (by decide)
  · exact absurd (h _ hc) (by decide)

/-- What all classes of a pattern have in common, all characters that fit it have. -/
theorem Fits.forall {ps : List (Char → Bool)} {s : List Char} (h : Fits ps s) {P : Char → Prop}
    (hp : ∀ p ∈ ps, ∀ c, p c = true → P c) : ∀ c ∈ s, P c := by
  induction h with
  | nil => exact fun _ hc => nomatch hc
  | cons hpc _ ih =>
    intro c hc
    rcases List.mem_cons.mp hc with rfl | hc
    · exact hp _ List.mem_cons_self _ hpc
    · exact ih (fun p hm => hp p (List.mem_cons_of_mem _ hm)) c hc

def marks : List Char := ['-', ':', '+', 'T', 't', 'Z', 'z', '.']

/-- The classes of the patterns are digits and marks. -/
theorem class_eq_or (p : Char → Bool) (hp : p ∈ baseShape ++ zoneShape) :
    p = isDecimal ∨ ∀ c, p c = true → c ∈ marks := by
  revert p
  simp [baseShape, zoneShape, twoDigits, marks]

theorem isBlank_of_mem_marks {c : Char} (h : c ∈ marks) : isBlank c = false := by
  have hall : ∀ c ∈ marks, isBlank c = false := forall_mem_of_all (by decide)
  exact hall c h

/-- A digit or a mark of a timestamp. -/
def IsStampChar (c : Char) : Prop := isDecimal c = true ∨ c ∈ marks

theorem IsStampChar.isBlank_eq_false {c : Char} (h : IsStampChar c) : isBlank c = false := by
  cases h with
  | inl hd => exact isBlank_of_isDecimal hd
  | inr hm => exact isBlank_of_mem_marks hm

/-- A text of the narrow form holds only characters of a timestamp. -/
theorem isStampChar_of_fits {ps : List (Char → Bool)} (hps : ps ⊆ baseShape ++ zoneShape)
    {s : List Char} (h : Fits ps s) : ∀ c ∈ s, IsStampChar c := by
  refine h.forall fun p hp c hc => ?_
  rcases class_eq_or p (hps hp) with rfl | hmarks
  · exact .inl hc
  · exact .inr (hmarks c hc)

/-- The parts of a timestamp hold digits and marks only. -/
theorem Parts.Formed.isStampChar {p : Parts} (h : p.Formed) : ∀ c ∈ p.chars, IsStampChar c := by
  intro c hc
  simp only [chars, List.mem_append] at hc
  rcases hc with (hc | hc) | hc
  · exact isStampChar_of_fits (List.subset_append_left _ _) h.base c hc
  · unfold fractionChars at hc
    split at hc
    · cases hc
    · rcases List.mem_cons.mp hc with rfl | hc
      · exact .inr (by decide)
      · exact .inl (h.fraction c hc)
  · rcases h.zone with hz | hz | hz
    · rw [hz] at hc
      exact .inr (List.mem_singleton.mp hc ▸ by decide)
    · rw [hz] at hc
      exact .inr (List.mem_singleton.mp hc ▸ by decide)
    · exact isStampChar_of_fits (List.subset_append_right _ _) hz c hc

/-- The parts of a timestamp hold no blanks. -/
theorem Parts.Formed.isBlank_eq_false {p : Parts} (h : p.Formed) :
    ∀ c ∈ p.chars, isBlank c = false :=
  fun c hc => (h.isStampChar c hc).isBlank_eq_false

/-- A text with the form of a timestamp holds digits and marks, and line breaks at its end. -/
theorem isStampChar_of_scan? {s : List Char} {p : Parts} (h : Parts.scan? s = some p) :
    ∀ c ∈ s, IsStampChar c ∨ isLineBreak c = true := by
  obtain ⟨hf, rest, hend, rfl⟩ := Parts.scan?_sound h
  intro c hc
  cases List.mem_append.mp hc with
  | inl hc => exact .inl (hf.isStampChar c hc)
  | inr hc =>
    right
    unfold atEnd at hend
    rcases Bool.or_eq_true_iff.mp hend with hr | hr
    · rw [of_decide_eq_true hr] at hc
      cases hc
    · rw [of_decide_eq_true hr, List.mem_singleton] at hc
      rw [hc]
      decide

/-- The form of a timestamp on one line holds no blanks, and more than one character. -/
theorem isBlank_of_scan? {s : List Char} {p : Parts} (h : Parts.scan? s = some p)
    (hs : s.any isLineBreak = false) : (∀ c ∈ s, isBlank c = false) ∧ 1 < s.length := by
  obtain ⟨hf, rest, hend, rfl⟩ := Parts.scan?_sound h
  have hrest : rest = [] := by
    unfold atEnd at hend
    cases Bool.or_eq_true_iff.mp hend with
    | inl hr =>
      exact of_decide_eq_true hr
    | inr hr =>
      rw [of_decide_eq_true hr, List.any_append] at hs
      simp [isLineBreak] at hs
  have hlength : p.base.length = 19 := (hf.base.length_eq).symm
  subst hrest
  rw [List.append_nil]
  refine ⟨hf.isBlank_eq_false, ?_⟩
  simp only [Parts.chars, List.length_append]
  omega

/-- The narrow form is one of RFC 3339. -/
theorem scan?_of_isSyslogTimestamp {text : String} (h : isSyslogTimestamp text = true) :
    ∃ p, Parts.scan? text.toList = some p ∧ isRfc3339 text = true := by
  unfold isSyslogTimestamp at h
  cases hp : Parts.scan? text.toList with
  | none => rw [hp] at h; contradiction
  | some p =>
    rw [hp] at h
    exact ⟨p, rfl, (Bool.and_eq_true_iff.mp h).2⟩

/-- A timestamp that goes on the wire unchanged is one field of a header. -/
theorem isBlank_of_isSyslogTimestamp {text : String} (h : isSyslogTimestamp text = true)
    (hb : hasLineBreak text = false) :
    (∀ c ∈ text.toList, isBlank c = false) ∧ 1 < text.toList.length := by
  obtain ⟨p, hp, -⟩ := scan?_of_isSyslogTimestamp h
  exact isBlank_of_scan? hp hb

/-! ## Moments that were read -/

/-- The moments that timestamps denote: in range, on a clock some whole minutes from UTC. -/
structure Moment.Readable (m : Moment) : Prop where
  valid : m.Valid
  offset : ∃ o, m.offset = some o ∧ o % 60 = 0

/-- The offset of a zone is given in hours and minutes. -/
theorem Parts.offset_mod (p : Parts) : p.offset % 60 = 0 := by
  unfold offset
  split
  · next sign rest _ =>
    simp only
    split
    · omega
    · omega
  · rfl

/-- A moment that was read can be written again. -/
theorem readable_of_parseRfc3339 {text : String} {m : Moment} (h : parseRfc3339 text = .ok m) :
    m.Readable := by
  unfold parseRfc3339 at h
  split at h
  · contradiction
  · next p _ =>
    split at h
    · split at h
      · next m' hm =>
        obtain rfl := Except.ok.inj h
        obtain ⟨hf, hv⟩ := (Moment.moment_eq_ok_iff _ _).mp hm
        exact ⟨hv, p.offset, (congrArg Fields.offset hf).symm, p.offset_mod⟩
      · contradiction
    · contradiction

/-! ## Moments as text -/

theorem exists_padded_two {n : Nat} (h : n < 100) : ∃ a b, padded 2 n = [a, b] ∧
    a.isDigit = true ∧ b.isDigit = true ∧ decimalValue [a, b] = n := by
  have hlen : (padded 2 n).length = 2 := length_padded (by decide) h
  obtain ⟨a, b, heq⟩ := List.length_eq_two.mp hlen
  have hdig : ∀ c ∈ padded 2 n, c.isDigit = true := fun c hc => isDigit_of_mem_padded hc
  have hval := decimalValue_padded 2 n
  rw [heq] at hdig hval
  exact ⟨a, b, heq, hdig a (by simp), hdig b (by simp), hval⟩

theorem exists_padded_four {n : Nat} (h : n < 10000) : ∃ a b c d, padded 4 n = [a, b, c, d] ∧
    (∀ x ∈ [a, b, c, d], x.isDigit = true) ∧ decimalValue [a, b, c, d] = n := by
  have hlen : (padded 4 n).length = 4 := length_padded (by decide) h
  have hdig : ∀ c ∈ padded 4 n, c.isDigit = true := fun c hc => isDigit_of_mem_padded hc
  have hval := decimalValue_padded 4 n
  match heq : padded 4 n, hlen with
  | [a, b, c, d], _ =>
    rw [heq] at hdig hval
    exact ⟨a, b, c, d, rfl, hdig, hval⟩

namespace Moment

/-- The date and the time of day of a moment, in the places of a timestamp. -/
def base (m : Moment) : List Char := dateText m.date ++ 'T' :: m.timeText

/-- The places where the numbers of a timestamp stand. -/
def numbers (p : Parts) : List Nat :=
  [p.numberAt 0 4, p.numberAt 5 2, p.numberAt 8 2, p.numberAt 11 2, p.numberAt 14 2, p.numberAt 17 2]

/-- A moment in range fills the places of a timestamp, and each number is found in its own. -/
theorem base_of_valid {m : Moment} (hv : m.Valid) (fraction zone : List Char) :
    Fits baseShape m.base ∧ (∀ c ∈ m.base, c.toNat < 0x80 ∧ c ≠ 't') ∧ m.base[10]? = some 'T' ∧
      numbers ⟨m.base, fraction, zone⟩
        = [m.date.year.toNat, m.date.month, m.date.day, m.hour, m.minute, m.second] := by
  obtain ⟨-, hy, ⟨-, hmonth, -, hday⟩, hh, hmin, hs, -⟩ := hv
  have hdays := daysInMonth_le m.date.year m.date.month
  simp only [yearInRange, Bool.and_eq_true, decide_eq_true_eq] at hy
  obtain ⟨y1, y2, y3, y4, hyear, hydig, hyval⟩ := exists_padded_four (n := m.date.year.toNat) (by omega)
  obtain ⟨o1, o2, hmo, ho1, ho2, hoval⟩ := exists_padded_two (n := m.date.month) (by omega)
  obtain ⟨d1, d2, hd, hd1, hd2, hdval⟩ := exists_padded_two (n := m.date.day) (by omega)
  obtain ⟨h1, h2, hho, hh1, hh2, hhval⟩ := exists_padded_two (n := m.hour) (by omega)
  obtain ⟨i1, i2, hmi, hi1, hi2, hival⟩ := exists_padded_two (n := m.minute) (by omega)
  obtain ⟨s1, s2, hse, hs1, hs2, hsval⟩ := exists_padded_two (n := m.second) (by omega)
  have hbase : m.base = [y1, y2, y3, y4, '-', o1, o2, '-', d1, d2, 'T', h1, h2, ':', i1, i2, ':',
      s1, s2] := by
    unfold base dateText timeText
    rw [hyear, hmo, hd, hho, hmi, hse]
    rfl
  simp only [List.forall_mem_cons] at hydig
  obtain ⟨hy1, hy2, hy3, hy4, -⟩ := hydig
  have hascii : ∀ c : Char, c.isDigit = true → c.toNat < 0x80 ∧ c ≠ 't' := by
    intro c hc
    have := toNat_of_isDigit hc
    exact ⟨by omega, by rintro rfl; exact absurd hc (by decide)⟩
  rw [hbase]
  refine ⟨?_, ?_, rfl, ?_⟩
  · simp [Fits, baseShape, twoDigits, isDecimal_of_isDigit, *]
  · simp [*]
  · show [decimalValue [y1, y2, y3, y4], decimalValue [o1, o2], decimalValue [d1, d2],
      decimalValue [h1, h2], decimalValue [i1, i2], decimalValue [s1, s2]] = _
    rw [hyval, hoval, hdval, hhval, hival, hsval]

/-- The zone of an offset in whole minutes: `Z` at zero, otherwise two numbers that denote it. -/
theorem zone_of_offset {o : Int} (hmin : o % 60 = 0) (hday : o.natAbs < secondsPerDay)
    (base fraction : List Char) :
    Parts.ZoneForm (offsetText o) ∧ offsetText o ≠ ['z'] ∧
      (∀ c ∈ offsetText o, c.toNat < 0x80) ∧ (Parts.mk base fraction (offsetText o)).offset = o := by
  unfold secondsPerDay at hday
  by_cases h0 : o = 0
  · subst h0
    exact ⟨.inl rfl, by decide, forall_mem_of_all (by decide), rfl⟩
  · obtain ⟨h1, h2, hho, hh1, hh2, hhval⟩ := exists_padded_two (n := o.natAbs / 3600) (by omega)
    obtain ⟨i1, i2, hmi, hi1, hi2, hival⟩ :=
      exists_padded_two (n := o.natAbs % 3600 / 60) (by omega)
    have htext : offsetText o = [if o < 0 then '-' else '+', h1, h2, ':', i1, i2] := by
      unfold offsetText
      simp only [if_neg h0, hho, hmi, if_pos (show o.natAbs % 60 = 0 by omega)]
      rfl
    have hascii : ∀ c : Char, c.isDigit = true → c.toNat < 0x80 := by
      intro c hc
      have := toNat_of_isDigit hc
      omega
    rw [htext]
    refine ⟨.inr (.inr ?_), by simp, ?_, ?_⟩
    · split
      · simp [Fits, zoneShape, twoDigits, isDecimal_of_isDigit, *]
      · simp [Fits, zoneShape, twoDigits, isDecimal_of_isDigit, *]
    · split
      · simp [*]
      · simp [*]
    · show (if (if o < 0 then '-' else '+') = '-'
        then -((decimalValue [h1, h2] * 3600 + decimalValue [i1, i2] * 60 : Nat) : Int)
        else ((decimalValue [h1, h2] * 3600 + decimalValue [i1, i2] * 60 : Nat) : Int)) = o
      rw [hhval, hival]
      by_cases hneg : o < 0
      · simp only [if_pos hneg, if_true]
        omega
      · rw [if_neg hneg, if_neg (by decide)]
        omega

/-- The parts of what is written of a moment. -/
def parts (m : Moment) (offset : Int) : Parts := ⟨m.base, [], offsetText offset⟩

theorem natAbs_offset_lt {m : Moment} {o : Int} (hv : m.Valid) (ho : m.offset = some o) :
    o.natAbs < secondsPerDay := by
  have := hv.1
  rwa [ho] at this

/-- The parts of a valid moment are well formed, if its offset has no seconds. -/
theorem formed_parts {m : Moment} {o : Int} (hv : m.Valid) (ho : m.offset = some o)
    (hmin : o % 60 = 0) : (m.parts o).Formed :=
  { base := (base_of_valid hv [] []).1
    fraction := fun _ hc => nomatch hc
    zone := (zone_of_offset hmin (natAbs_offset_lt hv ho) [] []).1 }

theorem toList_format {m : Moment} {o : Int} (ho : m.offset = some o) :
    m.format.toList = (m.parts o).chars := by
  unfold format chars
  rw [String.toList_ofList, ho]
  simp [Parts.chars, parts, base, Parts.fractionChars]

/-- What is written is taken apart into the same parts. -/
theorem scan?_format {m : Moment} {o : Int} (hv : m.Valid) (ho : m.offset = some o)
    (hmin : o % 60 = 0) : Parts.scan? m.format.toList = some (m.parts o) := by
  have hf := formed_parts hv ho hmin
  have hchars : (m.parts o).chars = m.base ++ offsetText o := by
    simp [Parts.chars, parts, Parts.fractionChars]
  rw [toList_format ho, hchars]
  exact Parts.scan?_append hf.base hf.zone

/-- The fields of what is written are those of the moment, but for the fraction. -/
theorem fields_parts {m : Moment} {o : Int} (hv : m.Valid) (ho : m.offset = some o)
    (hmin : o % 60 = 0) : (m.parts o).fields = { m with microsecond := 0 }.fields := by
  obtain ⟨-, -, -, hnumbers⟩ := base_of_valid hv [] (offsetText o)
  obtain ⟨-, -, -, hoffset⟩ := zone_of_offset hmin (natAbs_offset_lt hv ho) m.base []
  simp only [numbers, List.cons.injEq, and_true] at hnumbers
  obtain ⟨h1, h2, h3, h4, h5, h6⟩ := hnumbers
  have hyear : ((m.date.year.toNat : Nat) : Int) = m.date.year := by
    have := hv.2.1
    simp only [yearInRange, Bool.and_eq_true, decide_eq_true_eq] at this
    omega
  unfold Parts.fields parts fields
  rw [h1, h2, h3, h4, h5, h6, hoffset, hyear, ho]
  rfl

/-- What is written is in ASCII. -/
theorem plain_parts {m : Moment} {o : Int} (hv : m.Valid) (ho : m.offset = some o)
    (hmin : o % 60 = 0) : (m.parts o).plain.all (·.toNat < 0x80) = true := by
  obtain ⟨-, hbase, -, -⟩ := base_of_valid hv [] []
  obtain ⟨-, -, hzone, -⟩ := zone_of_offset hmin (natAbs_offset_lt hv ho) [] []
  rw [List.all_eq_true]
  intro c hc
  rw [decide_eq_true_eq]
  simp only [Parts.plain, List.mem_append, List.mem_map] at hc
  rcases hc with (⟨d, hd, rfl⟩ | hc) | hc
  · rw [if_neg (hbase d hd).2]
    exact (hbase d hd).1
  · cases hc
  · split at hc
    · have hall : ∀ c ∈ "+00:00".toList, c.toNat < 0x80 := forall_mem_of_all (by decide)
      exact hall c hc
    · exact hzone c hc

end Moment

/-- What is written of a moment reads back as the moment, without its fraction of a second. -/
theorem parseRfc3339_format {m : Moment} (h : m.Readable) :
    parseRfc3339 m.format = .ok { m with microsecond := 0 } := by
  obtain ⟨hv, o, ho, hmin⟩ := h
  have hv0 : Moment.Valid { m with microsecond := 0 } := by
    obtain ⟨h1, h2, h3, h4, h5, h6, -⟩ := hv
    exact ⟨h1, h2, h3, h4, h5, h6, Nat.zero_le _⟩
  have hmoment : (m.parts o).fields.moment = .ok { m with microsecond := 0 } :=
    (Moment.moment_eq_ok_iff _ _).mpr ⟨Moment.fields_parts hv ho hmin, hv0⟩
  unfold parseRfc3339
  simp only [Moment.scan?_format hv ho hmin, if_pos (Moment.plain_parts hv ho hmin), hmoment]

/-- What is written of a moment goes on the wire unchanged. -/
theorem isSyslogTimestamp_format {m : Moment} (h : m.Readable) :
    isSyslogTimestamp m.format = true := by
  have hread : isRfc3339 m.format = true := by
    unfold isRfc3339
    rw [parseRfc3339_format h]
    rfl
  obtain ⟨hv, o, ho, hmin⟩ := h
  obtain ⟨-, -, htee, -⟩ := Moment.base_of_valid hv [] []
  obtain ⟨-, hzone, -, -⟩ := Moment.zone_of_offset hmin (Moment.natAbs_offset_lt hv ho) [] []
  unfold isSyslogTimestamp
  simp only [Moment.scan?_format hv ho hmin, hread, Bool.and_true]
  simp [Parts.isNarrow, Moment.parts, htee, hzone]

/-- A written moment stands on one line. -/
theorem hasLineBreak_format {m : Moment} (h : m.Readable) : hasLineBreak m.format = false := by
  obtain ⟨hv, o, ho, hmin⟩ := h
  unfold hasLineBreak
  rw [Moment.toList_format ho]
  exact any_isLineBreak_of_isBlank (Moment.formed_parts hv ho hmin).isBlank_eq_false

end Logwire.Time
