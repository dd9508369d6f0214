import Logwire.Json.Reader
import Logwire.Json.Writer
import Mathlib.Tactic.SplitIfs

/-!
# Logwire.Proofs.Json.Strings

Strings in JSON text read back.

A character is written as itself or as an escape, and an escape is read as its
character (`escapeChar_cases`).  So a string is read up to the quote that closes
it, whatever its characters are (`readChars_writeText`), although everything
that is written is printable ASCII (`isPlain_of_mem_writeText`).
-/

namespace Logwire.Json

open Text (hexDigit hexFixed)

/-! ## Code units -/

/-- A hexadecimal digit has the value it was written for. -/
theorem hexValue?_hexDigit (n : Nat) : hexValue? (hexDigit n) = some (n % 16) := by
  have htable : ∀ k < 16, hexValue? ("0123456789abcdef".toList.getD k '0') = some k := by decide
  exact htable (n % 16) (Nat.mod_lt n (by decide))

theorem hexFixed_four (n : Nat) : hexFixed 4 n =
    [hexDigit (n / 16 / 16 / 16), hexDigit (n / 16 / 16), hexDigit (n / 16), hexDigit n] := rfl

/-- Four digits are read as the code unit, if the text goes on. -/
theorem unit?_hexFixed {n : Nat} (hn : n < 0x10000) {t : List Char} (ht : t ≠ []) :
    unit? (hexFixed 4 n ++ t) = some (n, t) := by
  obtain ⟨c, t, rfl⟩ := List.exists_cons_of_ne_nil ht
  have hvalue : ((n / 16 / 16 / 16 % 16 * 16 + n / 16 / 16 % 16) * 16 + n / 16 % 16) * 16 + n % 16
      = n := by omega
  simp only [hexFixed_four, List.cons_append, List.nil_append, unit?, hexValue?_hexDigit, hvalue]

/-- No character is a surrogate. -/
theorem toNat_not_surrogate (c : Char) : ¬ (0xd800 ≤ c.toNat ∧ c.toNat ≤ 0xdfff) := by
  have := c.valid
  simp only [UInt32.isValidChar, Nat.isValidChar] at this
  have hval : c.toNat = c.val.toNat := rfl
  omega

/-- A character of the basic plane is read from its code unit. -/
theorem readUnits_hexFixed {c : Char} (hc : c.toNat < 0x10000) {t : List Char} (ht : t ≠ []) :
    readUnits (hexFixed 4 c.toNat ++ t) = .ok (c, t) := by
  have hsurrogate := toNat_not_surrogate c
  have hchar : unitChar c.toNat = c := by
    rw [unitChar, if_neg hsurrogate, Char.ofNat_toNat]
  unfold readUnits
  rw [unit?_hexFixed hc ht]
  simp only
  rw [if_neg (by omega), hchar]

/-- A second code unit is read as such. -/
theorem lowUnit?_unitEscape {n : Nat} (hlow : 0xdc00 ≤ n) (hhigh : n ≤ 0xdfff) {t : List Char}
    (ht : t ≠ []) : lowUnit? (unitEscape n ++ t) = .ok (some (n, t)) := by
  have hlength : ¬ (hexFixed 4 n ++ t).length < 5 := by
    have := List.length_pos_iff.mpr ht
    rw [List.length_append, Text.length_hexFixed]
    omega
  unfold unitEscape lowUnit?
  simp only [List.cons_append, if_neg hlength, unit?_hexFixed (show n < 0x10000 by omega) ht]
  rw [if_pos ⟨hlow, hhigh⟩]

/-- Two code units of a surrogate pair are read together. -/
theorem readUnits_surrogates {high low : Nat} (hh : 0xd800 ≤ high ∧ high ≤ 0xdbff)
    (hl : 0xdc00 ≤ low ∧ low ≤ 0xdfff) {t : List Char} (ht : t ≠ []) :
    readUnits (hexFixed 4 high ++ (unitEscape low ++ t)) = .ok (pairChar high low, t) := by
  have hne : unitEscape low ++ t ≠ [] := List.append_ne_nil_of_right_ne_nil _ ht
  unfold readUnits
  rw [unit?_hexFixed (by omega) hne]
  simp only [if_pos hh, lowUnit?_unitEscape hl.1 hl.2 ht]

/-- A character beyond the basic plane is that of its surrogate pair. -/
theorem pairChar_toNat {c : Char} (hc : ¬ c.toNat < 0x10000) :
    pairChar (0xd800 + (c.toNat - 0x10000) / 0x400) (0xdc00 + (c.toNat - 0x10000) % 0x400) = c := by
  have hsum : 0x10000 + (0xd800 + (c.toNat - 0x10000) / 0x400 - 0xd800) * 0x400 +
      (0xdc00 + (c.toNat - 0x10000) % 0x400 - 0xdc00) = c.toNat := by omega
  rw [pairChar, hsum, Char.ofNat_toNat]

/-- A character beyond the basic plane is read from its two code units. -/
theorem readUnits_pair {c : Char} (hc : ¬ c.toNat < 0x10000) {t : List Char} (ht : t ≠ []) :
    readUnits (hexFixed 4 (0xd800 + (c.toNat - 0x10000) / 0x400) ++
      (unitEscape (0xdc00 + (c.toNat - 0x10000) % 0x400) ++ t)) = .ok (c, t) := by
  have hlt : c.toNat < 0x110000 := by
    have := c.valid
    simp only [UInt32.isValidChar, Nat.isValidChar] at this
    have hval : c.toNat = c.val.toNat := rfl
    omega
  rw [readUnits_surrogates (by omega) (by omega) ht, pairChar_toNat hc]

/-! ## Characters -/

/-- A character that is printed in ASCII. -/
def isPlain (c : Char) : Bool := 0x20 ≤ c.toNat && c.toNat ≤ 0x7e

/-- The plain characters are those of printable ASCII. -/
theorem isPlain_iff {c : Char} : isPlain c = true ↔ 0x20 ≤ c.toNat ∧ c.toNat ≤ 0x7e := by
  simp only [isPlain, Bool.and_eq_true, decide_eq_true_eq]

/-- A character is written as itself, or as an escape that is read as the character. -/
theorem escapeChar_cases (c : Char) :
    (escapeChar c = [c] ∧ c ≠ '"' ∧ c ≠ '\\' ∧ ¬ c.toNat ≤ 0x1f) ∨
      ∃ e, escapeChar c = '\\' :: e ∧
        ∀ start t, t ≠ [] → readEscape start (e ++ t) = .ok (c, t) := by
  unfold escapeChar
  split_ifs with hquote hslash hn hr ht hb hf hplain
  · exact .inr ⟨_, rfl, fun _ _ _ => by rw [hquote]; rfl⟩
  · exact .inr ⟨_, rfl, fun _ _ _ => by rw [hslash]; rfl⟩
  · exact .inr ⟨_, rfl, fun _ _ _ => by rw [hn]; rfl⟩
  · exact .inr ⟨_, rfl, fun _ _ _ => by rw [hr]; rfl⟩
  · exact .inr ⟨_, rfl, fun _ _ _ => by rw [ht]; rfl⟩
  · exact .inr ⟨_, rfl, fun _ _ _ => by rw [hb]; rfl⟩
  · exact .inr ⟨_, rfl, fun _ _ _ => by rw [hf]; rfl⟩
  · exact .inl ⟨rfl, hquote, hslash, by omega⟩
  · right
    unfold unicodeEscape
    split
    case isTrue hbasic => exact ⟨_, rfl, fun _ t ht => readUnits_hexFixed hbasic ht⟩
    case isFalse hbeyond =>
      refine ⟨_, rfl, fun _ t ht => ?_⟩
      simpa [readEscape] using readUnits_pair hbeyond ht

/-- What is written of a character is read as the character, if the text goes on. -/
theorem readChars_escapeChar (start : Nat) (c : Char) {t : List Char} (ht : t ≠ []) :
    readChars start (escapeChar c ++ t) =
      (readChars start t).map fun p => (c :: p.1, p.2) := by
  rcases escapeChar_cases c with ⟨hc, hquote, hslash, hplain⟩ | ⟨e, he, hread⟩
  · rw [hc, List.singleton_append, readChars, if_neg hquote, if_neg hslash, if_neg hplain]
    cases readChars start t <;> rfl
  · rw [he, List.cons_append, readChars, if_neg (by decide), if_pos rfl]
    have hescape := hread start t ht
    split
    case h_1 e' heq =>
      rw [hescape] at heq
      contradiction
    case h_2 c' t' heq =>
      rw [hescape] at heq
      obtain ⟨rfl, rfl⟩ := Prod.mk.inj (Except.ok.inj heq)
      cases readChars start t <;> rfl

/-- A string is read up to its closing quote. -/
theorem readChars_escaped (start : Nat) (s rest : List Char) :
    readChars start (s.flatMap escapeChar ++ '"' :: rest) = .ok (s, rest) := by
  induction s with
  | nil =>
    rw [List.flatMap_nil, List.nil_append, readChars, if_pos rfl]
  | cons c s ih =>
    rw [List.flatMap_cons, List.append_assoc, readChars_escapeChar start c (by simp), ih]
    rfl

/-! ## What is written -/

theorem isPlain_hexDigit (n : Nat) : isPlain (hexDigit n) = true := by
  have htable : ∀ k < 16, isPlain ("0123456789abcdef".toList.getD k '0') = true := by decide
  exact htable (n % 16) (Nat.mod_lt n (by decide))

theorem isPlain_of_mem_unitEscape {n : Nat} {c : Char} (h : c ∈ unitEscape n) :
    isPlain c = true := by
  rw [unitEscape, hexFixed_four] at h
  simp only [List.mem_cons, List.not_mem_nil, or_false] at h
  rcases h with rfl | rfl | rfl | rfl | rfl | rfl
  all_goals first | rfl | exact isPlain_hexDigit _

/-- An escape is plain, whatever character it stands for. -/
theorem isPlain_of_mem_unicodeEscape {c x : Char} (h : x ∈ unicodeEscape c) :
    isPlain x = true := by
  unfold unicodeEscape at h
  split at h
  case isTrue => exact isPlain_of_mem_unitEscape h
  case isFalse =>
    rcases List.mem_append.mp h with h | h
    · exact isPlain_of_mem_unitEscape h
    · exact isPlain_of_mem_unitEscape h

/-- Every character is written in printable ASCII. -/
theorem isPlain_of_mem_escapeChar {c x : Char} (h : x ∈ escapeChar c) : isPlain x = true := by
  have hshort : ∀ y : Char, isPlain y = true → x ∈ ['\\', y] → isPlain x = true := by
    intro y hy hx
    simp only [List.mem_cons, List.not_mem_nil, or_false] at hx
    rcases hx with rfl | rfl
    · rfl
    · exact hy
  unfold escapeChar at h
  split_ifs at h with hquote hslash hn hr ht hb hf hplain
  · exact hshort '"' rfl h
  · exact hshort '\\' rfl h
  · exact hshort 'n' rfl h
  · exact hshort 'r' rfl h
  · exact hshort 't' rfl h
  · exact hshort 'b' rfl h
  · exact hshort 'f' rfl h
  · rw [List.mem_singleton.mp h]
    exact isPlain_iff.mpr hplain
  · exact isPlain_of_mem_unicodeEscape h

/-- A string is written in plain characters. -/
theorem isPlain_of_mem_writeText {s : List Char} {x : Char} (h : x ∈ writeText s) :
    isPlain x = true := by
  simp only [writeText, List.mem_append, List.mem_cons, List.mem_flatMap, List.not_mem_nil,
    or_false] at h
  rcases h with (rfl | ⟨c, -, hx⟩) | rfl
  · rfl
  · exact isPlain_of_mem_escapeChar hx
  · rfl

end Logwire.Json
