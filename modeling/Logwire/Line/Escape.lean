import Logwire.Text.Blank

/-!
# Logwire.Line.Escape

Texts inside a line.

A value of structured data stands between double quotes; a backslash goes in
front of each backslash, double quote and closing bracket in it.  In the whole
line a carriage return is written `#015` and a line feed `#012`.

* `scanValue_escape` — a value is read back whole, whatever follows its quote;
* `foldBreaks_noBreak` — no line break is left.
-/

namespace Logwire.Line

open Text

/-! ## Values between quotes -/

/-- The characters of a value that are escaped. -/
def isSpecial (c : Char) : Bool := c == '"' || c == '\\' || c == ']'

def escapeChar (c : Char) : List Char := if isSpecial c then ['\\', c] else [c]

/-- A value, as it stands between its quotes. -/
def escape (s : List Char) : List Char := s.flatMap escapeChar

/-- Reads a value up to and over its closing quote; none when there is no closing quote.  A
backslash in front of a character that needs none stands for itself. -/
def scanValue : List Char → Option (List Char × List Char)
  | [] => none
  | '"' :: r => some ([], r)
  | '\\' :: c :: r =>
    if isSpecial c then
      match scanValue r with
      | some (v, rest) => some (c :: v, rest)
      | none => none
    else
      match scanValue (c :: r) with
      | some (v, rest) => some ('\\' :: v, rest)
      | none => none
  | c :: r =>
    match scanValue r with
    | some (v, rest) => some (c :: v, rest)
    | none => none

/-- An escaped character is read as itself. -/
theorem scanValue_escapeChar (c : Char) (s : List Char) :
    scanValue (escapeChar c ++ s) = (scanValue s).map fun p => (c :: p.1, p.2) := by
  unfold escapeChar
  by_cases hc : isSpecial c = true
  · simp only [hc, if_true, List.cons_append, List.nil_append, scanValue]
    cases scanValue s <;> rfl
  · have hq : c ≠ '"' := by rintro rfl; exact hc rfl
    have hb : c ≠ '\\' := by rintro rfl; exact hc rfl
    simp only [hc, Bool.false_eq_true, if_false, List.cons_append, List.nil_append]
    rw [scanValue.eq_4 c s hq (fun _ _ h _ => hb h)]
    cases scanValue s <;> rfl

/-- A value is read back whole and reading stops at the quote behind it. -/
theorem scanValue_escape (v rest : List Char) :
    scanValue (escape v ++ '"' :: rest) = some (v, rest) := by
  induction v with
  | nil => rfl
  | cons c v ih =>
    have h : escape (c :: v) = escapeChar c ++ escape v := by simp [escape]
    rw [h, List.append_assoc, scanValue_escapeChar, ih]
    rfl

/-- Reading a value consumes at least its closing quote. -/
theorem length_lt_of_scanValue {s v r : List Char} (h : scanValue s = some (v, r)) :
    r.length < s.length := by
  fun_induction scanValue s generalizing v r <;> simp_all <;> omega

/-! ## Line breaks -/

def foldChar (c : Char) : List Char :=
  if c = '\r' then "#015".toList else if c = '\n' then "#012".toList else [c]

/-- A text without its line breaks. -/
def foldBreaks (s : List Char) : List Char := s.flatMap foldChar

@[simp] theorem foldBreaks_append (s t : List Char) :
    foldBreaks (s ++ t) = foldBreaks s ++ foldBreaks t := by
  simp [foldBreaks]

/-- What a character is folded to holds no line break. -/
theorem isLineBreak_of_mem_foldChar {c d : Char} (h : d ∈ foldChar c) : isLineBreak d = false := by
  unfold foldChar at h
  split at h
  · rw [show "#015".toList = ['#', '0', '1', '5'] from rfl] at h
    simp only [List.mem_cons, List.not_mem_nil, or_false] at h
    rcases h with rfl | rfl | rfl | rfl <;> rfl
  · split at h
    · rw [show "#012".toList = ['#', '0', '1', '2'] from rfl] at h
      simp only [List.mem_cons, List.not_mem_nil, or_false] at h
      rcases h with rfl | rfl | rfl | rfl <;> rfl
    · rename_i hr hn
      rw [List.mem_singleton] at h
      subst h
      simp [isLineBreak, hr, hn]

/-- No line break is left. -/
theorem foldBreaks_noBreak (s : List Char) : (foldBreaks s).any isLineBreak = false := by
  rw [List.any_eq_false]
  intro d hd
  obtain ⟨c, -, hc⟩ := List.mem_flatMap.mp hd
  simp [isLineBreak_of_mem_foldChar hc]

/-- A text on one line stays as it is. -/
theorem foldBreaks_of_noBreak {s : List Char} (h : s.any isLineBreak = false) :
    foldBreaks s = s := by
  induction s with
  | nil => rfl
  | cons c s ih =>
    rw [List.any_cons, Bool.or_eq_false_iff] at h
    have hr : c ≠ '\r' := by rintro rfl; exact absurd h.1 (by decide)
    have hn : c ≠ '\n' := by rintro rfl; exact absurd h.1 (by decide)
    have := ih h.2
    simp only [foldBreaks] at this
    simp [foldBreaks, foldChar, hr, hn, this]

end Logwire.Line
