/-!
# Logwire.Text.Blank

Blank characters and trimming.

Two classes are in use.  `isWhiteSpace` is the Unicode property White_Space;
numerals and port numbers may be surrounded by it.  `isBlank` adds the four
information separators U+001C to U+001F; header fields of a log line end at
such a character and host names are trimmed of them.

* `exists_trimEnd_append`, `trimEnd_append_of_forall` — trimming the end drops characters of the
  class and keeps a last one outside it, and this tells what is trimmed.
-/

namespace Logwire.Text

/-- Membership of a character in a table of closed code point ranges. -/
def inRanges (table : List (Nat × Nat)) (c : Char) : Bool :=
  table.any fun range => range.1 ≤ c.toNat && c.toNat ≤ range.2

/-! ## Classes -/

/-- The code points with the Unicode property White_Space. -/
def whiteSpace : List (Nat × Nat) :=
  [(0x09, 0x0d), (0x20, 0x20), (0x85, 0x85), (0xa0, 0xa0), (0x1680, 0x1680), (0x2000, 0x200a),
   (0x2028, 0x2029), (0x202f, 0x202f), (0x205f, 0x205f), (0x3000, 0x3000)]

/-- White space in the sense of the Unicode property. -/
def isWhiteSpace (c : Char) : Bool := inRanges whiteSpace c

/-- White space or an information separator. -/
def isBlank (c : Char) : Bool := isWhiteSpace c || (0x1c ≤ c.toNat && c.toNat ≤ 0x1f)

/-- A carriage return or a line feed. -/
def isLineBreak (c : Char) : Bool := c == '\r' || c == '\n'

theorem eq_of_isLineBreak {c : Char} (h : isLineBreak c = true) : c = '\r' ∨ c = '\n' := by
  simpa [isLineBreak] using h

/-- A text that spans more than one line. -/
def hasLineBreak (s : String) : Bool := s.toList.any isLineBreak

/-- What holds of each character of a text when they are checked one by one. -/
theorem forall_mem_of_all {P : Char → Prop} [DecidablePred P] {s : List Char}
    (h : s.all (fun c => decide (P c)) = true) : ∀ c ∈ s, P c := by
  simpa using h

/-! ## Trimming -/

/-- The text without its longest ending of characters in the class. -/
def trimEnd (p : Char → Bool) (s : List Char) : List Char := (s.reverse.dropWhile p).reverse

/-- The text without its longest beginning and ending of characters in the class. -/
def trim (p : Char → Bool) (s : List Char) : List Char := trimEnd p (s.dropWhile p)

/-- What is trimmed lies in the class, and the last character that is kept does not. -/
theorem exists_trimEnd_append (p : Char → Bool) (s : List Char) :
    ∃ t, s = trimEnd p s ++ t ∧ (∀ c ∈ t, p c = true) ∧
      ∀ c ∈ (trimEnd p s).getLast?, p c = false := by
  refine ⟨(s.reverse.takeWhile p).reverse, ?_, fun c hc => ?_, fun c hc => ?_⟩
  · rw [trimEnd, ← List.reverse_append, List.takeWhile_append_dropWhile, List.reverse_reverse]
  · exact List.all_eq_true.mp (List.all_takeWhile) c (List.mem_reverse.mp hc)
  · rw [trimEnd, List.getLast?_reverse] at hc
    have := List.head?_dropWhile_not p s.reverse
    rw [Option.mem_def.mp hc] at this
    simpa using this

/-- A text is told from an ending that is trimmed by its last character. -/
theorem trimEnd_append_of_forall {p : Char → Bool} {s t : List Char} (ht : ∀ c ∈ t, p c = true)
    (hs : ∀ c ∈ s.getLast?, p c = false) : trimEnd p (s ++ t) = s := by
  have hdrop : s.reverse.dropWhile p = s.reverse := by
    cases hr : s.reverse with
    | nil => rfl
    | cons c r =>
      have hc : s.getLast? = some c := by rw [List.getLast?_eq_head?_reverse, hr]; rfl
      exact List.dropWhile_cons_of_neg (by simp [hs c hc])
  rw [trimEnd, List.reverse_append,
    List.dropWhile_append_of_pos fun c hc => ht c (List.mem_reverse.mp hc), hdrop,
    List.reverse_reverse]

/-- Without characters of the class there is nothing to drop. -/
theorem dropWhile_eq_self {p : Char → Bool} {s : List Char} (h : ∀ c ∈ s, p c = false) :
    s.dropWhile p = s := by
  cases s with
  | nil => rfl
  | cons c s => rw [List.dropWhile_cons_of_neg (by simp [h c])]

theorem trimEnd_eq_self {p : Char → Bool} {s : List Char} (h : ∀ c ∈ s, p c = false) :
    trimEnd p s = s := by
  unfold trimEnd
  rw [dropWhile_eq_self fun c hc => h c (List.mem_reverse.mp hc), List.reverse_reverse]

theorem trim_eq_self {p : Char → Bool} {s : List Char} (h : ∀ c ∈ s, p c = false) :
    trim p s = s := by
  unfold trim
  rw [dropWhile_eq_self h, trimEnd_eq_self h]

end Logwire.Text
