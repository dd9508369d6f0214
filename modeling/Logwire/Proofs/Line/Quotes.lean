import Logwire.Line.Escape
import Mathlib.Data.List.DropRight

/-!
# Logwire.Proofs.Line.Quotes

Where a value ends.

A double quote is escaped if an odd number of backslashes stands right in front
of it.  The first one that is not ends the value, and the value is what stands
before it with the escapes undone: `scanValue_eq_some_iff` for the rest of a
text, `scanValueAt_eq_some_iff` for a text and a position.

Escaping replaces the backslashes, then the quotes, then the brackets
(`escape_eq_replacements`).  It leaves no quote that ends the value.
-/

namespace Logwire.Line

/-! ## Replacements -/

/-- A text with another one in the place of each character of one kind. -/
def replaceChar (c : Char) (new s : List Char) : List Char :=
  s.flatMap fun d => if d = c then new else [d]

theorem replaceChar_append (c : Char) (new s t : List Char) :
    replaceChar c new (s ++ t) = replaceChar c new s ++ replaceChar c new t :=
  List.flatMap_append

theorem replaceChar_cons (c : Char) (new : List Char) (d : Char) (s : List Char) :
    replaceChar c new (d :: s) = replaceChar c new [d] ++ replaceChar c new s :=
  replaceChar_append c new [d] s

/-- Backslashes come first, so that those in front of quotes and brackets stay single. -/
theorem escape_eq_replacements (s : List Char) :
    escape s =
      replaceChar ']' ['\\', ']']
        (replaceChar '"' ['\\', '"'] (replaceChar '\\' ['\\', '\\'] s)) := by
  induction s with
  | nil => rfl
  | cons c s ih =>
    have hchar : escapeChar c = replaceChar ']' ['\\', ']']
        (replaceChar '"' ['\\', '"'] (replaceChar '\\' ['\\', '\\'] [c])) := by
      by_cases hb : c = '\\'
      · subst hb; rfl
      by_cases hq : c = '"'
      · subst hq; rfl
      by_cases hr : c = ']'
      · subst hr; rfl
      simp [escapeChar, isSpecial, replaceChar, hb, hq, hr]
    rw [replaceChar_cons, replaceChar_append, replaceChar_append, ← ih, ← hchar]
    rfl

/-! ## Escaped quotes -/

/-- Whether a quote behind a text is escaped: the backslashes at the end of the text are odd in
number. -/
def Escaped (front : List Char) : Prop := (front.rtakeWhile (· = '\\')).length % 2 = 1

instance : DecidablePred Escaped := fun _ => inferInstanceAs (Decidable (_ = _))

theorem not_escaped_nil : ¬ Escaped [] := by decide

/-- A backslash begins a pair unless it ends one. -/
theorem escaped_backslash (front : List Char) : Escaped (front ++ ['\\']) ↔ ¬ Escaped front := by
  rw [Escaped, List.rtakeWhile_concat_pos _ _ _ (by simp), List.length_append, Escaped]
  simp only [List.length_singleton]
  omega

/-- Only a backslash escapes. -/
theorem not_escaped_concat {c : Char} (hc : c ≠ '\\') (front : List Char) :
    ¬ Escaped (front ++ [c]) := by
  rw [Escaped, List.rtakeWhile_concat_neg _ _ _ (by simpa using hc)]
  decide

/-- Of what stands in front only matters whether it escapes. -/
theorem escaped_append_congr {p q : List Char} (h : Escaped p ↔ Escaped q) (s : List Char) :
    Escaped (p ++ s) ↔ Escaped (q ++ s) := by
  induction s using List.reverseRecOn with
  | nil => simpa using h
  | append_singleton s c ih =>
    rw [← List.append_assoc, ← List.append_assoc]
    by_cases hc : c = '\\'
    · rw [hc, escaped_backslash, escaped_backslash, ih]
    · exact iff_of_false (not_escaped_concat hc _) (not_escaped_concat hc _)

/-- A character in front that is no backslash does not count. -/
theorem escaped_cons {c : Char} (hc : c ≠ '\\') (s : List Char) :
    Escaped (c :: s) ↔ Escaped s :=
  escaped_append_congr (p := [c]) (q := [])
    (iff_of_false (not_escaped_concat hc []) not_escaped_nil) s

/-- A backslash and what follows it leave nothing escaped behind them. -/
theorem escaped_pair (c : Char) (s : List Char) : Escaped ('\\' :: c :: s) ↔ Escaped s := by
  have hpair : ¬ Escaped ['\\', c] := by
    by_cases hc : c = '\\'
    · rw [hc]
      exact (escaped_backslash ['\\']).not.mpr
        (not_not.mpr ((escaped_backslash []).mpr not_escaped_nil))
    · exact not_escaped_concat hc ['\\']
  exact escaped_append_congr (p := ['\\', c]) (q := []) (iff_of_false hpair not_escaped_nil) s

/-- Each quote in a text is escaped. -/
def AllEscaped (s : List Char) : Prop := ∀ front back, s = front ++ '"' :: back → Escaped front

namespace AllEscaped

variable {c : Char} {r : List Char}

theorem head_ne (h : AllEscaped (c :: r)) : c ≠ '"' := by
  rintro rfl
  exact not_escaped_nil (h [] r rfl)

theorem tail (h : AllEscaped (c :: r)) (hc : c ≠ '\\') : AllEscaped r := fun front back e =>
  (escaped_cons hc front).mp (h (c :: front) back (by rw [e, List.cons_append]))

theorem behind_pair (h : AllEscaped ('\\' :: c :: r)) : AllEscaped r := fun front back e =>
  (escaped_pair c front).mp (h ('\\' :: c :: front) back (by rw [e]; rfl))

/-- A backslash in front of no special character might as well be missing. -/
theorem behind_single (h : AllEscaped ('\\' :: c :: r)) (hc : ¬ isSpecial c = true) :
    AllEscaped (c :: r) := by
  intro front back e
  cases front with
  | nil =>
    obtain ⟨rfl, -⟩ := List.cons.inj e
    exact absurd rfl hc
  | cons d front =>
    obtain ⟨rfl, rfl⟩ := List.cons.inj e
    have hd : c ≠ '\\' := by
      rintro rfl
      exact hc rfl
    exact (escaped_cons hd front).mpr (h.behind_pair front back rfl)

end AllEscaped

/-! ## Values -/

/-- A text with its escapes undone: the backslash is dropped in front of each special character. -/
def unescape : List Char → List Char
  | [] => []
  | '\\' :: c :: r => if isSpecial c then c :: unescape r else '\\' :: unescape (c :: r)
  | c :: r => c :: unescape r

/-- The value in front of a quote that is not escaped while all quotes before it are. -/
theorem scanValue_of_allEscaped {body : List Char} (hall : AllEscaped body)
    (hclose : ¬ Escaped body) (rest : List Char) :
    scanValue (body ++ '"' :: rest) = some (unescape body, rest) := by
  fun_induction unescape body with
  | case1 => rfl
  | case2 c r hc ih =>
    have hr := ih hall.behind_pair ((escaped_pair c r).not.mp hclose)
    rw [List.cons_append, List.cons_append, scanValue, if_pos hc, hr]
  | case3 c r hc ih =>
    have hb : c ≠ '\\' := by
      rintro rfl
      exact hc rfl
    have hr := ih (hall.behind_single hc)
      (((escaped_pair c r).trans (escaped_cons hb r).symm).not.mp hclose)
    rw [List.cons_append] at hr
    rw [List.cons_append, List.cons_append, scanValue, if_neg hc, hr]
  | case4 c r hb ih =>
    -- a backslash at the end would escape the closing quote
    have hne : c ≠ '\\' := by
      rintro rfl
      cases r with
      | nil => exact hclose ((escaped_backslash []).mpr not_escaped_nil)
      | cons d t => exact hb d t rfl rfl
    have hr := ih (hall.tail hne) ((escaped_cons hne r).not.mp hclose)
    rw [List.cons_append, scanValue.eq_4 c _ hall.head_ne fun _ _ e _ => hne e, hr]

/-- Without a quote that is not escaped there is no value. -/
theorem scanValue_eq_none {s : List Char} (h : AllEscaped s) : scanValue s = none := by
  fun_induction scanValue s with
  | case1 => rfl
  | case2 r => exact absurd rfl h.head_ne
  | case3 c r hc v rest hr ih =>
    rw [ih h.behind_pair] at hr
    contradiction
  | case4 => rfl
  | case5 c r hc v rest hr ih =>
    rw [ih (h.behind_single hc)] at hr
    contradiction
  | case6 => rfl
  | case7 c r hq hb v rest hr ih =>
    have hne : c ≠ '\\' := by
      rintro rfl
      cases r with
      | nil => contradiction
      | cons d t => exact hb d t rfl rfl
    rw [ih (h.tail hne)] at hr
    contradiction
  | case8 => rfl

/-- A text has a first quote that is not escaped, or none at all. -/
theorem allEscaped_or (s : List Char) :
    AllEscaped s ∨ ∃ body rest, s = body ++ '"' :: rest ∧ AllEscaped body ∧ ¬ Escaped body := by
  induction s using List.reverseRecOn with
  | nil => exact .inl fun front back e => by simp at e
  | append_singleton s c ih =>
    rcases ih with hall | ⟨body, rest, rfl, hall, hclose⟩
    · by_cases hc : c = '"' ∧ ¬ Escaped s
      · exact .inr ⟨s, [], by rw [hc.1], hall, hc.2⟩
      · refine .inl fun front back e => ?_
        rcases List.eq_nil_or_concat' back with rfl | ⟨back, d, rfl⟩
        · obtain ⟨rfl, hq⟩ := List.append_inj' e rfl
          exact not_not.mp fun h => hc ⟨(List.cons.inj hq).1, h⟩
        · rw [← List.cons_append, ← List.append_assoc] at e
          exact hall front back (List.append_inj' e rfl).1
    · exact .inr ⟨body, rest ++ [c], by simp, hall, hclose⟩

/-- A value is what stands before the first quote that is not escaped. -/
theorem scanValue_eq_some_iff {s v rest : List Char} :
    scanValue s = some (v, rest) ↔ ∃ body, s = body ++ '"' :: rest ∧ AllEscaped body ∧
      ¬ Escaped body ∧ v = unescape body := by
  constructor
  · intro h
    rcases allEscaped_or s with hall | ⟨body, rest', rfl, hall, hclose⟩
    · rw [scanValue_eq_none hall] at h
      contradiction
    · rw [scanValue_of_allEscaped hall hclose] at h
      obtain ⟨rfl, rfl⟩ := Prod.mk.inj (Option.some.inj h)
      exact ⟨body, rfl, hall, hclose, rfl⟩
  · rintro ⟨body, rfl, hall, hclose, rfl⟩
    exact scanValue_of_allEscaped hall hclose rest

/-- There is no value exactly if each quote is escaped. -/
theorem scanValue_eq_none_iff {s : List Char} : scanValue s = none ↔ AllEscaped s := by
  refine ⟨fun h => ?_, scanValue_eq_none⟩
  rcases allEscaped_or s with hall | ⟨body, rest, rfl, hall, hclose⟩
  · exact hall
  · rw [scanValue_of_allEscaped hall hclose] at h
    contradiction

/-- Escapes are undone exactly. -/
theorem unescape_escape (v : List Char) : unescape (escape v) = v := by
  obtain ⟨body, htext, -, -, hv⟩ := scanValue_eq_some_iff.mp (scanValue_escape v [])
  rw [List.append_cancel_right htext]
  exact hv.symm

/-! ## Positions -/

/-- The characters of a text from one position to before another. -/
def between (text : List Char) (start stop : Nat) : List Char :=
  (text.drop start).take (stop - start)

/-- Reads a value from a position of a text: the value, and the position behind its closing
quote. -/
def scanValueAt (text : List Char) (start : Nat) : Option (List Char × Nat) :=
  (scanValue (text.drop start)).map fun p => (p.1, text.length - p.2.length)

/-- The quote at a position ends the value that begins at another. -/
structure ClosesAt (text : List Char) (start stop : Nat) : Prop where
  le : start ≤ stop
  quote : text[stop]? = some '"'
  free : ¬ Escaped (between text start stop)
  first : ∀ i, start ≤ i → i < stop → text[i]? = some '"' → Escaped (between text start i)

/-- The same told by positions. -/
theorem allEscaped_iff {s : List Char} :
    AllEscaped s ↔ ∀ k, s[k]? = some '"' → Escaped (s.take k) := by
  constructor
  · intro h k hk
    obtain ⟨hlt, hc⟩ := List.getElem?_eq_some_iff.mp hk
    refine h (s.take k) (s.drop (k + 1)) ?_
    rw [← hc, List.getElem_cons_drop, List.take_append_drop]
  · rintro h front back rfl
    simpa using h front.length (by simp)

theorem between_add (text : List Char) (start n : Nat) :
    between text start (start + n) = (text.drop start).take n := by
  rw [between, Nat.add_sub_cancel_left]

/-- The quotes of a stretch, by their positions in the text. -/
theorem allEscaped_take_iff {text : List Char} {start n : Nat} :
    AllEscaped ((text.drop start).take n) ↔ ∀ i, start ≤ i → i < start + n →
      text[i]? = some '"' → Escaped (between text start i) := by
  rw [allEscaped_iff]
  constructor
  · intro h i hle hlt hq
    obtain ⟨k, rfl⟩ := Nat.exists_eq_add_of_le hle
    have hk : k < n := by omega
    have := h k (by rw [List.getElem?_take_of_lt hk, List.getElem?_drop, hq])
    rwa [List.take_take, Nat.min_eq_left hk.le, ← between_add] at this
  · intro h k hq
    by_cases hk : k < n
    · rw [List.getElem?_take_of_lt hk, List.getElem?_drop] at hq
      have := h (start + k) (Nat.le_add_right _ _) (by omega) hq
      rwa [List.take_take, Nat.min_eq_left hk.le, ← between_add]
    · rw [List.getElem?_take_eq_none (by omega)] at hq
      contradiction

/-- A value at a position ends at the first quote that is not escaped, and is what stands before it
with the escapes undone. -/
theorem scanValueAt_eq_some_iff {text v : List Char} {start behind : Nat} :
    scanValueAt text start = some (v, behind) ↔ ∃ stop, ClosesAt text start stop ∧
      behind = stop + 1 ∧ v = unescape (between text start stop) := by
  unfold scanValueAt
  rw [Option.map_eq_some_iff]
  constructor
  · rintro ⟨⟨value, rest⟩, hscan, he⟩
    obtain ⟨rfl, rfl⟩ := Prod.mk.inj he
    obtain ⟨body, htext, hall, hclose, rfl⟩ := scanValue_eq_some_iff.mp hscan
    have hbody : between text start (start + body.length) = body := by
      rw [between_add, htext, List.take_left' rfl]
    have hlength := congrArg List.length htext
    simp only [List.length_drop, List.length_append, List.length_cons] at hlength
    refine ⟨start + body.length, ⟨Nat.le_add_right _ _, ?_, hbody.symm ▸ hclose, ?_⟩, ?_,
      congrArg unescape hbody.symm⟩
    · rw [← List.getElem?_drop, htext]
      simp
    · refine allEscaped_take_iff.mp ?_
      rw [← between_add, hbody]
      exact hall
    · dsimp only
      omega
  · rintro ⟨stop, hstop, rfl, rfl⟩
    obtain ⟨n, rfl⟩ := Nat.exists_eq_add_of_le hstop.le
    obtain ⟨hlt, hc⟩ := List.getElem?_eq_some_iff.mp hstop.quote
    have htext : text.drop start = between text start (start + n) ++
        '"' :: text.drop (start + n + 1) := by
      rw [← hc, List.getElem_cons_drop, between_add, ← List.drop_drop, List.take_append_drop]
    have hall : AllEscaped (between text start (start + n)) := by
      rw [between_add]
      exact allEscaped_take_iff.mpr hstop.first
    refine ⟨_, scanValue_eq_some_iff.mpr ⟨_, htext, hall, hstop.free, rfl⟩, ?_⟩
    rw [List.length_drop]
    congr 1
    omega

/-- There is no value exactly if all quotes behind the position are escaped. -/
theorem scanValueAt_eq_none_iff {text : List Char} {start : Nat} :
    scanValueAt text start = none ↔
      ∀ i, start ≤ i → text[i]? = some '"' → Escaped (between text start i) := by
  rw [scanValueAt, Option.map_eq_none_iff, scanValue_eq_none_iff,
    ← List.take_length (l := text.drop start), allEscaped_take_iff, List.length_drop]
  constructor
  · intro h i hle hq
    have hlt := (List.getElem?_eq_some_iff.mp hq).1
    exact h i hle (by omega) hq
  · exact fun h i hle _ hq => h i hle hq

/-- An escaped value is read back at its position. -/
theorem scanValueAt_escape (before v after : List Char) :
    scanValueAt (before ++ escape v ++ '"' :: after) before.length =
      some (v, before.length + (escape v).length + 1) := by
  rw [scanValueAt, List.append_assoc, List.drop_left' rfl, scanValue_escape]
  simp only [Option.map_some, List.length_append, List.length_cons]
  congr 2
  omega

/-- **An escaped value stays between its quotes.**  Whatever stands around it, it is read back
whole, up to the quote that was written behind it.  In any text a value ends at the first quote
that is not escaped and is what stands before it with the escapes undone; without such a quote
there is none. -/
theorem stays_between_quotes :
    (∀ v, escape v = replaceChar ']' ['\\', ']']
      (replaceChar '"' ['\\', '"'] (replaceChar '\\' ['\\', '\\'] v))) ∧
    (∀ before v after, scanValueAt (before ++ escape v ++ '"' :: after) before.length =
      some (v, before.length + (escape v).length + 1)) ∧
    (∀ text start v behind, scanValueAt text start = some (v, behind) ↔
      ∃ stop, ClosesAt text start stop ∧ behind = stop + 1 ∧
        v = unescape (between text start stop)) ∧
    ∀ text start, scanValueAt text start = none ↔
      ∀ i, start ≤ i → text[i]? = some '"' → Escaped (between text start i) :=
  ⟨escape_eq_replacements, scanValueAt_escape, fun _ _ _ _ => scanValueAt_eq_some_iff,
    fun _ _ => scanValueAt_eq_none_iff⟩

/-- The value `]"\` between quotes, and then one that has no end. -/
def crowded : List Char :=
  ['=', '"', '\\', ']', '\\', '"', '\\', '\\', '"', ' ', 'A', '=', '"', '\\', '"']

theorem stays_between_quotes_crowded :
    escape [']', '"', '\\'] = ['\\', ']', '\\', '"', '\\', '\\'] ∧
      scanValueAt crowded 2 = some ([']', '"', '\\'], 9) ∧
      (∃ stop, ClosesAt crowded 2 stop ∧ 9 = stop + 1 ∧
        [']', '"', '\\'] = unescape (between crowded 2 stop)) ∧
      scanValueAt crowded 13 = none := by
  obtain ⟨hescape, hread, hplace, hnone⟩ := stays_between_quotes
  have hvalue : scanValueAt crowded 2 = some ([']', '"', '\\'], 9) :=
    hread ['=', '"'] [']', '"', '\\'] [' ', 'A', '=', '"', '\\', '"']
  refine ⟨hescape _, hvalue, (hplace _ _ _ _).mp hvalue, (hnone crowded 13).mpr ?_⟩
  intro i hle hq
  have hlt : i < 15 := (List.getElem?_eq_some_iff.mp hq).1
  obtain rfl | rfl : i = 13 ∨ i = 14 := by omega
  · contradiction
  · decide

end Logwire.Line
