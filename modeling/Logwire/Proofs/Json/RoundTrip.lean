import Logwire.Proofs.Json.Numbers
import Logwire.Proofs.Json.Strings

/-!
# Logwire.Proofs.Json.RoundTrip

JSON values read back from their text.

A value is read back as it was if it is proper: its integers have no more digits
than a text may have, and the names of each of its objects are distinct.  The
reader needs room for as many arrays and objects as lie within each other
(`depth`).

The readers are followed from the inside out: words and numbers, strings, names,
separators, and then values, items and members together, by induction on the
value.  Each law allows any text behind, up to what could go on a number.
-/

namespace Logwire.Json

open Number

/-! ## Proper values -/

mutual

/-- Whether the integers of a value are writable and the names of its objects distinct. -/
def isProper : Json → Bool
  | .int i => isWritable i
  | .arr items => areProper items
  | .obj ms => decide (Members.names ms).Nodup && haveProper ms
  | _ => true

/-- The same for all items. -/
def areProper : List Json → Bool
  | [] => true
  | v :: rest => isProper v && areProper rest

/-- The same for the values of all members. -/
def haveProper : List (String × Json) → Bool
  | [] => true
  | (_, v) :: rest => isProper v && haveProper rest

end

mutual

/-- How many arrays and objects lie within each other. -/
def depth : Json → Nat
  | .arr items => itemsDepth items + 1
  | .obj ms => membersDepth ms + 1
  | _ => 0

def itemsDepth : List Json → Nat
  | [] => 0
  | v :: rest => max (depth v) (itemsDepth rest)

/-- The greatest depth of a member's value. -/
def membersDepth : List (String × Json) → Nat
  | [] => 0
  | (_, v) :: rest => max (depth v) (membersDepth rest)

end

/-! ## Words and numbers -/

/-- A reader gives a result and leaves the rest of its text. -/
def Gives {α : Type} {s : List Char} (outcome : Except ReadFault (α × Rest s)) (a : α)
    (rest : List Char) : Prop := ∃ h, outcome = .ok (a, ⟨rest, h⟩)

/-- A number is no word. -/
theorem readWord_of_isDigit (negative : Bool) {c : Char} (s : List Char) (hc : c.isDigit = true) :
    readWord words (minus negative ++ c :: s) = none := by
  have hne : ∀ x : Char, x.isDigit = false → x ≠ c := fun x hx => (ne_of_isDigit hc hx).symm
  cases negative with
  | false =>
    simp [minus, words, readWord, after?, hne 'n' rfl, hne 't' rfl, hne 'f' rfl, hne 'N' rfl,
      hne 'I' rfl, hne '-' rfl]
  | true => simp [minus, words, readWord, after?, hne 'I' rfl]

theorem readScalar_of_readWord {s rest : List Char} {v : Json}
    (h : readWord words s = some (v, rest)) : Gives (readScalar s) v rest := by
  refine ⟨length_lt_of_readWord words_ne_nil h, ?_⟩
  unfold readScalar
  split
  case h_1 v' r' heq =>
    rw [h] at heq
    obtain ⟨rfl, rfl⟩ := Prod.mk.inj (Option.some.inj heq)
    rfl
  case h_2 heq =>
    rw [h] at heq
    contradiction

theorem readScalar_of_readNumber {s rest : List Char} {v : Json} (hw : readWord words s = none)
    (h : readNumber s = some (.ok v, rest)) :
    Gives (readScalar s) v rest := by
  refine ⟨length_lt_of_readNumber h, ?_⟩
  unfold readScalar
  split
  case h_1 heq =>
    rw [hw] at heq
    contradiction
  case h_2 =>
    split
    case h_1 heq =>
      rw [h] at heq
      contradiction
    case h_2 cause r heq =>
      rw [h] at heq
      exact absurd (Prod.mk.inj (Option.some.inj heq)).1 (by simp)
    case h_3 v' r heq =>
      rw [h] at heq
      obtain ⟨hv, rfl⟩ := Prod.mk.inj (Option.some.inj heq)
      obtain rfl := Except.ok.inj hv
      rfl

/-- A value that is read as a word or number is one that begins like neither string, array nor
object. -/
theorem readValue_of_readScalar {room : Nat} {c : Char} {s rest : List Char} {v : Json}
    (hc : c ≠ '"' ∧ c ≠ '[' ∧ c ≠ '{')
    (h : Gives (readScalar (c :: s)) v rest) :
    Gives (readValue room (c :: s)) v rest := by
  rw [readValue.eq_def]
  simp only [if_neg hc.1, if_neg hc.2.1, if_neg hc.2.2]
  exact h

/-- The value of a word. -/
theorem readValue_word {room : Nat} (word : List Char) (v : Json) (h : (word, v) ∈ words)
    (rest : List Char) : Gives (readValue room (word ++ rest)) v rest := by
  simp only [words, List.mem_cons, List.not_mem_nil, or_false, Prod.mk.injEq] at h
  rcases h with ⟨rfl, rfl⟩ | ⟨rfl, rfl⟩ | ⟨rfl, rfl⟩ | ⟨rfl, rfl⟩ | ⟨rfl, rfl⟩ | ⟨rfl, rfl⟩
  all_goals
    refine readValue_of_readScalar (by decide) (readScalar_of_readWord ?_)
    rfl

/-- The value of a number. -/
theorem readValue_number {room : Nat} {negative : Bool} {c : Char} {s rest : List Char} {v : Json}
    (hc : c.isDigit = true) (h : readNumber (minus negative ++ c :: s) = some (.ok v, rest)) :
    Gives (readValue room (minus negative ++ c :: s)) v rest := by
  have hscalar := readScalar_of_readNumber (readWord_of_isDigit negative s hc) h
  cases negative with
  | false =>
    exact readValue_of_readScalar
      ⟨ne_of_isDigit hc rfl, ne_of_isDigit hc rfl, ne_of_isDigit hc rfl⟩ hscalar
  | true => exact readValue_of_readScalar (by decide) hscalar

/-! ## Strings, names and separators -/

/-- A string is read back up to its closing quote. -/
theorem readText_escaped (s : String) (rest : List Char) :
    Gives (readText (s.toList.flatMap escapeChar ++ '"' :: rest)) s rest := by
  have h := readChars_escaped ((s.toList.flatMap escapeChar ++ '"' :: rest).length + 1) s.toList
    rest
  refine ⟨length_lt_of_readChars h, ?_⟩
  unfold readText
  split
  case h_1 heq =>
    rw [h] at heq
    contradiction
  case h_2 cs r heq =>
    rw [h] at heq
    obtain ⟨rfl, rfl⟩ := Prod.mk.inj (Except.ok.inj heq)
    rw [String.ofList_toList]

/-- A text that does not begin blank. -/
def BeginsSolid (s : List Char) : Prop := ∀ c ∈ s.head?, isSpace c = false

theorem beginsSolid_cons {c : Char} (s : List Char) (hc : isSpace c = false) :
    BeginsSolid (c :: s) := by
  intro x hx
  obtain rfl : c = x := Option.some.inj hx
  exact hc

theorem skip_of_beginsSolid {s : List Char} (h : BeginsSolid s) : skip s = s := by
  cases s with
  | nil => rfl
  | cons c s => exact List.dropWhile_cons_of_neg (by simp [h c rfl])

theorem readColon_space {s : List Char} (h : BeginsSolid s) :
    ∃ hlt, readColon (':' :: ' ' :: s) = .ok ⟨s, hlt⟩ := by
  have hskip : skip (' ' :: s) = s := skip_of_beginsSolid h
  refine ⟨by simp only [List.length_cons]; omega, ?_⟩
  unfold readColon
  split
  · next r heq =>
    obtain rfl : ' ' :: s = r := (List.cons.inj heq).2
    simp only [hskip]
  · next hne => exact absurd rfl (hne (' ' :: s))

/-- A name is read with its colon and the blank behind it. -/
theorem readName_writeText (name : String) {s : List Char} (h : BeginsSolid s) :
    Gives (readName (writeText name.toList ++ ':' :: ' ' :: s)) name s := by
  obtain ⟨htext, htextEq⟩ := readText_escaped name (':' :: ' ' :: s)
  obtain ⟨hcolon, hcolonEq⟩ := readColon_space h
  have hsplit : writeText name.toList ++ ':' :: ' ' :: s =
      '"' :: (name.toList.flatMap escapeChar ++ '"' :: ':' :: ' ' :: s) := by
    simp [writeText]
  rw [hsplit]
  unfold readName
  simp only [htextEq, hcolonEq]
  exact ⟨_, rfl⟩

theorem readSeparator_close {close : Char} (hc : isSpace close = false) (s : List Char) :
    Gives (readSeparator close (close :: s)) .last s := by
  have hskip : skip (close :: s) = close :: s := List.dropWhile_cons_of_neg (by simp [hc])
  refine ⟨by simp, ?_⟩
  unfold readSeparator
  split
  · next heq =>
    rw [hskip] at heq
    contradiction
  · next c r heq =>
    rw [hskip] at heq
    obtain ⟨rfl, rfl⟩ := List.cons.inj heq
    simp only [if_true]

theorem readSeparator_comma {close : Char} (hc : close ≠ ',') {s : List Char}
    (h : BeginsSolid s) : Gives (readSeparator close (',' :: ' ' :: s)) .next s := by
  have hskip : skip (' ' :: s) = s := skip_of_beginsSolid h
  refine ⟨by simp only [List.length_cons]; omega, ?_⟩
  unfold readSeparator
  split
  · next heq => exact absurd heq (by simp [skip, isSpace])
  · next c r heq =>
    obtain ⟨rfl, rfl⟩ := List.cons.inj (show ',' :: ' ' :: s = c :: r from heq)
    simp only [if_neg hc.symm, if_true, hskip]

/-! ## Arrays and objects -/

theorem readValue_str {room : Nat} (s : String) (rest : List Char) :
    Gives (readValue room (writeText s.toList ++ rest)) (.str s) rest := by
  obtain ⟨h, heq⟩ := readText_escaped s rest
  have hsplit : writeText s.toList ++ rest =
      '"' :: (s.toList.flatMap escapeChar ++ '"' :: rest) := by
    simp [writeText]
  rw [hsplit, readValue.eq_def]
  simp only [if_true, heq]
  exact ⟨_, rfl⟩

theorem readValue_emptyArray {room : Nat} (rest : List Char) :
    Gives (readValue (room + 1) ('[' :: ']' :: rest)) (.arr []) rest := by
  refine ⟨by simp only [List.length_cons]; omega, ?_⟩
  rw [readValue.eq_def]
  simp only [if_neg (show ¬ '[' = '"' by decide), if_true]
  split
  · next r heq =>
    obtain rfl : rest = r := (List.cons.inj heq).2
    rfl
  · next hne => exact absurd rfl (hne rest)

/-- An array is read back if its items are. -/
theorem readValue_array {room : Nat} {s rest : List Char} {items : List Json}
    (hs : BeginsSolid s) (hc : s.head? ≠ some ']') (h : Gives (readItems room s) items rest) :
    Gives (readValue (room + 1) ('[' :: s)) (.arr items) rest := by
  have hskip := skip_of_beginsSolid hs
  rw [← hskip] at h
  obtain ⟨hlt, heq⟩ := h
  rw [readValue.eq_def]
  simp only [if_neg (show ¬ '[' = '"' by decide), if_true]
  split
  · next r hclose =>
    rw [hskip] at hclose
    exact absurd (by rw [hclose]; rfl) hc
  · simp only [heq]
    exact ⟨_, rfl⟩

theorem readValue_emptyObject {room : Nat} (rest : List Char) :
    Gives (readValue (room + 1) ('{' :: '}' :: rest)) (.obj []) rest := by
  refine ⟨by simp only [List.length_cons]; omega, ?_⟩
  rw [readValue.eq_def]
  simp only [if_neg (show ¬ '{' = '"' by decide), if_neg (show ¬ '{' = '[' by decide), if_true]
  split
  · next r heq =>
    obtain rfl : rest = r := (List.cons.inj heq).2
    rfl
  · next hne => exact absurd rfl (hne rest)

/-- An object is read back if its members are. -/
theorem readValue_object {room : Nat} {s rest : List Char} {ms : List (String × Json)}
    (hs : BeginsSolid s) (hc : s.head? ≠ some '}') (h : Gives (readMembers room s []) ms rest) :
    Gives (readValue (room + 1) ('{' :: s)) (.obj ms) rest := by
  have hskip := skip_of_beginsSolid hs
  rw [← hskip] at h
  obtain ⟨hlt, heq⟩ := h
  rw [readValue.eq_def]
  simp only [if_neg (show ¬ '{' = '"' by decide), if_neg (show ¬ '{' = '[' by decide), if_true]
  split
  · next r hclose =>
    rw [hskip] at hclose
    exact absurd (by rw [hclose]; rfl) hc
  · simp only [heq]
    exact ⟨_, rfl⟩

/-- The last item of an array. -/
theorem readItems_last {room : Nat} {s rest : List Char} {v : Json}
    (h : Gives (readValue room s) v (']' :: rest)) : Gives (readItems room s) [v] rest := by
  obtain ⟨_, heq⟩ := h
  obtain ⟨_, hclose⟩ := readSeparator_close (show isSpace ']' = false by decide) rest
  rw [readItems]
  simp only [heq, hclose]
  exact ⟨_, rfl⟩

/-- An item with others behind it. -/
theorem readItems_next {room : Nat} {s t rest : List Char} {v : Json} {items : List Json}
    (ht : BeginsSolid t) (h : Gives (readValue room s) v (',' :: ' ' :: t))
    (hitems : Gives (readItems room t) items rest) :
    Gives (readItems room s) (v :: items) rest := by
  obtain ⟨_, heq⟩ := h
  obtain ⟨_, hcomma⟩ := readSeparator_comma (show ']' ≠ ',' by decide) ht
  obtain ⟨_, hitems⟩ := hitems
  rw [readItems]
  simp only [heq, hcomma, hitems]
  exact ⟨_, rfl⟩

/-- The last member of an object. -/
theorem readMembers_last {room : Nat} {s t rest : List Char} {name : String} {v : Json}
    {before : List (String × Json)} (hname : Gives (readName s) name t)
    (h : Gives (readValue room t) v ('}' :: rest)) :
    Gives (readMembers room s before) (Members.insert before name v) rest := by
  obtain ⟨_, hname⟩ := hname
  obtain ⟨_, heq⟩ := h
  obtain ⟨_, hclose⟩ := readSeparator_close (show isSpace '}' = false by decide) rest
  rw [readMembers]
  simp only [hname, heq, hclose]
  exact ⟨_, rfl⟩

/-- A member with others behind it. -/
theorem readMembers_next {room : Nat} {s t u rest : List Char} {name : String} {v : Json}
    {before all : List (String × Json)} (hname : Gives (readName s) name t)
    (h : Gives (readValue room t) v (',' :: ' ' :: u)) (hu : BeginsSolid u)
    (hall : Gives (readMembers room u (Members.insert before name v)) all rest) :
    Gives (readMembers room s before) all rest := by
  obtain ⟨_, hname⟩ := hname
  obtain ⟨_, heq⟩ := h
  obtain ⟨_, hcomma⟩ := readSeparator_comma (show '}' ≠ ',' by decide) hu
  obtain ⟨_, hall⟩ := hall
  rw [readMembers]
  simp only [hname, heq, hcomma, hall]
  exact ⟨_, rfl⟩

/-! ## Values -/

theorem writeNumber_finite (negative : Bool) (exponent : Fin 2047) (fraction : Fin (1 <<< 52)) :
    writeNumber (.finite negative exponent fraction) =
      minus negative ++ shortestText exponent fraction := by
  cases negative with
  | false => rfl
  | true => rfl

/-- An integer that can be written is read back as an integer. -/
theorem readValue_int {room : Nat} {i : Int} {rest : List Char} (hi : isWritable i = true)
    (hr : EndsNumber rest) : Gives (readValue room (intDigits i ++ rest)) (.int i) rest := by
  have hread := readNumber_intDigits hi hr
  obtain ⟨c, ds, hds⟩ := List.exists_cons_of_ne_nil (digitsOf_ne_nil i.natAbs)
  have hc : c.isDigit = true := isDigit_of_mem_digitsOf (by rw [hds]; exact List.mem_cons_self)
  rw [intDigits_eq, List.append_assoc, hds, List.cons_append] at hread ⊢
  exact readValue_number hc hread

/-- A double precision number is read back exactly, the special ones included. -/
theorem readValue_num {room : Nat} {x : Binary64} {rest : List Char} (hr : EndsNumber rest) :
    Gives (readValue room (writeNumber x ++ rest)) (.num x) rest := by
  cases x with
  | nan => exact readValue_word "NaN".toList _ (by simp [words]) rest
  | infinite negative =>
    cases negative with
    | false => exact readValue_word "Infinity".toList _ (by simp [words]) rest
    | true => exact readValue_word "-Infinity".toList _ (by simp [words]) rest
  | finite negative exponent fraction =>
    have hread := readNumber_shortestText negative exponent fraction hr
    obtain ⟨c, s, hs, hc⟩ := exists_shortestText exponent fraction
    rw [hs, List.cons_append] at hread
    rw [writeNumber_finite, List.append_assoc, hs, List.cons_append]
    exact readValue_number hc hread

/-- A number begins with a digit or a minus, which closes no array. -/
theorem exists_minus_append (negative : Bool) {c : Char} (t : List Char) (hc : c.isDigit = true) :
    ∃ c' t', minus negative ++ c :: t = c' :: t' ∧ isSpace c' = false ∧ c' ≠ ']' := by
  cases negative with
  | false =>
    have hne : ∀ x : Char, x.isDigit = false → c ≠ x := fun x hx => ne_of_isDigit hc hx
    refine ⟨c, t, rfl, ?_, hne ']' rfl⟩
    simp [isSpace, hne ' ' rfl, hne '\t' rfl, hne '\n' rfl, hne '\r' rfl]
  | true => exact ⟨'-', c :: t, rfl, rfl, by decide⟩

/-- The text of a value begins with a character that is not blank and closes nothing. -/
theorem exists_writeChars (v : Json) :
    ∃ c t, writeChars v = c :: t ∧ isSpace c = false ∧ c ≠ ']' := by
  cases v with
  | null => exact ⟨_, _, rfl, rfl, by decide⟩
  | bool b => cases b with
    | false => exact ⟨_, _, rfl, rfl, by decide⟩
    | true => exact ⟨_, _, rfl, rfl, by decide⟩
  | int i =>
    obtain ⟨c, ds, hds⟩ := List.exists_cons_of_ne_nil (digitsOf_ne_nil i.natAbs)
    rw [writeChars, intDigits_eq, hds]
    exact exists_minus_append _ ds
      (isDigit_of_mem_digitsOf (by rw [hds]; exact List.mem_cons_self))
  | num x =>
    cases x with
    | nan => exact ⟨_, _, rfl, rfl, by decide⟩
    | infinite negative => cases negative with
      | false => exact ⟨_, _, rfl, rfl, by decide⟩
      | true => exact ⟨_, _, rfl, rfl, by decide⟩
    | finite negative exponent fraction =>
      obtain ⟨c, s, hs, hc⟩ := exists_shortestText exponent fraction
      rw [writeChars, writeNumber_finite, hs]
      exact exists_minus_append _ s hc
  | str s => exact ⟨_, _, rfl, rfl, by decide⟩
  | arr items => cases items with
    | nil => exact ⟨_, _, rfl, rfl, by decide⟩
    | cons v items => exact ⟨_, _, rfl, rfl, by decide⟩
  | obj ms => cases ms with
    | nil => exact ⟨_, _, rfl, rfl, by decide⟩
    | cons m ms => exact ⟨_, _, rfl, rfl, by decide⟩

/-- No written value begins with white space. -/
theorem beginsSolid_writeChars (v : Json) (s : List Char) : BeginsSolid (writeChars v ++ s) := by
  obtain ⟨c, t, heq, hc, -⟩ := exists_writeChars v
  rw [heq]
  exact beginsSolid_cons _ hc

/-- The items of an array behind its bracket. -/
def writeRow : List Json → List Char
  | [] => [']']
  | v :: rest => writeChars v ++ writeItems rest

/-- The members of an object behind its brace. -/
def writeFields : List (String × Json) → List Char
  | [] => ['}']
  | (name, v) :: rest => writeText name.toList ++ ':' :: ' ' :: writeChars v ++ writeMembers rest

theorem beginsSolid_writeFields (name : String) (v : Json) (ms : List (String × Json))
    (rest : List Char) : BeginsSolid (writeFields ((name, v) :: ms) ++ rest) :=
  beginsSolid_cons _ (by decide)

/-- A name that comes later is not there before. -/
theorem not_mem_names_of_nodup {before ms : List (String × Json)} {name : String} {v : Json}
    (h : (Members.names (before ++ (name, v) :: ms)).Nodup) : name ∉ Members.names before := by
  intro hmem
  rw [Members.names, List.map_append, List.map_cons, List.nodup_append] at h
  exact h.2.2 name hmem name List.mem_cons_self rfl

/-- Where one of the marks between values follows, a number ends. -/
theorem endsNumber_cons {c : Char} (s : List Char)
    (hc : c.isDigit = false ∧ c ≠ '.' ∧ c ≠ 'e' ∧ c ≠ 'E') : EndsNumber (c :: s) := by
  intro x hx
  obtain rfl : c = x := Option.some.inj hx
  exact hc

mutual

/-- A proper value is read back from its text, where there is room for it. -/
theorem readValue_writeChars : ∀ (v : Json) {room : Nat} {rest : List Char}, v.isProper = true →
    v.depth ≤ room → EndsNumber rest → Gives (readValue room (writeChars v ++ rest)) v rest
  | .null, _, rest, _, _, _ => readValue_word "null".toList _ (by simp [words]) rest
  | .bool true, _, rest, _, _, _ => readValue_word "true".toList _ (by simp [words]) rest
  | .bool false, _, rest, _, _, _ => readValue_word "false".toList _ (by simp [words]) rest
  | .int _, _, _, hv, _, hr => readValue_int hv hr
  | .num _, _, _, _, _, hr => readValue_num hr
  | .str s, _, rest, _, _, _ => readValue_str s rest
  | .arr [], room + 1, rest, _, _, _ => readValue_emptyArray rest
  | .arr (v :: items), room + 1, rest, hv, hd, _ => by
    have hs : writeChars (.arr (v :: items)) ++ rest = '[' :: (writeRow (v :: items) ++ rest) := by
      simp [writeChars, writeRow]
    obtain ⟨c, t, hc, hspace, hclose⟩ := exists_writeChars v
    have hhead : writeRow (v :: items) ++ rest = c :: (t ++ writeItems items ++ rest) := by
      simp [writeRow, hc]
    have hread : Gives (readItems room (writeRow (v :: items) ++ rest)) (v :: items) rest :=
      readItems_writeRow (v :: items) (by simp) hv (Nat.le_of_succ_le_succ hd)
    rw [hs]
    rw [hhead] at hread ⊢
    exact readValue_array (beginsSolid_cons _ hspace) (by simpa using hclose) hread
  | .obj [], room + 1, rest, _, _, _ => readValue_emptyObject rest
  | .obj ((name, v) :: ms), room + 1, rest, hv, hd, _ => by
    have hs : writeChars (.obj ((name, v) :: ms)) ++ rest =
        '{' :: (writeFields ((name, v) :: ms) ++ rest) := by
      simp [writeChars, writeFields]
    obtain ⟨hnames, hvalues⟩ := Bool.and_eq_true_iff.mp hv
    rw [hs]
    refine readValue_object (beginsSolid_writeFields name v ms rest) ?_
      (readMembers_writeFields ((name, v) :: ms) [] (by simp) hvalues
        (Nat.le_of_succ_le_succ hd) (of_decide_eq_true hnames))
    simp [writeFields, writeText]

/-- The items of a proper array are read back. -/
theorem readItems_writeRow : ∀ (items : List Json) {room : Nat} {rest : List Char}, items ≠ [] →
    areProper items = true → itemsDepth items ≤ room →
    Gives (readItems room (writeRow items ++ rest)) items rest
  | [v], room, rest, _, hv, hd => by
    obtain ⟨hv, -⟩ := Bool.and_eq_true_iff.mp hv
    have hs : writeRow [v] ++ rest = writeChars v ++ ']' :: rest := by
      simp [writeRow, writeItems]
    rw [hs]
    exact readItems_last (readValue_writeChars v hv (Nat.le_trans (Nat.le_max_left _ _) hd)
      (endsNumber_cons rest (by decide)))
  | v :: w :: items, room, rest, _, hv, hd => by
    obtain ⟨hv, hw⟩ := Bool.and_eq_true_iff.mp hv
    have hs : writeRow (v :: w :: items) ++ rest =
        writeChars v ++ ',' :: ' ' :: (writeRow (w :: items) ++ rest) := by
      simp [writeRow, writeItems]
    have hsolid : BeginsSolid (writeRow (w :: items) ++ rest) := by
      rw [writeRow, List.append_assoc]
      exact beginsSolid_writeChars w _
    rw [hs]
    exact readItems_next hsolid
      (readValue_writeChars v hv (Nat.le_trans (Nat.le_max_left _ _) hd)
        (endsNumber_cons _ (by decide)))
      (readItems_writeRow (w :: items) (by simp) hw (Nat.le_trans (Nat.le_max_right _ _) hd))

/-- The members of a proper object are read back, behind those that came before. -/
theorem readMembers_writeFields : ∀ (ms before : List (String × Json)) {room : Nat}
    {rest : List Char}, ms ≠ [] → haveProper ms = true → membersDepth ms ≤ room →
    (Members.names (before ++ ms)).Nodup →
    Gives (readMembers room (writeFields ms ++ rest) before) (before ++ ms) rest
  | [(name, v)], before, room, rest, _, hv, hd, hn => by
    obtain ⟨hv, -⟩ := Bool.and_eq_true_iff.mp hv
    have hs : writeFields [(name, v)] ++ rest =
        writeText name.toList ++ ':' :: ' ' :: (writeChars v ++ '}' :: rest) := by
      simp [writeFields, writeMembers]
    rw [hs, ← Members.insert_of_not_mem (not_mem_names_of_nodup hn)]
    exact readMembers_last (readName_writeText name (beginsSolid_writeChars v _))
      (readValue_writeChars v hv (Nat.le_trans (Nat.le_max_left _ _) hd)
        (endsNumber_cons rest (by decide)))
  | (name, v) :: m :: ms, before, room, rest, _, hv, hd, hn => by
    -- the name is new among `before`, so setting it puts the member at the end
    obtain ⟨hv, hm⟩ := Bool.and_eq_true_iff.mp hv
    have hs : writeFields ((name, v) :: m :: ms) ++ rest = writeText name.toList ++
        ':' :: ' ' :: (writeChars v ++ ',' :: ' ' :: (writeFields (m :: ms) ++ rest)) := by
      simp [writeFields, writeMembers]
    have hbefore : before ++ (name, v) :: m :: ms =
        Members.insert before name v ++ m :: ms := by
      rw [Members.insert_of_not_mem (not_mem_names_of_nodup hn), List.append_assoc]
      rfl
    rw [hs, hbefore]
    refine readMembers_next (readName_writeText name (beginsSolid_writeChars v _))
      (readValue_writeChars v hv (Nat.le_trans (Nat.le_max_left _ _) hd)
        (endsNumber_cons _ (by decide))) (beginsSolid_writeFields m.1 m.2 ms rest) ?_
    exact readMembers_writeFields (m :: ms) _ (by simp) hm
      (Nat.le_trans (Nat.le_max_right _ _) hd) (hbefore ▸ hn)

end

/-- The text of a proper value is read as the value. -/
theorem parseWithin_writeChars {v : Json} {room : Nat} (hv : v.isProper = true)
    (hroom : v.depth ≤ room) : parseWithin room (writeChars v) = .ok v := by
  have hread : Gives (readValue room (writeChars v ++ [])) v [] :=
    readValue_writeChars v hv hroom fun c hc => absurd hc (by simp)
  have hskip := skip_of_beginsSolid (beginsSolid_writeChars v [])
  rw [List.append_nil] at hread hskip
  rw [← hskip] at hread
  obtain ⟨h, heq⟩ := hread
  simp only [parseWithin, readDocument, heq]
  rfl

/-! ## What is written -/

theorem isPlain_of_isDigit {c : Char} (h : c.isDigit = true) : isPlain c = true := by
  obtain ⟨h1, h2⟩ := toNat_of_isDigit h
  exact isPlain_iff.mpr ⟨by omega, by omega⟩

theorem isPlain_minus_append {negative : Bool} {s : List Char} (h : ∀ c ∈ s, isPlain c = true) :
    ∀ c ∈ minus negative ++ s, isPlain c = true := by
  rw [List.forall_mem_append]
  refine ⟨?_, h⟩
  cases negative with
  | false => exact fun c hc => absurd hc List.not_mem_nil
  | true => exact List.forall_mem_singleton.mpr rfl

/-- A number is written in plain characters. -/
theorem isPlain_chars {t : NumberText} (ht : t.Formed) : ∀ c ∈ t.chars, isPlain c = true := by
  have hplaces : ∀ c ∈ NumberText.pointed t.places, isPlain c = true := by
    unfold NumberText.pointed
    split
    case isTrue => exact fun c hc => absurd hc List.not_mem_nil
    case isFalse =>
      exact List.forall_mem_cons.mpr ⟨rfl, fun c hc => isPlain_of_isDigit (ht.places c hc)⟩
  have hpower : ∀ c ∈ t.power.elim [] (exponentText 'e'), isPlain c = true := by
    cases t.power with
    | none => exact fun c hc => absurd hc List.not_mem_nil
    | some e =>
      refine List.forall_mem_cons.mpr ⟨rfl, List.forall_mem_cons.mpr ⟨?_, ?_⟩⟩
      · split
        · rfl
        · rfl
      · exact fun c hc => isPlain_of_isDigit (isDigit_of_mem_padded hc)
  simp only [NumberText.chars, List.forall_mem_append]
  exact ⟨fun c hc => isPlain_of_isDigit (ht.whole c hc), hplaces, hpower⟩

/-- So is a double precision number, be it a word. -/
theorem isPlain_writeNumber (x : Binary64) : ∀ c ∈ writeNumber x, isPlain c = true := by
  cases x with
  | nan => exact Text.forall_mem_of_all (by decide)
  | infinite negative => cases negative with
    | false => exact Text.forall_mem_of_all (by decide)
    | true => exact Text.forall_mem_of_all (by decide)
  | finite negative exponent fraction =>
    obtain ⟨t, ht, -, hchars⟩ := exists_numberText exponent fraction
    rw [writeNumber_finite, ← hchars]
    exact isPlain_minus_append (isPlain_chars ht.formed)

theorem isPlain_marks_append (marks : List Char) {s : List Char} (hm : marks.all isPlain = true)
    (h : ∀ c ∈ s, isPlain c = true) : ∀ c ∈ marks ++ s, isPlain c = true :=
  List.forall_mem_append.mpr ⟨List.all_eq_true.mp hm, h⟩

mutual

/-- Every value is written in printable ASCII. -/
theorem isPlain_writeChars : ∀ (v : Json), ∀ c ∈ writeChars v, isPlain c = true
  | .null => Text.forall_mem_of_all (by decide)
  | .bool false => Text.forall_mem_of_all (by decide)
  | .bool true => Text.forall_mem_of_all (by decide)
  | .int i => by
    rw [writeChars, intDigits_eq]
    exact isPlain_minus_append fun c hc => isPlain_of_isDigit (isDigit_of_mem_digitsOf hc)
  | .num x => isPlain_writeNumber x
  | .str _ => fun _ hc => isPlain_of_mem_writeText hc
  | .arr [] => Text.forall_mem_of_all (by decide)
  | .arr (v :: items) => by
    rw [writeChars, List.forall_mem_append]
    exact ⟨isPlain_marks_append ['['] rfl (isPlain_writeChars v), isPlain_writeItems items⟩
  | .obj [] => Text.forall_mem_of_all (by decide)
  | .obj ((name, v) :: ms) => by
    rw [writeChars, List.forall_mem_append, List.forall_mem_append]
    exact ⟨⟨isPlain_marks_append ['{'] rfl fun _ hc => isPlain_of_mem_writeText hc,
      isPlain_marks_append [':', ' '] rfl (isPlain_writeChars v)⟩, isPlain_writeMembers ms⟩

theorem isPlain_writeItems : ∀ (items : List Json), ∀ c ∈ writeItems items, isPlain c = true
  | [] => Text.forall_mem_of_all (by decide)
  | v :: items => by
    rw [writeItems, List.forall_mem_append]
    exact ⟨isPlain_marks_append [',', ' '] rfl (isPlain_writeChars v), isPlain_writeItems items⟩

theorem isPlain_writeMembers : ∀ (ms : List (String × Json)), ∀ c ∈ writeMembers ms,
    isPlain c = true
  | [] => Text.forall_mem_of_all (by decide)
  | (name, v) :: ms => by
    rw [writeMembers, List.forall_mem_append, List.forall_mem_append]
    exact ⟨⟨isPlain_marks_append [',', ' '] rfl fun _ hc => isPlain_of_mem_writeText hc,
      isPlain_marks_append [':', ' '] rfl (isPlain_writeChars v)⟩, isPlain_writeMembers ms⟩

end

end Logwire.Json
