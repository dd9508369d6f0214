import Logwire.Json.Basic
import Logwire.Number.Numeral

/-!
# Logwire.Json.Reader

Reading JSON text.

Besides the JSON grammar, `NaN`, `Infinity` and `-Infinity` are read.  Of two
members with one name the last value counts.  A fault is reported at the
character where reading cannot go on, or where the string or escape begins that
is at fault.

A reader has room for a number of arrays and objects within each other.  One
that opens beyond its room ends the reading there, whatever would follow.

The readers consume a front part of the text and return what is left.  A fault
carries the number of characters from its place to the end of the text, so that
no reader needs to know its own position; `parse` turns that number into a
position, a line and a column.
-/

namespace Logwire.Json

open Number

/-! ## Faults -/

/-- A value that holds others. -/
inductive Container where
  | array
  | object
  deriving DecidableEq, Repr

/-- What is wrong with a JSON text. -/
inductive ReadCause where
  | value
  | memberName
  | colon
  | comma
  | extraData
  | controlCharacter
  | escape
  | unicodeEscape
  | unterminated
  | tooManyDigits (count : Nat)
  /-- A value opens within too many others. -/
  | tooDeep (container : Container)
  deriving DecidableEq, Repr

/-- A cause and the number of characters from its place to the end of the text. -/
structure ReadFault where
  cause : ReadCause
  remaining : Nat
  deriving Repr

/-- A remainder that is shorter than the text it is left of. -/
abbrev Rest (s : List Char) := { r : List Char // r.length < s.length }

/-! ## Blank space -/

/-- The four blank characters of JSON. -/
def isSpace (c : Char) : Bool := c == ' ' || c == '\t' || c == '\n' || c == '\r'

/-- The text after its blank beginning. -/
def skip (s : List Char) : List Char := s.dropWhile isSpace

theorem length_skip_le (s : List Char) : (skip s).length ≤ s.length :=
  (List.dropWhile_sublist _).length_le

/-! ## Strings -/

/-- The value of a hexadecimal digit of either case. -/
def hexValue? (c : Char) : Option Nat :=
  if '0' ≤ c ∧ c ≤ '9' then some (c.toNat - 48)
  else if 'a' ≤ c ∧ c ≤ 'f' then some (c.toNat - 87)
  else if 'A' ≤ c ∧ c ≤ 'F' then some (c.toNat - 55)
  else none

/-- Four hexadecimal digits as a number, when a further character follows them. -/
def unit? : List Char → Option (Nat × List Char)
  | a :: b :: c :: d :: e :: r =>
    match hexValue? a, hexValue? b, hexValue? c, hexValue? d with
    | some a, some b, some c, some d => some (((a * 16 + b) * 16 + c) * 16 + d, e :: r)
    | _, _, _, _ => none
  | _ => none

theorem length_lt_of_unit? {s r : List Char} {n : Nat} (h : unit? s = some (n, r)) :
    r.length < s.length := by
  unfold unit? at h
  split at h
  · split at h
    · obtain ⟨rfl, rfl⟩ := by simpa using h
      simp
    · simp at h
  · simp at h

/-- The character of a code unit; a lone surrogate becomes the replacement character. -/
def unitChar (n : Nat) : Char := if 0xd800 ≤ n ∧ n ≤ 0xdfff then '\ufffd' else Char.ofNat n

/-- The character of a surrogate pair. -/
def pairChar (high low : Nat) : Char :=
  Char.ofNat (0x10000 + (high - 0xd800) * 0x400 + (low - 0xdc00))

/-- The character that a letter after a backslash stands for. -/
def letterEscape? (c : Char) : Option Char :=
  if c = '"' ∨ c = '\\' ∨ c = '/' then some c
  else if c = 'b' then some '\x08'
  else if c = 'f' then some '\x0c'
  else if c = 'n' then some '\n'
  else if c = 'r' then some '\r'
  else if c = 't' then some '\t'
  else none

/-- The second code unit of a surrogate pair, if the text goes on with one.  An escape there must
have four hexadecimal digits even if it is no second unit. -/
def lowUnit? (s : List Char) : Except ReadFault (Option (Nat × List Char)) :=
  match s with
  | '\\' :: 'u' :: r =>
    if r.length < 5 then .ok none
    else
      match unit? r with
      | none => .error ⟨.unicodeEscape, r.length + 1⟩
      | some (low, t) => if 0xdc00 ≤ low ∧ low ≤ 0xdfff then .ok (some (low, t)) else .ok none
  | _ => .ok none

theorem length_lt_of_lowUnit? {s r : List Char} {n : Nat} (h : lowUnit? s = .ok (some (n, r))) :
    r.length < s.length := by
  unfold lowUnit? at h
  split at h
  · split at h
    · simp at h
    · split at h
      · simp at h
      · rename_i low t hu
        split at h
        · obtain ⟨rfl, rfl⟩ := by simpa using h
          have := length_lt_of_unit? hu
          simp only [List.length_cons]
          omega
        · simp at h
  · simp at h

/-- The character of an escape after its letter u. -/
def readUnits (s : List Char) : Except ReadFault (Char × List Char) :=
  match unit? s with
  | none => .error ⟨.unicodeEscape, s.length + 1⟩
  | some (n, t) =>
    if 0xd800 ≤ n ∧ n ≤ 0xdbff then
      match lowUnit? t with
      | .error e => .error e
      | .ok (some (low, t')) => .ok (pairChar n low, t')
      | .ok none => .ok (unitChar n, t)
    else .ok (unitChar n, t)

theorem length_lt_of_readUnits {s r : List Char} {c : Char} (h : readUnits s = .ok (c, r)) :
    r.length < s.length := by
  unfold readUnits at h
  split at h
  · simp at h
  · rename_i n t hu
    have h1 := length_lt_of_unit? hu
    split at h
    · split at h
      · simp at h
      · rename_i low t' hl
        have h2 := length_lt_of_lowUnit? hl
        obtain ⟨rfl, rfl⟩ := by simpa using h
        omega
      · obtain ⟨rfl, rfl⟩ := by simpa using h
        exact h1
    · obtain ⟨rfl, rfl⟩ := by simpa using h
      exact h1

/-- The character of an escape after its backslash.  `start` counts the characters from the
opening quote of the string to the end of the text. -/
def readEscape (start : Nat) (s : List Char) : Except ReadFault (Char × List Char) :=
  match s with
  | [] => .error ⟨.unterminated, start⟩
  | c :: r =>
    if c = 'u' then readUnits r
    else
      match letterEscape? c with
      | none => .error ⟨.escape, r.length + 2⟩
      | some c' => .ok (c', r)

theorem length_lt_of_readEscape {start : Nat} {s r : List Char} {c : Char}
    (h : readEscape start s = .ok (c, r)) : r.length < s.length := by
  unfold readEscape at h
  split at h
  · simp at h
  · split at h
    · have := length_lt_of_readUnits h
      simp only [List.length_cons]
      omega
    · split at h
      · simp at h
      · obtain ⟨rfl, rfl⟩ := by simpa using h
        simp

/-- The characters of a string up to its closing quote. -/
def readChars (start : Nat) (s : List Char) : Except ReadFault (List Char × List Char) :=
  match s with
  | [] => .error ⟨.unterminated, start⟩
  | c :: r =>
    if c = '"' then .ok ([], r)
    else if c = '\\' then
      match _h : readEscape start r with
      | .error e => .error e
      | .ok (c', t) =>
        match readChars start t with
        | .error e => .error e
        | .ok (cs, rest) => .ok (c' :: cs, rest)
    else if c.toNat ≤ 0x1f then .error ⟨.controlCharacter, r.length + 1⟩
    else
      match readChars start r with
      | .error e => .error e
      | .ok (cs, rest) => .ok (c :: cs, rest)
  termination_by s.length
  decreasing_by
    · have := length_lt_of_readEscape _h
      simp only [List.length_cons]
      omega
    · simp

/-- The characters of a string end at a quote, which is taken off too. -/
theorem length_lt_of_readChars {start : Nat} {s cs r : List Char}
    (h : readChars start s = .ok (cs, r)) : r.length < s.length := by
  fun_induction readChars start s generalizing cs r with
  | case1 => simp at h
  | case2 => obtain ⟨rfl, rfl⟩ := by simpa using h
             simp
  | case3 => simp at h
  | case4 => simp at h
  | case5 r' c' t he cs' rest hr _ ih =>
    obtain ⟨rfl, rfl⟩ := by simpa using h
    have h1 := length_lt_of_readEscape he
    have h2 := ih hr
    simp only [List.length_cons]
    omega
  | case6 => simp at h
  | case7 => simp at h
  | case8 c r' _ _ _ cs' rest hr ih =>
    obtain ⟨rfl, rfl⟩ := by simpa using h
    have := ih hr
    simp only [List.length_cons]
    omega

/-! ## Numbers -/

/-- The longest row of ASCII digits at the front, as their values. -/
def scanAsciiDigits (s : List Char) : List Nat × List Char :=
  ((s.takeWhile Text.isAsciiDigit).map fun c => c.toNat - 48, s.dropWhile Text.isAsciiDigit)

/-- The integer part of a number: a zero, or digits that do not start with one. -/
def scanWhole (s : List Char) : Option (List Nat × List Char) :=
  match s with
  | '0' :: r => some ([0], r)
  | c :: r => if Text.isAsciiDigit c then some (scanAsciiDigits (c :: r)) else none
  | [] => none

/-- A point and at least one digit; no digits when there is no such fraction. -/
def scanPlaces (s : List Char) : List Nat × List Char :=
  match s with
  | '.' :: r => if (scanAsciiDigits r).1.isEmpty then ([], s) else scanAsciiDigits r
  | _ => ([], s)

/-- The letter e, an optional sign and at least one digit, if they are there. -/
def scanPower (s : List Char) : Option Int × List Char :=
  match s with
  | c :: r =>
    if c = 'e' ∨ c = 'E' then
      let digits := scanAsciiDigits (scanSign r).2
      if digits.1.isEmpty then (none, s)
      else (some (signed (scanSign r).1 (Text.ofDigits digits.1)), digits.2)
    else (none, s)
  | [] => (none, s)

def scanMinus : List Char → Bool × List Char
  | '-' :: r => (true, r)
  | s => (false, s)

/-- Reads a number; none when the text does not begin with one.  With a fraction or an exponent
it is a double precision number, otherwise an integer. -/
def readNumber (s : List Char) : Option (Except ReadCause Json × List Char) :=
  match scanWhole (scanMinus s).2 with
  | none => none
  | some (whole, t) =>
    let negative := (scanMinus s).1
    let fraction := (scanPlaces t).1
    let power := (scanPower (scanPlaces t).2).1
    let rest := (scanPower (scanPlaces t).2).2
    if fraction.isEmpty && power.isNone then
      if maxDigits < whole.length then some (.error (.tooManyDigits whole.length), rest)
      else some (.ok (.int (signed negative (Text.ofDigits whole))), rest)
    else
      let e := power.getD 0 - fraction.length
      some (.ok (.num (nearest negative (whole ++ fraction) e)), rest)

theorem length_scanAsciiDigits_le (s : List Char) : (scanAsciiDigits s).2.length ≤ s.length :=
  (List.dropWhile_sublist _).length_le

theorem length_lt_of_scanWhole {s r : List Char} {ds : List Nat}
    (h : scanWhole s = some (ds, r)) : r.length < s.length := by
  unfold scanWhole at h
  split at h
  · obtain ⟨rfl, rfl⟩ := by simpa using h
    simp
  · rename_i c r' _
    split at h
    · rename_i hc
      simp only [scanAsciiDigits, List.dropWhile_cons, hc, if_true, Option.some.injEq,
        Prod.mk.injEq] at h
      rw [← h.2]
      have := (List.dropWhile_sublist Text.isAsciiDigit (l := r')).length_le
      simp only [List.length_cons]
      omega
    · simp at h
  · simp at h

theorem length_scanPlaces_le (s : List Char) : (scanPlaces s).2.length ≤ s.length := by
  unfold scanPlaces
  split
  · rename_i r
    have := length_scanAsciiDigits_le r
    split
    · simp
    · simp only [List.length_cons]
      omega
  · simp

theorem length_scanSign_le (s : List Char) : (scanSign s).2.length ≤ s.length := by
  unfold scanSign
  split <;> simp

theorem length_scanMinus_le (s : List Char) : (scanMinus s).2.length ≤ s.length := by
  unfold scanMinus
  split <;> simp

theorem length_scanPower_le (s : List Char) : (scanPower s).2.length ≤ s.length := by
  unfold scanPower
  split
  · rename_i c r
    have h1 := length_scanSign_le r
    have h2 := length_scanAsciiDigits_le (scanSign r).2
    split
    · simp only
      split
      · simp
      · simp only [List.length_cons]
        omega
    · simp
  · simp

theorem length_lt_of_readNumber {s r : List Char} {v : Except ReadCause Json}
    (h : readNumber s = some (v, r)) : r.length < s.length := by
  unfold readNumber at h
  split at h
  · simp at h
  · rename_i whole t hw
    have h1 := length_lt_of_scanWhole hw
    have h2 := length_scanMinus_le s
    have h3 := length_scanPlaces_le t
    have h4 := length_scanPower_le (scanPlaces t).2
    have hr : (scanPower (scanPlaces t).2).2 = r := by
      simp only at h
      split at h
      · split at h <;> exact (Prod.mk.inj (Option.some.inj h)).2
      · exact (Prod.mk.inj (Option.some.inj h)).2
    rw [hr] at h4
    omega

/-! ## Values -/

def after? : List Char → List Char → Option (List Char)
  | [], s => some s
  | _ :: _, [] => none
  | c :: cs, d :: s => if c = d then after? cs s else none

theorem length_of_after? {word s r : List Char} (h : after? word s = some r) :
    r.length + word.length = s.length := by
  induction word generalizing s with
  | nil => simp [after?] at h; simp [h]
  | cons c cs ih =>
    cases s with
    | nil => simp [after?] at h
    | cons d s =>
      simp only [after?] at h
      split at h
      · have := ih h
        simp only [List.length_cons]
        omega
      · simp at h

/-- The words that stand for a value. -/
def words : List (List Char × Json) :=
  [("null".toList, .null), ("true".toList, .bool true), ("false".toList, .bool false),
   ("NaN".toList, .num .nan), ("Infinity".toList, .num (.infinite false)),
   ("-Infinity".toList, .num (.infinite true))]

/-- The first word of a list that the text begins with. -/
def readWord : List (List Char × Json) → List Char → Option (Json × List Char)
  | [], _ => none
  | (word, v) :: others, s =>
    match after? word s with
    | some r => some (v, r)
    | none => readWord others s

theorem length_lt_of_readWord {ws : List (List Char × Json)} {s r : List Char} {v : Json}
    (hw : ∀ w ∈ ws, w.1 ≠ []) (h : readWord ws s = some (v, r)) : r.length < s.length := by
  induction ws with
  | nil => simp [readWord] at h
  | cons w others ih =>
    obtain ⟨word, v'⟩ := w
    simp only [readWord] at h
    split at h
    · rename_i r' ha
      obtain ⟨rfl, rfl⟩ := by simpa using h
      have h1 := length_of_after? ha
      have h2 := List.length_pos_iff.mpr (hw (word, v') (by simp))
      simp only at h2
      omega
    · exact ih (fun w hm => hw w (by simp [hm])) h

theorem words_ne_nil : ∀ w ∈ words, w.1 ≠ [] := by decide

/-- Reads a word or a number. -/
def readScalar (s : List Char) : Except ReadFault (Json × Rest s) :=
  match hw : readWord words s with
  | some (v, r) => .ok (v, ⟨r, length_lt_of_readWord words_ne_nil hw⟩)
  | none =>
    match hn : readNumber s with
    | none => .error ⟨.value, s.length⟩
    | some (.error cause, r) => .error ⟨cause, r.length⟩
    | some (.ok v, r) => .ok (v, ⟨r, length_lt_of_readNumber hn⟩)

/-- Reads a string after its opening quote. -/
def readText (s : List Char) : Except ReadFault (String × Rest s) :=
  match h : readChars (s.length + 1) s with
  | .error e => .error e
  | .ok (cs, r) => .ok (String.ofList cs, ⟨r, length_lt_of_readChars h⟩)

/-- The text after a colon between blanks. -/
def readColon (s : List Char) : Except ReadFault (Rest s) :=
  match h : skip s with
  | ':' :: r =>
    .ok ⟨skip r, by
      have h1 := length_skip_le s
      have h2 := length_skip_le r
      rw [h, List.length_cons] at h1
      omega⟩
  | t => .error ⟨.colon, t.length⟩

/-- Reads the name of a member and the colon after it. -/
def readName (s : List Char) : Except ReadFault (String × Rest s) :=
  match s with
  | '"' :: r =>
    match readText r with
    | .error e => .error e
    | .ok (name, t) =>
      match readColon t.1 with
      | .error e => .error e
      | .ok u =>
        .ok (name, ⟨u.1, by
          have h1 := t.2
          have h2 := u.2
          simp only [List.length_cons]
          omega⟩)
  | t => .error ⟨.memberName, t.length⟩

/-- What separates the parts of an array or object. -/
inductive Separator where
  | next
  | last

/-- Reads a comma or the closing character, and the blanks after a comma. -/
def readSeparator (close : Char) (s : List Char) : Except ReadFault (Separator × Rest s) :=
  match h : skip s with
  | [] => .error ⟨.comma, 0⟩
  | c :: r =>
    have h1 : r.length < s.length := by
      have := length_skip_le s
      rw [h, List.length_cons] at this
      omega
    if c = close then .ok (.last, ⟨r, h1⟩)
    else if c = ',' then .ok (.next, ⟨skip r, Nat.lt_of_le_of_lt (length_skip_le r) h1⟩)
    else .error ⟨.comma, r.length + 1⟩

mutual

/-- Reads a value that begins at the first character. -/
def readValue (room : Nat) (s : List Char) : Except ReadFault (Json × Rest s) :=
  match s with
  | [] => .error ⟨.value, 0⟩
  | c :: r =>
    if c = '"' then
      match readText r with
      | .error e => .error e
      | .ok (t, rest) =>
        .ok (.str t, ⟨rest.1, Nat.lt_trans rest.2 (by simp)⟩)
    else if c = '[' then
      match room with
      | 0 => .error ⟨.tooDeep .array, r.length + 1⟩
      | room + 1 =>
        match h : skip r with
        | ']' :: rest =>
          .ok (.arr [], ⟨rest, by
            have := length_skip_le r
            rw [h, List.length_cons] at this
            simp only [List.length_cons]
            omega⟩)
        | t =>
          have ht : t.length ≤ r.length := h ▸ length_skip_le r
          match readItems room t with
          | .error e => .error e
          | .ok (items, rest) =>
            .ok (.arr items, ⟨rest.1, by
              have := rest.2
              simp only [List.length_cons]
              omega⟩)
    else if c = '{' then
      match room with
      | 0 => .error ⟨.tooDeep .object, r.length + 1⟩
      | room + 1 =>
        match h : skip r with
        | '}' :: rest =>
          .ok (.obj [], ⟨rest, by
            have := length_skip_le r
            rw [h, List.length_cons] at this
            simp only [List.length_cons]
            omega⟩)
        | t =>
          have ht : t.length ≤ r.length := h ▸ length_skip_le r
          match readMembers room t [] with
          | .error e => .error e
          | .ok (members, rest) =>
            .ok (.obj members, ⟨rest.1, by
              have := rest.2
              simp only [List.length_cons]
              omega⟩)
    else readScalar (c :: r)
  termination_by (s.length, 0)
  decreasing_by
    all_goals
      apply Prod.Lex.left
      simp only [List.length_cons]
      omega

/-- Reads items up to the closing bracket. -/
def readItems (room : Nat) (s : List Char) : Except ReadFault (List Json × Rest s) :=
  match readValue room s with
  | .error e => .error e
  | .ok (v, t) =>
    have ht := t.2
    match readSeparator ']' t.1 with
    | .error e => .error e
    | .ok (.last, rest) => .ok ([v], ⟨rest.1, Nat.lt_trans rest.2 ht⟩)
    | .ok (.next, u) =>
      have hu := u.2
      match readItems room u.1 with
      | .error e => .error e
      | .ok (items, rest) =>
        .ok (v :: items, ⟨rest.1, Nat.lt_trans rest.2 (Nat.lt_trans hu ht)⟩)
  termination_by (s.length, 1)
  decreasing_by
    · exact Prod.Lex.right _ Nat.zero_lt_one
    · exact Prod.Lex.left _ _ (Nat.lt_trans hu ht)

/-- Reads members up to the closing brace, adding them to those that came before. -/
def readMembers (room : Nat) (s : List Char) (before : List (String × Json)) :
    Except ReadFault (List (String × Json) × Rest s) :=
  match readName s with
  | .error e => .error e
  | .ok (name, t) =>
    have ht := t.2
    match readValue room t.1 with
    | .error e => .error e
    | .ok (v, u) =>
      have hu := u.2
      let members := Members.insert before name v
      match readSeparator '}' u.1 with
      | .error e => .error e
      | .ok (.last, rest) =>
        .ok (members, ⟨rest.1, Nat.lt_trans rest.2 (Nat.lt_trans hu ht)⟩)
      | .ok (.next, w) =>
        have hw := w.2
        match readMembers room w.1 members with
        | .error e => .error e
        | .ok (all, rest) =>
          .ok (all, ⟨rest.1, Nat.lt_trans rest.2 (Nat.lt_trans hw (Nat.lt_trans hu ht))⟩)
  termination_by (s.length, 1)
  decreasing_by
    · exact Prod.Lex.left _ _ ht
    · exact Prod.Lex.left _ _ (Nat.lt_trans hw (Nat.lt_trans hu ht))

end

/-- Reads a text that holds one value between blanks. -/
def readDocument (room : Nat) (s : List Char) : Except ReadFault Json :=
  match readValue room (skip s) with
  | .error e => .error e
  | .ok (v, rest) =>
    match skip rest.1 with
    | [] => .ok v
    | t => .error ⟨.extraData, t.length⟩

/-! ## Places -/

/-- A fault with its place: a position from 0, a line and a column from 1. -/
structure ParseFault where
  cause : ReadCause
  position : Nat
  line : Nat
  column : Nat
  deriving Repr

/-- The place of a fault in its text. -/
def ReadFault.locate (s : List Char) (e : ReadFault) : ParseFault :=
  let front := s.take (s.length - e.remaining)
  let breaks := front.count '\n'
  let column := (front.reverse.takeWhile (· ≠ '\n')).length + 1
  ⟨e.cause, front.length, breaks + 1, column⟩

/-- Reads a text as one JSON value, with room for so many arrays and objects within each other. -/
def parseWithin (room : Nat) (s : List Char) : Except ParseFault Json :=
  match readDocument room s with
  | .ok v => .ok v
  | .error e => .error (e.locate s)

/-- The most arrays and objects within each other. -/
def nestingLimit : Nat := 985

/-- Reads a text as one JSON value. -/
def parse (s : List Char) : Except ParseFault Json := parseWithin nestingLimit s

def Container.word : Container → String
  | .array => "array"
  | .object => "object"

/-- The wording for a value within too many others. -/
def tooDeepMessage (container : Container) : String :=
  "maximum recursion depth exceeded while decoding a JSON " ++ container.word
    ++ " from a unicode string"

namespace ParseFault

/-- The wording of a fault: the cause and its place, except for an integer that is too long and a
value that is too deep. -/
def message (e : ParseFault) : String :=
  match e.cause with
  | .value => placed "Expecting value"
  | .memberName => placed "Expecting property name enclosed in double quotes"
  | .colon => placed "Expecting ':' delimiter"
  | .comma => placed "Expecting ',' delimiter"
  | .extraData => placed "Extra data"
  | .controlCharacter => placed "Invalid control character at"
  | .escape => placed "Invalid \\escape"
  | .unicodeEscape => placed "Invalid \\uXXXX escape"
  | .unterminated => placed "Unterminated string starting at"
  | .tooManyDigits count => tooLongMessage count
  | .tooDeep container => tooDeepMessage container
where
  placed (cause : String) : String :=
    cause ++ ": line " ++ toString e.line ++ " column " ++ toString e.column
      ++ " (char " ++ toString e.position ++ ")"

end ParseFault

end Logwire.Json
