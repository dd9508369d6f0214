import Logwire.Json.Coercion
import Logwire.Template.Piece
import Logwire.Text.Length

/-!
# Logwire.Template.Basic

Filling the directives of a message template with arguments.

Two percent signs are one.  The arguments are a row of values, of which each
directive takes the next, or an object whose members directives name by keys.
All values of a row must be taken.

* `fill_plain` — a text without percent signs is its own filling.
-/

namespace Logwire.Template

open Number

/-! ## Faults -/

/-- Why a template is not filled. -/
inductive Fault where
  | notEnough
  | notAll
  | needsMapping
  | missingKey (key : String)
  | incompleteKey
  | incomplete
  | widthTooBig
  | precisionTooBig
  /-- An integer with more digits than a precision may ask for. -/
  | precisionTooLarge
  /-- A width that no text can have. -/
  | outOfMemory
  | starNotInteger
  /-- The number for a star does not fit into this kind of integer. -/
  | starTooBig (kind : String)
  | unsupported (conversion : Char) (position : Nat)
  | realRequired (conversion : Char) (kind : String)
  | integerRequired (conversion : Char) (kind : String)
  | numberRequired (kind : String)
  | characterRequired
  | characterRange
  | number (fault : CoercionFault)
  | text (fault : Json.TextFault)
  deriving DecidableEq, Repr

namespace Fault

def message : Fault → String
  | notEnough => "not enough arguments for format string"
  | notAll => "not all arguments converted during string formatting"
  | needsMapping => "format requires a mapping"
  | missingKey key => Text.quoted key
  | incompleteKey => "incomplete format key"
  | incomplete => "incomplete format"
  | widthTooBig => "width too big"
  | precisionTooBig => "precision too big"
  | precisionTooLarge => "precision too large"
  | outOfMemory => ""
  | starNotInteger => "* wants int"
  | starTooBig kind => "Python int too large to convert to C " ++ kind
  | unsupported c position =>
    let shown := if 31 ≤ c.toNat ∧ c.toNat < 127 then c else '?'
    "unsupported format character '" ++ String.ofList [shown] ++ "' (0x"
      ++ String.ofList (Nat.toDigits 16 c.toNat) ++ ") at index " ++ toString position
  | realRequired c kind =>
    String.ofList ['%', c] ++ " format: a real number is required, not " ++ kind
  | integerRequired c kind =>
    String.ofList ['%', c] ++ " format: an integer is required, not " ++ kind
  | numberRequired kind => "must be real number, not " ++ kind
  | characterRequired => "%c requires int or char"
  | characterRange => "%c arg not in range(0x110000)"
  | number e => e.message
  | text e => e.message

end Fault

/-! ## Arguments -/

/-- The arguments that are left to take. -/
inductive Source where
  /-- A row of values. -/
  | row (rest : List Json)
  /-- One value, which may have been taken. -/
  | single (value : Json) (taken : Bool)

/-- The arguments of a template. -/
structure Arguments where
  source : Source
  mapping : Option (List (String × Json))

/-- The arguments that are given as a row.  A single object with members is taken as a mapping. -/
def Arguments.ofRow : List Json → Arguments
  | [.obj (m :: ms)] => ⟨.single (.obj (m :: ms)) false, some (m :: ms)⟩
  | values => ⟨.row values, none⟩

def Source.next : Source → Except Fault (Json × Source)
  | .row (v :: rest) => .ok (v, .row rest)
  | .row [] => .error .notEnough
  | .single v false => .ok (v, .single v true)
  | .single _ true => .error .notEnough

def Source.spent : Source → Bool
  | .row rest => rest.isEmpty
  | .single _ taken => taken

/-! ## Directives -/

/-- The value of a key becomes the only argument. -/
def takeKey (a : Arguments) : Key → Except Fault Source
  | .absent => .ok a.source
  | .unclosed =>
    match a.mapping with
    | none => .error .needsMapping
    | some _ => .error .incompleteKey
  | .named name =>
    match a.mapping with
    | none => .error .needsMapping
    | some ms =>
      match Members.find? ms (String.ofList name) with
      | some v => .ok (.single v false)
      | none => .error (.missingKey (String.ofList name))

/-- The limit of a width: it is a signed number of 64 bits. -/
def wideLimit : Nat := 1 <<< 63

/-- The limit of a precision: it is a signed number of 32 bits. -/
def narrowLimit : Nat := 1 <<< 31

/-- An integer cannot be asked to have more digits than this. -/
def digitsLimit : Nat := narrowLimit - 4

/-- A number for a star, which must lie between the limits. -/
def starValue (limit : Nat) (kind : String) : Json → Except Fault Int
  | .int i => if -(limit : Int) ≤ i ∧ i < limit then .ok i else .error (.starTooBig kind)
  | .bool b => .ok b.toInt
  | _ => .error .starNotInteger

/-- The width of a directive, negative to pad on the right.  The least number that a star can
have is no width, since there is no such number of blanks. -/
def takeWidth (s : Source) : Count → Except Fault (Int × Source)
  | .absent => .ok (0, s)
  | .fixed n => if n < wideLimit then .ok (n, s) else .error .widthTooBig
  | .argument => do
    let (v, s) ← s.next
    let i ← starValue wideLimit "ssize_t" v
    return (if i = -(wideLimit : Int) then 0 else i, s)

/-- The precision of a directive, at least zero. -/
def takePrecision (s : Source) : Count → Except Fault (Option Nat × Source)
  | .absent => .ok (none, s)
  | .fixed n => if n < narrowLimit then .ok (some n, s) else .error .precisionTooBig
  | .argument => do
    let (v, s) ← s.next
    let i ← starValue narrowLimit "int" v
    return (some i.toNat, s)

/-! ## Conversions -/

/-- A value as an integer for a conversion. -/
def integerFor (conversion : Char) (v : Json) : Except Fault Int :=
  let exact := conversion = 'o' || conversion = 'x' || conversion = 'X'
  match v with
  | .int i => .ok i
  | .bool b => .ok b.toInt
  | .num x =>
    if exact then .error (.integerRequired conversion v.kind)
    else (Json.integerOfNumber x).mapError .number
  | _ =>
    .error (if exact then .integerRequired conversion v.kind else .realRequired conversion v.kind)

/-- A value as a double precision number for a conversion. -/
def numberFor (v : Json) : Except Fault Binary64 :=
  match v with
  | .num x => .ok x
  | .int i => (Json.numberOfInteger i).mapError .number
  | .bool b => (Json.numberOfInteger b.toInt).mapError .number
  | _ => .error (.numberRequired v.kind)

def characterOf (i : Int) : Except Fault (List Char) :=
  if i < 0 ∨ 0x110000 ≤ i then .error .characterRange
  else .ok [if 0xd800 ≤ i ∧ i ≤ 0xdfff then '\ufffd' else Char.ofNat i.toNat]

/-- A value as a character for a conversion. -/
def characterFor : Json → Except Fault (List Char)
  | .str s => if s.toList.length = 1 then .ok s.toList else .error .characterRequired
  | .int i => characterOf i
  | .bool b => characterOf b.toInt
  | _ => .error .characterRequired

/-- A text that shows a value, if the value can be shown. -/
def shown (v : Json) (text : String) : Except Fault (List Char) :=
  match v.textFault? Json.shownLimit with
  | some e => .error (.text e)
  | none => .ok text.toList

/-- A value as a text for a conversion; none when the conversion is no text. -/
def textFor? (conversion : Char) (v : Json) : Option (Except Fault (List Char)) :=
  if conversion = 's' then some (shown v v.display)
  else if conversion = 'r' then some (shown v v.literal)
  else if conversion = 'a' then some (shown v (v.literalWith Text.quotedAscii))
  else none

def isIntegerConversion (c : Char) : Bool :=
  c == 'd' || c == 'i' || c == 'u' || c == 'o' || c == 'x' || c == 'X'

def isNumberConversion (c : Char) : Bool :=
  c == 'e' || c == 'E' || c == 'f' || c == 'F' || c == 'g' || c == 'G'

/-- Whether an integer can have as many digits as a directive asks. -/
def checkDigits (precision : Nat) : Except Fault Unit :=
  if digitsLimit < precision then .error .precisionTooLarge else .ok ()

/-- Whether an integer can be written out.  Only decimal digits are limited in number. -/
def checkWritable (conversion : Char) (i : Int) : Except Fault Unit :=
  if (Piece.baseOf conversion).1 = 10 && !isWritable i then .error (.text .tooManyDigits)
  else .ok ()

/-- Whether a text can be as wide as a directive asks. -/
def checkRoom (room : Nat) : Except Fault Unit :=
  if Text.lengthLimit ≤ room then .error .outOfMemory else .ok ()

/-- A value as a directive shows it; `position` is the place of the conversion. -/
def convert (d : Directive) (conversion : Char) (position : Nat) (width : Int)
    (precision : Option Nat) (v : Json) : Except Fault (List Char) :=
  let left := d.alignsLeft || width < 0
  let room := width.natAbs
  match textFor? conversion v with
  | some text => do
    let s ← text
    checkRoom room
    return Piece.layText room left (precision.elim s s.take)
  | none =>
    if isIntegerConversion conversion then do
      let i ← integerFor conversion v
      checkDigits (precision.getD 0)
      checkWritable conversion i
      checkRoom room
      return Piece.layNumber d room left (.ofInteger d conversion (precision.getD 0) i)
    else if isNumberConversion conversion then do
      let x ← numberFor v
      checkRoom room
      return Piece.layNumber d room left (.ofNumber d conversion precision x)
    else if conversion = 'c' then do
      let s ← characterFor v
      checkRoom room
      return Piece.layText room left s
    else .error (.unsupported conversion position)

/-- The text of a directive, and the arguments that are left. -/
def apply (a : Arguments) (d : Directive) (position : Nat) :
    Except Fault (List Char × Arguments) := do
  let s ← takeKey a d.key
  let (width, s) ← takeWidth s d.width
  let (precision, s) ← takePrecision s d.precision
  match d.conversion with
  | none => .error .incomplete
  | some c =>
    let (v, s) ← s.next
    let text ← convert d c position width precision v
    return (text, { a with source := s })

/-! ## Templates -/

/-- Fill a template of which `total` characters were there at first. -/
def fillFrom (total : Nat) (a : Arguments) (s : List Char) : Except Fault (List Char × Arguments) :=
  match s with
  | [] => .ok ([], a)
  | '%' :: '%' :: r =>
    match fillFrom total a r with
    | .error e => .error e
    | .ok (more, a) => .ok ('%' :: more, a)
  | '%' :: r =>
    let (d, rest) := scan r
    match apply a d (total - (rest.length + 1)) with
    | .error e => .error e
    | .ok (text, a) =>
      match fillFrom total a (scan r).2 with
      | .error e => .error e
      | .ok (more, a) => .ok (text ++ more, a)
  | c :: r =>
    match fillFrom total a r with
    | .error e => .error e
    | .ok (more, a) => .ok (c :: more, a)
  termination_by s.length
  decreasing_by
    · simp only [List.length_cons]
      omega
    · have := length_scan_le r
      simp only [List.length_cons]
      omega
    · simp

def fill (template : String) (values : List Json) : Except Fault String :=
  let s := template.toList
  match fillFrom s.length (.ofRow values) s with
  | .error e => .error e
  | .ok (text, a) =>
    if a.mapping.isNone && !a.source.spent then .error .notAll else .ok (String.ofList text)

theorem fillFrom_plain (total : Nat) (a : Arguments) (s : List Char) (h : '%' ∉ s) :
    fillFrom total a s = .ok (s, a) := by
  induction s with
  | nil => rw [fillFrom]
  | cons c r ih =>
    simp only [List.mem_cons, not_or] at h
    rw [fillFrom, ih h.2]
    · rintro r' hc
      exact absurd hc.symm h.1
    · intro hc
      exact absurd hc.symm h.1

/-- A text without percent signs is its own filling. -/
theorem fill_plain (template : String) (h : '%' ∉ template.toList) :
    fill template [] = .ok template := by
  simp [fill, fillFrom_plain _ _ _ h, Arguments.ofRow, Source.spent]

end Logwire.Template
