import Logwire.Text.Digit

/-!
# Logwire.Template.Directive

The directives of a message template.

```
% [(key)] [flags] [width] [.precision] [h | l | L] conversion
```

The flags are any of `-`, `+`, space, `#` and `0`.  Width and precision are
digits, or `*` for a number among the arguments.  A directive may be cut short
by the end of the template; what is there is kept all the same.

* `length_scan_le` — what is left after a directive is no longer than before.
-/

namespace Logwire.Template

open Text

/-- The key of a directive. -/
inductive Key where
  | absent
  | named (name : List Char)
  /-- A bracket is opened and not closed. -/
  | unclosed
  deriving DecidableEq, Repr

/-- A width or a precision. -/
inductive Count where
  | absent
  | fixed (n : Nat)
  | argument
  deriving DecidableEq, Repr

/-- A directive.  The conversion is missing at the end of a template. -/
structure Directive where
  key : Key
  flags : List Char
  width : Count
  precision : Count
  conversion : Option Char
  deriving DecidableEq, Repr

namespace Directive

/-- Pad on the right. -/
def alignsLeft (d : Directive) : Bool := d.flags.contains '-'

/-- Write the sign of a number that is not negative. -/
def showsSign (d : Directive) : Bool := d.flags.contains '+'

/-- Leave room for the sign of a number that is not negative. -/
def leavesRoom (d : Directive) : Bool := d.flags.contains ' '

/-- Write the base of an integer, and the point of a number always. -/
def alternate (d : Directive) : Bool := d.flags.contains '#'

def padsZero (d : Directive) : Bool := d.flags.contains '0'

end Directive

/-! ## Reading -/

/-- The characters up to the bracket that closes `depth` brackets and one more. -/
def scanKeyName (depth : Nat) : List Char → Option (List Char × List Char)
  | [] => none
  | c :: r =>
    if c = ')' ∧ depth = 0 then some ([], r)
    else
      let depth := if c = ')' then depth - 1 else if c = '(' then depth + 1 else depth
      match scanKeyName depth r with
      | some (name, rest) => some (c :: name, rest)
      | none => none

/-- Reads a key, if there is one. -/
def scanKey (s : List Char) : Key × List Char :=
  match s with
  | '(' :: r =>
    match scanKeyName 0 r with
    | some (name, rest) => (.named name, rest)
    | none => (.unclosed, [])
  | _ => (.absent, s)

def isFlag (c : Char) : Bool := c == '-' || c == '+' || c == ' ' || c == '#' || c == '0'

/-- Reads a width or the digits of a precision. -/
def scanCount (s : List Char) : Count × List Char :=
  match s with
  | '*' :: r => (.argument, r)
  | _ =>
    let digits := s.takeWhile isAsciiDigit
    if digits.isEmpty then (.absent, s)
    else (.fixed (decimalValue digits), s.dropWhile isAsciiDigit)

/-- Reads a precision; a point alone is the precision zero. -/
def scanPrecision (s : List Char) : Count × List Char :=
  match s with
  | '.' :: r =>
    match (scanCount r).1 with
    | .absent => (.fixed 0, r)
    | n => (n, (scanCount r).2)
  | _ => (.absent, s)

/-- Reads over a size, which has no meaning. -/
def skipSize (s : List Char) : List Char :=
  match s with
  | c :: r => if c = 'h' || c = 'l' || c = 'L' then r else s
  | [] => []

/-- Reads a directive after its percent sign. -/
def scan (s : List Char) : Directive × List Char :=
  let key := scanKey s
  let afterFlags := key.2.dropWhile isFlag
  let width := scanCount afterFlags
  let precision := scanPrecision width.2
  let last := skipSize precision.2
  (⟨key.1, key.2.takeWhile isFlag, width.1, precision.1, last.head?⟩, last.tail)

/-! ## Lengths -/

theorem length_scanKeyName_lt {depth : Nat} {s name rest : List Char}
    (h : scanKeyName depth s = some (name, rest)) : rest.length < s.length := by
  induction s generalizing depth name rest with
  | nil => simp [scanKeyName] at h
  | cons c r ih =>
    simp only [scanKeyName] at h
    split at h
    · obtain ⟨-, rfl⟩ := by simpa using h
      simp
    · split at h
      · rename_i name' rest' hr
        obtain ⟨-, rfl⟩ := by simpa using h
        have := ih hr
        simp only [List.length_cons]
        omega
      · simp at h

theorem length_scanKey_le (s : List Char) : (scanKey s).2.length ≤ s.length := by
  unfold scanKey
  split
  · split
    · rename_i hn
      have := length_scanKeyName_lt hn
      simp only [List.length_cons]
      omega
    · simp
  · simp

theorem length_scanCount_le (s : List Char) : (scanCount s).2.length ≤ s.length := by
  unfold scanCount
  split
  · simp
  · simp only
    split
    · simp
    · exact (List.dropWhile_sublist _).length_le

theorem length_scanPrecision_le (s : List Char) : (scanPrecision s).2.length ≤ s.length := by
  unfold scanPrecision
  split
  · rename_i r
    have := length_scanCount_le r
    split
    · simp
    · simp only [List.length_cons]
      omega
  · simp

theorem length_skipSize_le (s : List Char) : (skipSize s).length ≤ s.length := by
  unfold skipSize
  split
  · split <;> simp
  · simp

/-- What is left after a directive is no longer than what was there. -/
theorem length_scan_le (s : List Char) : (scan s).2.length ≤ s.length := by
  have h1 := length_scanKey_le s
  have h2 := (List.dropWhile_sublist isFlag (l := (scanKey s).2)).length_le
  have h3 := length_scanCount_le ((scanKey s).2.dropWhile isFlag)
  have h4 := length_scanPrecision_le (scanCount ((scanKey s).2.dropWhile isFlag)).2
  have h5 := length_skipSize_le (scanPrecision (scanCount ((scanKey s).2.dropWhile isFlag)).2).2
  simp only [scan, List.length_tail]
  omega

end Logwire.Template
