import Logwire.Failure.Arguments
import Logwire.Json.Coercion
import Logwire.Text.Length

/-!
# Logwire.Failure.Excerpt

The excerpt in a report of an error in a program text:

```
  File "name", line n
    the line, without its margin
        ^^^^
```

The marks stand below the columns of the error, which are counted from one and
shifted with the line.  They are left out where there is no column, and where it
lies in the margin.  All values are shown as they are given, whatever their
kinds, so that some excerpts cannot be made.

* `length_markRow` — marks begin below the column of the error.
-/

namespace Logwire

open Number

/-- Why an excerpt cannot be made. -/
inductive ExcerptFault where
  /-- A value of this kind is no line to be trimmed. -/
  | notLine (kind : String)
  /-- A value of this kind is looked for among columns. -/
  | unhashable (kind : String)
  /-- To a value of this kind one cannot be added. -/
  | noSum (kind : String)
  /-- From a value of this kind one cannot be taken. -/
  | noDifference (kind : String)
  /-- The first column is no integer. -/
  | brokenStart
  /-- The last column is no integer. -/
  | brokenEnd
  | startTooLarge
  | tooManyMarks
  | outOfMemory
  /-- A value that is shown has no text. -/
  | text (fault : Json.TextFault)
  deriving DecidableEq, Repr

namespace ExcerptFault

/-- The wording for an operation between a value of this kind and an integer. -/
def unsupported (operation : Char) (kind : String) : String :=
  "unsupported operand type(s) for " ++ String.ofList [operation] ++ ": '" ++ kind ++ "' and 'int'"

def message : ExcerptFault → String
  | notLine kind => "'" ++ kind ++ "' object has no attribute 'rstrip'"
  | unhashable kind => "unhashable type: '" ++ kind ++ "'"
  | noSum kind =>
    if kind = (Json.obj []).kind then unsupported '+' kind
    else "can only concatenate " ++ kind ++ " (not \"int\") to " ++ kind
  | noDifference kind => unsupported '-' kind
  | brokenStart => "slice indices must be integers or None or have an __index__ method"
  | brokenEnd => "can't multiply sequence by non-int of type 'float'"
  | startTooLarge => CoercionFault.integerTooLarge.message
  | tooManyMarks => ArgumentFault.countTooLarge.message
  | outOfMemory => ""
  | text e => e.message

/-- A value that is to be shown. -/
def check (v : Json) : Except ExcerptFault Unit :=
  match v.textFault? Json.shownLimit with
  | some e => .error (.text e)
  | none => .ok ()

end ExcerptFault

/-- Where an error in a program text stands, each value as it is given. -/
structure SourceSpot where
  file : Json
  line : Json
  column : Json
  text : Json
  endLine : Json := .null
  endColumn : Json := .null

namespace SourceSpot

/-- The spot that a row of values tells. -/
def ofRow? : List Json → Option SourceSpot
  | [file, line, column, text] => some { file, line, column, text }
  | [file, line, column, text, endLine, endColumn] =>
    some { file, line, column, text, endLine, endColumn }
  | _ => none

/-! ## Columns -/

/-- A column: an integer, or a double precision number, of which nothing is needed but where it
lies. -/
inductive Column where
  | whole (i : Int)
  | broken (value : Option Measure)
  deriving DecidableEq, Repr

def columnOf : Json → Except ExcerptFault Column
  | .bool b => .ok (.whole b.toInt)
  | .int i => .ok (.whole i)
  | .num x => .ok (.broken (Measure.ofBinary64? x))
  | v => .error (.noDifference v.kind)

/-- The column after a value. -/
def columnAfter : Json → Except ExcerptFault Column
  | .bool b => .ok (.whole (b.toInt + 1))
  | .int i => .ok (.whole (i + 1))
  | .num x => .ok (.broken (Measure.ofBinary64? x))
  | v => .error (.noSum v.kind)

/-- Whether a column is at least the given one. -/
def Column.atLeast (n : Nat) : Column → Bool
  | .whole i => (n : Int) ≤ i
  | .broken value => value.any (Measure.atLeast n)

/-- Whether a column and the end that is given are the same.  A column is the same as itself unless
it is a NaN. -/
def isSame (column : Json) : Json → Bool
  | .str s =>
    match column with
    | .str t => s = t
    | _ => false
  | v => v.measure?.isSome && v.measure? = column.measure?

/-- A value that is there and not zero. -/
def endGiven (v : Json) : Bool :=
  match v with
  | .null => false
  | _ => v.measure? ≠ some (.whole 0)

/-- The column behind the error.  An end that is missing, equal to the column or minus one is the
column after it. -/
def endOf (column endColumn : Json) : Except ExcerptFault Column :=
  match endColumn with
  | .arr items => .error (.unhashable (Json.arr items).kind)
  | .obj members => .error (.unhashable (Json.obj members).kind)
  | _ =>
    if !endGiven endColumn || isSame column endColumn
        || endColumn.measure? = some (.whole (-1)) then
      columnAfter column
    else
      match columnOf column with
      | .error e => .error e
      | .ok _ => columnOf endColumn

/-! ## Marks -/

/-- A mark below each character of the error. -/
def mark : Char := '^'

/-- Blanks as wide as the line before a column, which keep the blank characters of the line, and
then marks. -/
def markRow (line : List Char) (start marks : Nat) : List Char :=
  (line.take start).map (fun c => if Text.isBlank c then c else ' ') ++ List.replicate marks mark

/-- The marks stand behind a prefix of the line. -/
theorem length_markRow (line : List Char) (start marks : Nat) :
    (markRow line start marks).length = min start line.length + marks := by
  simp [markRow]

/-- A number of marks that a text can hold; none for a negative number. -/
def marksOf (n : Int) : Except ExcerptFault Nat :=
  if n < -((1 <<< 63 : Nat) : Int) ∨ ((1 <<< 63 : Nat) : Int) ≤ n then .error .tooManyMarks
  else if Text.lengthLimit ≤ n.toNat then .error .outOfMemory
  else .ok n.toNat

/-- The marks below a line that begins `margin` characters behind its first column. -/
def marks (margin : Nat) (line : List Char) (column endColumn : Json) :
    Except ExcerptFault (Option (List Char)) := do
  let stop ← endOf column endColumn
  let start ← columnOf column
  if !start.atLeast (margin + 1) then return none
  match start, stop with
  | .broken _, _ => .error .brokenStart
  | .whole first, .broken _ =>
    .error (if (Binary64.ofInt? (first - 1 - margin)).isSome then .brokenEnd else .startTooLarge)
  | .whole first, .whole last =>
    let n ← marksOf (last - first)
    return some (markRow line (first - 1 - margin).toNat n)

/-! ## Excerpt -/

def isMargin (c : Char) : Bool := c == ' ' || c == '\n' || c == '\x0c'

def rowText (s : List Char) : String := "    " ++ String.ofList s ++ "\n"

/-- The line of an error and the marks below it. -/
def textRows (s : SourceSpot) : Except ExcerptFault String :=
  match s.text with
  | .null => .ok ""
  | .str text =>
    let trimmed := Text.trimEnd (· == '\n') text.toList
    let line := trimmed.dropWhile isMargin
    match s.column with
    | .null => .ok (rowText line)
    | column =>
      match marks (trimmed.length - line.length) line column s.endColumn with
      | .error e => .error e
      | .ok none => .ok (rowText line)
      | .ok (some row) => .ok (rowText line ++ rowText row)
  | v => .error (.notLine v.kind)

/-- What stands for the name of a file that is not given. -/
def unnamedFile : String := "<string>"

/-- The place of an error, if it has a line. -/
def placeRow (s : SourceSpot) : String :=
  match s.line with
  | .null => ""
  | line =>
    "  File \"" ++ (if s.file.isGiven then s.file.display else unnamedFile) ++ "\", line "
      ++ line.display ++ "\n"

/-- The file of an error without a line, which stands behind the text of the error. -/
def fileSuffix (s : SourceSpot) : String :=
  match s.line, s.file with
  | .null, .null => ""
  | .null, file => " (" ++ file.display ++ ")"
  | _, _ => ""

/-- The excerpt of an error.  The line of the end is not shown, but it must have a text too. -/
def excerpt (s : SourceSpot) : Except ExcerptFault String := do
  ExcerptFault.check s.line
  ExcerptFault.check s.endLine
  ExcerptFault.check s.file
  let rows ← s.textRows
  return s.placeRow ++ rows

end SourceSpot

end Logwire
