import Logwire.Text.Printable

/-!
# Logwire.Text.Quoted

Quoted texts, as they stand in error messages and in the display of values.

A text is put between apostrophes, or between double quotes when it holds an
apostrophe and no double quote.  Inside, the backslash and the chosen quote
are escaped, tab, line feed and carriage return have letters of their own, and
every other character that is not printable is written by its code point in
two, four or eight hexadecimal digits.
-/

namespace Logwire.Text

def hexDigit (n : Nat) : Char := "0123456789abcdef".toList.getD (n % 16) '0'

/-- The last `width` hexadecimal digits of a number. -/
def hexFixed : Nat → Nat → List Char
  | 0, _ => []
  | width + 1, n => hexFixed width (n / 16) ++ [hexDigit n]

theorem length_hexFixed (width n : Nat) : (hexFixed width n).length = width := by
  induction width generalizing n with
  | zero => rfl
  | succ width ih => simp [hexFixed, ih]

/-- A character by its code point, in the shortest of the three fixed widths. -/
def codePointEscape (c : Char) : List Char :=
  if c.toNat < 0x100 then '\\' :: 'x' :: hexFixed 2 c.toNat
  else if c.toNat < 0x10000 then '\\' :: 'u' :: hexFixed 4 c.toNat
  else '\\' :: 'U' :: hexFixed 8 c.toNat

/-- A character of a quoted text; `shown` tells the characters that stand for themselves. -/
def quoteChar (shown : Char → Bool) (mark c : Char) : List Char :=
  if c = mark || c = '\\' then ['\\', c]
  else if c = '\t' then ['\\', 't']
  else if c = '\n' then ['\\', 'n']
  else if c = '\r' then ['\\', 'r']
  else if shown c then [c]
  else codePointEscape c

/-- The quote that surrounds a text. -/
def quoteMark (s : List Char) : Char :=
  if s.contains '\x27' && !s.contains '"' then '"' else '\x27'

def quoteWith (shown : Char → Bool) (s : List Char) : List Char :=
  let mark := quoteMark s
  mark :: s.flatMap (quoteChar shown mark) ++ [mark]

/-- A text in quotes, showing every printable character as itself. -/
def quoted (s : String) : String := String.ofList (quoteWith isPrintable s.toList)

/-- A text in quotes, in ASCII only. -/
def quotedAscii (s : String) : String :=
  String.ofList (quoteWith (fun c => isPrintable c && c.toNat < 0x80) s.toList)

end Logwire.Text
