import Logwire.Json.Display

/-!
# Logwire.Json.Writer

JSON values as text in ASCII, on one line:

```
{"name": value, "name": [value, value]}
```

A comma and a colon are each followed by one space.  Strings escape the quote,
the backslash and every character outside the printable ASCII range; a character
beyond the basic plane is written as a surrogate pair.  The data that are not
finite are written `NaN`, `Infinity` and `-Infinity`.  A value with an integer of
too many digits has no text that can be written (`hasText`).
-/

namespace Logwire.Json

open Number

/-- A code unit by its four hexadecimal digits. -/
def unitEscape (n : Nat) : List Char := '\\' :: 'u' :: Text.hexFixed 4 n

def unicodeEscape (c : Char) : List Char :=
  if c.toNat < 0x10000 then unitEscape c.toNat
  else
    let n := c.toNat - 0x10000
    unitEscape (0xd800 + n / 0x400) ++ unitEscape (0xdc00 + n % 0x400)

def escapeChar (c : Char) : List Char :=
  if c = '"' then ['\\', '"']
  else if c = '\\' then ['\\', '\\']
  else if c = '\n' then ['\\', 'n']
  else if c = '\r' then ['\\', 'r']
  else if c = '\t' then ['\\', 't']
  else if c = '\x08' then ['\\', 'b']
  else if c = '\x0c' then ['\\', 'f']
  else if 0x20 ≤ c.toNat ∧ c.toNat ≤ 0x7e then [c]
  else unicodeEscape c

def writeText (s : List Char) : List Char := '"' :: s.flatMap escapeChar ++ ['"']

def writeNumber : Binary64 → List Char
  | .nan => "NaN".toList
  | .infinite negative => if negative then "-Infinity".toList else "Infinity".toList
  | .finite negative exponent fraction =>
    let digits := shortestText exponent fraction
    if negative then '-' :: digits else digits

mutual

def writeChars : Json → List Char
  | .null => "null".toList
  | .bool b => if b then "true".toList else "false".toList
  | .int i => intDigits i
  | .num x => writeNumber x
  | .str s => writeText s.toList
  | .arr [] => ['[', ']']
  | .arr (v :: rest) => '[' :: writeChars v ++ writeItems rest
  | .obj [] => ['{', '}']
  | .obj ((name, v) :: rest) =>
    '{' :: writeText name.toList ++ ':' :: ' ' :: writeChars v ++ writeMembers rest

/-- The items after the first, and the closing bracket. -/
def writeItems : List Json → List Char
  | [] => [']']
  | v :: rest => ',' :: ' ' :: writeChars v ++ writeItems rest

/-- The members after the first, and the closing brace. -/
def writeMembers : List (String × Json) → List Char
  | [] => ['}']
  | (name, v) :: rest =>
    ',' :: ' ' :: writeText name.toList ++ ':' :: ' ' :: writeChars v ++ writeMembers rest

end

def write (v : Json) : String := String.ofList (writeChars v)

mutual

/-- Whether a value can be written: none of its integers has too many digits. -/
def hasText : Json → Bool
  | .int i => isWritable i
  | .arr items => itemsHaveText items
  | .obj ms => membersHaveText ms
  | _ => true

def itemsHaveText : List Json → Bool
  | [] => true
  | v :: rest => hasText v && itemsHaveText rest

/-- Whether the values of all members can be written. -/
def membersHaveText : List (String × Json) → Bool
  | [] => true
  | (_, v) :: rest => hasText v && membersHaveText rest

end

end Logwire.Json
