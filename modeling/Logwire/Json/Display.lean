import Logwire.Json.Basic
import Logwire.Number.Decimal
import Logwire.Text.Quoted

/-!
# Logwire.Json.Display

The text of a JSON value where it stands for a string.  A string is its own
text; inside an array or an object it is quoted.

A value other than a string need not have a text: an integer in it may have too
many digits, and values may lie too deep within each other.  What is met first
from left to right is the cause, `textFault?`.
-/

namespace Logwire

open Number

/-- The shortest text of a double precision number. -/
def Number.Binary64.text : Binary64 → String
  | .nan => "nan"
  | .infinite negative => if negative then "-inf" else "inf"
  | .finite negative exponent fraction =>
    let digits := shortestText exponent fraction
    String.ofList (if negative then '-' :: digits else digits)

namespace Json

mutual

/-- The text of a value in which `quote` puts strings between quotes. -/
def literalWith (quote : String → String) : Json → String
  | .null => "None"
  | .bool b => if b then "True" else "False"
  | .int i => intText i
  | .num x => x.text
  | .str s => quote s
  | .arr items => "[" ++ ", ".intercalate (literalItems quote items) ++ "]"
  | .obj members => "\x7b" ++ ", ".intercalate (literalMembers quote members) ++ "\x7d"

/-- The texts of the items of an array. -/
def literalItems (quote : String → String) : List Json → List String
  | [] => []
  | v :: rest => literalWith quote v :: literalItems quote rest

/-- The texts of the members of an object. -/
def literalMembers (quote : String → String) : List (String × Json) → List String
  | [] => []
  | (name, v) :: rest =>
    (quote name ++ ": " ++ literalWith quote v) :: literalMembers quote rest

end

/-- The text of a value with strings in quotes. -/
def literal (v : Json) : String := literalWith Text.quoted v

/-- The text of a value where it stands for a string. -/
def display : Json → String
  | .str s => s
  | v => literal v

/-! ## Values without a text -/

/-- Why a value has no text. -/
inductive TextFault where
  | tooManyDigits
  | tooDeep
  deriving DecidableEq, Repr

def TextFault.message : TextFault → String
  | tooManyDigits => notWritableMessage
  | tooDeep => "maximum recursion depth exceeded while getting the repr of an object"

mutual

/-- Why a value has no text, if it has none, with room for so many values within each other. -/
def textFault? (room : Nat) (v : Json) : Option TextFault :=
  match room with
  | 0 => some .tooDeep
  | room + 1 =>
    match v with
    | .int i => if isWritable i then none else some .tooManyDigits
    | .arr items => itemsFault? room items
    | .obj members => membersFault? room members
    | _ => none
  termination_by structural v

def itemsFault? (room : Nat) (items : List Json) : Option TextFault :=
  match items with
  | [] => none
  | v :: rest => (textFault? room v).or (itemsFault? room rest)
  termination_by structural items

/-- The first cause among the values of members. -/
def membersFault? (room : Nat) (members : List (String × Json)) : Option TextFault :=
  match members with
  | [] => none
  | (_, v) :: rest => (textFault? room v).or (membersFault? room rest)
  termination_by structural members

end

/-- The most values within each other that a text shows. -/
def shownLimit : Nat := 988

/-- The text of a value where it stands for a string, if it has one. -/
def displayWithin (room : Nat) : Json → Except TextFault String
  | .str s => .ok s
  | v =>
    match textFault? room v with
    | some e => .error e
    | none => .ok v.literal

end Json

end Logwire
