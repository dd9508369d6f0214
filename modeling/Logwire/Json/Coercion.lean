import Logwire.Json.Display
import Logwire.Number.Numeral

/-!
# Logwire.Json.Coercion

Taking a JSON value for an integer or for a double precision number.

Booleans count as 0 and 1, strings are read as numerals, and a double precision
number becomes an integer by dropping its fraction.  Every other value has no
number; the cause says why.
-/

namespace Logwire

open Number

/-- Why a value is not the number that is wanted. -/
inductive CoercionFault where
  /-- A value of this kind is never an integer. -/
  | notInteger (kind : String)
  /-- A value of this kind is never a double precision number. -/
  | notNumber (kind : String)
  | badInteger (text : String)
  | badNumber (text : String)
  | tooManyDigits (count : Nat)
  | nanToInteger
  | infinityToInteger
  | integerTooLarge
  deriving DecidableEq, Repr

namespace CoercionFault

/-- At most this much of a malformed numeral is shown. -/
def shownDigits : Nat := 200

def message : CoercionFault → String
  | notInteger kind =>
    "int() argument must be a string, a bytes-like object or a real number, not '" ++ kind ++ "'"
  | notNumber kind => "float() argument must be a string or a real number, not '" ++ kind ++ "'"
  | badInteger text =>
    "invalid literal for int() with base 10: "
      ++ String.ofList ((Text.quoted text).toList.take shownDigits)
  | badNumber text => "could not convert string to float: " ++ Text.quoted text
  | tooManyDigits count => tooLongMessage count
  | nanToInteger => "cannot convert float NaN to integer"
  | infinityToInteger => "cannot convert float infinity to integer"
  | integerTooLarge => "int too large to convert to float"

/-- The value has the wrong kind altogether. -/
def isKind : CoercionFault → Bool
  | notInteger _ => true
  | notNumber _ => true
  | _ => false

/-- The value is a number beyond the range of the target. -/
def isRange : CoercionFault → Bool
  | infinityToInteger => true
  | integerTooLarge => true
  | _ => false

end CoercionFault

def integerOfText (s : String) : Except CoercionFault Int :=
  match readInteger s.toList with
  | .ok i => .ok i
  | .error .malformed => .error (.badInteger s)
  | .error (.tooLong count) => .error (.tooManyDigits count)

/-- A text as a double precision number. -/
def numberOfText (s : String) : Except CoercionFault Binary64 :=
  match readBinary64 s.toList with
  | some x => .ok x
  | none => .error (.badNumber s)

namespace Json

/-- A double precision number as an integer, its fraction dropped. -/
def integerOfNumber : Binary64 → Except CoercionFault Int
  | .nan => .error .nanToInteger
  | .infinite _ => .error .infinityToInteger
  | .finite negative exponent fraction => .ok (Binary64.truncate negative exponent fraction)

/-- An integer as a double precision number. -/
def numberOfInteger (i : Int) : Except CoercionFault Binary64 :=
  match Binary64.ofInt? i with
  | some x => .ok x
  | none => .error .integerTooLarge

def toInteger : Json → Except CoercionFault Int
  | .bool b => .ok b.toInt
  | .int i => .ok i
  | .num x => integerOfNumber x
  | .str s => integerOfText s
  | v => .error (.notInteger v.kind)

/-- A value as a double precision number. -/
def toNumber : Json → Except CoercionFault Binary64
  | .bool b => numberOfInteger b.toInt
  | .int i => numberOfInteger i
  | .num x => .ok x
  | .str s => numberOfText s
  | v => .error (.notNumber v.kind)

end Json

end Logwire
