import Logwire.Text.Digit
import Logwire.Text.Quoted
import Logwire.Time.Moment

/-!
# Logwire.Time.Rfc3339

Reading RFC 3339 timestamps.

```
YYYY-MM-DD T hh:mm:ss [.fraction] zone        zone = Z or +hh:mm or -hh:mm
```

The letters may be small, and one line feed may follow.  The pattern takes
decimal digits of any script, but the digits that carry the value, six of the
fraction included, must be ASCII.  `isSyslogTimestamp` is the narrower form
that goes on the wire unchanged: capital letters and at most six digits in the
fraction.
-/

namespace Logwire.Time

open Text

/-! ## Pattern -/

/-- Reads one character for each class of a pattern. -/
def matchShape : List (Char → Bool) → List Char → Option (List Char × List Char)
  | [], s => some ([], s)
  | _ :: _, [] => none
  | p :: ps, c :: s =>
    if p c then
      match matchShape ps s with
      | some (front, rest) => some (c :: front, rest)
      | none => none
    else none

def twoDigits : List (Char → Bool) := [isDecimal, isDecimal]

/-- The pattern of date and time. -/
def baseShape : List (Char → Bool) :=
  twoDigits ++ twoDigits ++ (· == '-') :: twoDigits ++ (· == '-') :: twoDigits
    ++ (fun c => c == 'T' || c == 't') :: twoDigits ++ (· == ':') :: twoDigits
    ++ (· == ':') :: twoDigits

/-- The pattern of a zone in numbers. -/
def zoneShape : List (Char → Bool) :=
  (fun c => c == '+' || c == '-') :: twoDigits ++ (· == ':') :: twoDigits

/-- The parts of a timestamp: nineteen characters of date and time, the digits of the fraction,
and the zone. -/
structure Parts where
  base : List Char
  fraction : List Char
  zone : List Char
  deriving DecidableEq, Repr

/-- A point and at least one digit, if the text goes on so. -/
def scanFraction (s : List Char) : List Char × List Char :=
  match s with
  | '.' :: r =>
    if (r.takeWhile isDecimal).isEmpty then ([], s)
    else (r.takeWhile isDecimal, r.dropWhile isDecimal)
  | _ => ([], s)

def scanZone (s : List Char) : Option (List Char × List Char) :=
  match s with
  | 'Z' :: r => some (['Z'], r)
  | 'z' :: r => some (['z'], r)
  | _ => matchShape zoneShape s

/-- The end of a text, perhaps after a line feed. -/
def atEnd (s : List Char) : Bool := s = [] || s = ['\n']

/-- The parts of a text that has the form of a timestamp. -/
def Parts.scan? (s : List Char) : Option Parts :=
  match matchShape baseShape s with
  | none => none
  | some (base, r) =>
    let fraction := scanFraction r
    match scanZone fraction.2 with
    | none => none
    | some (zone, rest) => if atEnd rest then some ⟨base, fraction.1, zone⟩ else none

/-! ## Value -/

/-- Digits of the fraction that count. -/
def fractionDigits : Nat := 6

namespace Parts

/-- The digits of the fraction that count, filled up with zeros. -/
def microsecondDigits (p : Parts) : List Char :=
  let front := p.fraction.take fractionDigits
  front ++ List.replicate (fractionDigits - front.length) '0'

/-- The timestamp in its plain form: a capital T, six digits of a fraction, a zone in numbers. -/
def plain (p : Parts) : List Char :=
  p.base.map (fun c => if c = 't' then 'T' else c)
    ++ (if p.fraction.isEmpty then [] else '.' :: p.microsecondDigits)
    ++ (if p.zone = ['Z'] || p.zone = ['z'] then "+00:00".toList else p.zone)

/-- The number in two places of the date and time. -/
def numberAt (p : Parts) (start count : Nat) : Nat := decimalValue ((p.base.drop start).take count)

/-- The offset of the zone in seconds. -/
def offset (p : Parts) : Int :=
  match p.zone with
  | sign :: rest =>
    let seconds : Int :=
      (decimalValue (rest.take 2) * 3600 + decimalValue ((rest.drop 3).take 2) * 60 : Nat)
    if sign = '-' then -seconds else seconds
  | [] => 0

/-- The fields that the parts denote. -/
def fields (p : Parts) : Fields :=
  ⟨p.numberAt 0 4, p.numberAt 5 2, p.numberAt 8 2, p.numberAt 11 2, p.numberAt 14 2,
    p.numberAt 17 2, decimalValue p.microsecondDigits, some p.offset⟩

end Parts

/-! ## Timestamps -/

/-- Why a text is no timestamp. -/
inductive TimestampFault where
  /-- It does not have the form of one. -/
  | malformed (text : String)
  /-- It has digits that are not ASCII; the text is the plain form. -/
  | notAscii (plain : String)
  | field (fault : FieldFault)
  deriving DecidableEq, Repr

def TimestampFault.message : TimestampFault → String
  | .malformed text => "not an RFC 3339 timestamp: " ++ quoted text
  | .notAscii text => "Invalid isoformat string: " ++ quoted text
  | .field fault => fault.message

def parseRfc3339 (text : String) : Except TimestampFault Moment :=
  match Parts.scan? text.toList with
  | none => .error (.malformed text)
  | some p =>
    if p.plain.all (·.toNat < 0x80) then
      match p.fields.moment with
      | .ok m => .ok m
      | .error e => .error (.field e)
    else .error (.notAscii (String.ofList p.plain))

def isRfc3339 (text : String) : Bool := (parseRfc3339 text).isOk

/-- The parts have the form that goes on the wire. -/
def Parts.isNarrow (p : Parts) : Bool :=
  p.base.getD 10 'T' == 'T' && p.fraction.length ≤ fractionDigits && p.zone ≠ ['z']

/-- Whether a text is a timestamp that goes on the wire unchanged. -/
def isSyslogTimestamp (text : String) : Bool :=
  match Parts.scan? text.toList with
  | none => false
  | some p => p.isNarrow && isRfc3339 text

end Logwire.Time
