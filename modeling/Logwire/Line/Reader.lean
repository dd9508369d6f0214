import Logwire.Line.Writer
import Logwire.Number.Numeral
import Logwire.Text.Digit

/-!
# Logwire.Line.Reader

Reading the line of a record back.

The fields of the header are separated by one space each and hold no blanks.
Structured data is nil or a row of elements, of which only the library's own
are kept.  The text begins after the space behind the data; a byte order mark
at its beginning is dropped.
-/

namespace Logwire

open Number Text Time

namespace Line

/-! ## Faults -/

/-- Why a text is not the line of a record. -/
inductive LineFault where
  /-- It has no header. -/
  | header (text : String)
  | priority (value : Nat)
  | timestamp (text : String)
  | noData
  | data (fault : ScanFault)
  | metricValue (text : String)
  | noSpace
  deriving DecidableEq, Repr

def LineFault.message : LineFault → String
  | .header text => "not an RFC 5424 message: " ++ quoted text
  | .priority n => "invalid PRI value: " ++ toString n
  | .timestamp text => "invalid timestamp: " ++ text
  | .noData => "missing structured data field"
  | .data e => e.message
  | .metricValue text => "invalid " ++ metricId ++ " Value: " ++ text
  | .noSpace => "structured data not followed by a space"

/-! ## Header -/

/-- The fields of a header, and what follows the space behind it. -/
structure Header where
  priority : List Char
  version : List Char
  timestamp : List Char
  hostName : List Char
  application : List Char
  process : List Char
  messageId : List Char
  rest : List Char
  deriving DecidableEq, Repr

/-- Reads a row of one to `most` decimal digits and the character behind it. -/
def scanNumber (most : Nat) (stop : Char) (s : List Char) : Option (List Char × List Char) :=
  let digits := s.takeWhile isDecimal
  match s.dropWhile isDecimal with
  | c :: r =>
    if c = stop ∧ 1 ≤ digits.length ∧ digits.length ≤ most then some (digits, r) else none
  | [] => none

/-- Reads a field and the space behind it. -/
def scanField (s : List Char) : Option (List Char × List Char) :=
  let field := s.takeWhile fun c => !isBlank c
  match s.dropWhile fun c => !isBlank c with
  | ' ' :: r => if field.isEmpty then none else some (field, r)
  | _ => none

def scanHeader (s : List Char) : Option Header := do
  let s ← match s with
    | '<' :: r => some r
    | _ => none
  let (priority, s) ← scanNumber 3 '>' s
  let (version, s) ← scanNumber 2 ' ' s
  let (timestamp, s) ← scanField s
  let (hostName, s) ← scanField s
  let (application, s) ← scanField s
  let (process, s) ← scanField s
  let (messageId, rest) ← scanField s
  return ⟨priority, version, timestamp, hostName, application, process, messageId, rest⟩

/-- The text of a field, empty when it is nil. -/
def unNil (field : List Char) : String := if field = nilText.toList then "" else String.ofList field

/-- The greatest priority: facility 23 and severity 7. -/
def maxPriority : Nat := 191

/-- The timestamp of a header, empty when it is nil. -/
def readTimestamp (field : List Char) : Except LineFault String :=
  if field = nilText.toList then .ok ""
  else
    let text := wireTimestamp (String.ofList field)
    if text = nilText then .error (.timestamp (String.ofList field)) else .ok text

/-! ## Elements -/

/-- The text of a parameter, if it is there. -/
def paramText (ps : Members String) (name default : String) : String :=
  (Members.find? ps name).getD default

def auditOfParams (ps : Members String) : AuditElement :=
  ⟨paramText ps "Actor" "", paramText ps "Action" "", paramText ps "Actee" ""⟩

/-- The metric element of parameters; a missing value is zero. -/
def metricOfParams (ps : Members String) : Except LineFault MetricElement :=
  let text := paramText ps "Value" "0"
  match readBinary64 text.toList with
  | some x => .ok ⟨paramText ps "Name" "", x, paramText ps "Object" ""⟩
  | none => .error (.metricValue text)

/-- The library's own elements among those of a line. -/
structure Known where
  audit : Option AuditElement := none
  metric : Option MetricElement := none
  deriving DecidableEq, Repr

/-- Take note of an element; a later one replaces an earlier one of its kind. -/
def Known.add (k : Known) (e : Element) : Except LineFault Known :=
  if e.id = auditId then .ok { k with audit := some (auditOfParams e.params) }
  else if e.id = metricId then
    match metricOfParams e.params with
    | .ok m => .ok { k with metric := some m }
    | .error fault => .error fault
  else .ok k

/-- The library's own elements of a row. -/
def Known.ofElements (k : Known) : List Element → Except LineFault Known
  | [] => .ok k
  | e :: es =>
    match k.add e with
    | .ok k' => ofElements k' es
    | .error fault => .error fault

/-- Reads the structured data of a line. -/
def readData (s : List Char) : Except LineFault (Known × List Char) :=
  match s with
  | '-' :: rest => .ok ({}, rest)
  | '[' :: _ =>
    match scanData s with
    | .error e => .error (.data e)
    | .ok (es, rest) =>
      match Known.ofElements {} es with
      | .ok k => .ok (k, rest)
      | .error e => .error e
  | _ => .error .noData

/-! ## Text -/

def byteOrderMark : Char := '\ufeff'

/-- A text without a byte order mark at its beginning. -/
def dropMark (s : List Char) : List Char :=
  match s with
  | c :: r => if c = byteOrderMark then r else s
  | [] => []

def readText (s : List Char) : Except LineFault (List Char) :=
  match s with
  | [] => .ok []
  | ' ' :: r => .ok (dropMark r)
  | _ => .error .noSpace

/-! ## Lines -/

def readLine (whole : String) (s : List Char) : Except LineFault Record :=
  match scanHeader s with
  | none => .error (.header whole)
  | some h => do
    let priority := decimalValue h.priority
    if maxPriority < priority then .error (.priority priority)
    let timestamp ← readTimestamp h.timestamp
    let (known, rest) ← readData h.rest
    let text ← readText rest
    return {
      facility := (priority / 8 : Nat)
      severity := (priority % 8 : Nat)
      version := decimalValue h.version
      timestamp := timestamp
      hostName := unNil h.hostName
      application := unNil h.application
      process := unNil h.process
      messageId := unNil h.messageId
      audit := known.audit
      metric := known.metric
      message := String.ofList text
    }

end Line

/-- Reads a line, which may end in line breaks. -/
def Record.ofLine (text : String) : Except Line.LineFault Record :=
  Line.readLine text (trimEnd isLineBreak text.toList)

end Logwire
