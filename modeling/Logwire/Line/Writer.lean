import Logwire.Line.StructuredData
import Logwire.Number.Decimal
import Logwire.Time.Rfc3339

/-!
# Logwire.Line.Writer

The line of a record:

```
<priority>version timestamp host application process message-id data text
```

An empty field of the header is written `-`, and so is the data of a record
without elements.  Elements are separated by a space.  Line breaks anywhere are
folded, so that the result is one line.  A record with a number too long for a
text has no line that can be written.

* `Record.lineChars_noBreak` — a line holds no line break;
* `Record.written_eq_ok_iff` — which records are written, and how.
-/

namespace Logwire

open Number Time

namespace Line

/-- What stands for an absent field. -/
def nilText : String := "-"

def orNil (s : String) : String := if s = "" then nilText else s

/-- The places after the point of a metric value. -/
def valuePlaces : Nat := 6

/-- A metric value: a fixed number of places, or a word. -/
def valueText : Binary64 → String
  | .nan => "NaN"
  | .infinite negative => if negative then "-Inf" else "+Inf"
  | .finite negative exponent fraction =>
    let digits := fixed valuePlaces (Binary64.magnitude exponent fraction)
    String.ofList (if negative then '-' :: digits else digits)

/-- A timestamp as it goes on the wire: unchanged if it has the narrow form, otherwise at the
precision of a second, and nil if it is none. -/
def wireTimestamp (text : String) : String :=
  if isSyslogTimestamp text then text
  else
    match parseRfc3339 text with
    | .ok m => m.format
    | .error _ => nilText

/-- Why a record is not written. -/
inductive WriteFault where
  /-- A number of the header has more digits than may be written. -/
  | tooManyDigits
  deriving DecidableEq, Repr

def WriteFault.message : WriteFault → String
  | .tooManyDigits => notWritableMessage

end Line

open Line

def AuditElement.element (a : AuditElement) : Element :=
  ⟨auditId, [("Actor", a.actor), ("Action", a.action), ("Actee", a.actee)]⟩

def MetricElement.element (m : MetricElement) : Element :=
  ⟨metricId, [("Name", m.name), ("Value", valueText m.value), ("Object", m.object)]⟩

namespace Record

/-- The structured data of a record: its audit element, then its metric element. -/
def elements (r : Record) : List Element :=
  (r.audit.map AuditElement.element).toList ++ (r.metric.map MetricElement.element).toList

def dataChars (r : Record) : List Char :=
  match r.elements with
  | [] => nilText.toList
  | es => [' '].intercalate (es.map Element.write)

def headerChars (r : Record) : List Char :=
  '<' :: intDigits r.priority ++ '>' :: intDigits r.version
    ++ ' ' :: (wireTimestamp r.timestamp).toList ++ ' ' :: (orNil r.hostName).toList
    ++ ' ' :: (orNil r.application).toList ++ ' ' :: (orNil r.process).toList
    ++ ' ' :: (orNil r.messageId).toList

def lineChars (r : Record) : List Char :=
  foldBreaks (r.headerChars ++ ' ' :: r.dataChars ++ ' ' :: r.message.toList)

def line (r : Record) : String := String.ofList r.lineChars

/-- Whether the numbers of the header can be written. -/
def hasLine (r : Record) : Bool := isWritable r.priority && isWritable r.version

/-- The line of a record, if it can be written. -/
def written (r : Record) : Except WriteFault String :=
  if r.hasLine then .ok r.line else .error .tooManyDigits

/-- A record is written as its line if its numbers can be written. -/
theorem written_eq_ok_iff (r : Record) (text : String) :
    r.written = .ok text ↔ r.hasLine = true ∧ text = r.line := by
  unfold written
  by_cases h : r.hasLine = true
  · rw [if_pos h]
    exact ⟨fun e => ⟨h, (Except.ok.inj e).symm⟩, fun e => e.2 ▸ rfl⟩
  · rw [if_neg h]
    exact ⟨fun e => absurd e (by simp), fun e => absurd e.1 h⟩

/-- A line holds no line break. -/
theorem lineChars_noBreak (r : Record) : r.lineChars.any Text.isLineBreak = false :=
  foldBreaks_noBreak _

end Record

end Logwire
