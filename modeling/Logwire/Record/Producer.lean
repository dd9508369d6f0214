import Logwire.Number.Decimal
import Logwire.Record.Basic
import Logwire.Time.Clock

/-!
# Logwire.Record.Producer

What a record says of its origin unless it is told: the time, the host and the
process that make it.
-/

namespace Logwire

open Time

/-- The process that makes records: its clock with the offset in seconds, the name of its host if
there is one, and its number. -/
structure Producer where
  now : Reading
  offset : Int
  host : Option String
  process : Int
  deriving Repr

namespace Producer

/-- The timestamp of a reading on the producer's clock. -/
def timestampAt (p : Producer) (reading : Reading) : Except ClockFault String :=
  match momentAt p.offset reading with
  | .ok m => .ok m.format
  | .error e => .error e

def timestamp (p : Producer) : Except ClockFault String := p.timestampAt p.now

/-- What stands for a host name that is not known. -/
def unknownHost : String := "-"

/-- The name of the host without blanks around it. -/
def hostName (p : Producer) : String :=
  match p.host with
  | none => unknownHost
  | some name =>
    let trimmed := String.ofList (Text.trim Text.isBlank name.toList)
    if trimmed = "" then unknownHost else trimmed

/-- The number of the process as text. -/
def processName (p : Producer) : String := Number.intText p.process

end Producer

/-- A record of which some fields are not yet given. -/
structure Draft where
  facility : Option Int := none
  severity : Option Int := none
  version : Option Int := none
  timestamp : Option String := none
  hostName : Option String := none
  application : Option String := none
  process : Option String := none
  messageId : Option String := none
  audit : Option AuditElement := none
  metric : Option MetricElement := none
  message : Option String := none
  deriving DecidableEq, Repr

namespace Draft

/-- The draft with the timestamp given, and its other fields from the producer where they are
missing. -/
def fill (d : Draft) (p : Producer) (timestamp : String) : Record where
  facility := d.facility.getD Record.standardFacility
  severity := d.severity.getD Severity.informational.number
  version := d.version.getD Record.standardVersion
  timestamp := timestamp
  hostName := d.hostName.getD p.hostName
  application := d.application.getD ""
  process := d.process.getD p.processName
  messageId := d.messageId.getD ""
  audit := d.audit
  metric := d.metric
  message := d.message.getD ""

/-- The record that a producer makes of a draft.  The clock is read only for a missing timestamp. -/
def complete (d : Draft) (p : Producer) : Except ClockFault Record :=
  match d.timestamp with
  | some t => .ok (d.fill p t)
  | none =>
    match p.timestamp with
    | .ok t => .ok (d.fill p t)
    | .error e => .error e

end Draft

end Logwire
