import Logwire.Json.Coercion
import Logwire.Json.Writer
import Logwire.Record.Basic

/-!
# Logwire.Record.Document

The JSON form of a record: one object with eleven members, the two elements
being objects or null.

Reading is lenient: a member that is missing counts as zero or empty, numbers
may be given as strings and anything that has a text may stand for a string.
Records in a row are written one to a line.
-/

namespace Logwire

open Number

/-! ## Writing -/

def AuditElement.toJson (a : AuditElement) : Json :=
  .obj [("actor", .str a.actor), ("action", .str a.action), ("actee", .str a.actee)]

def MetricElement.toJson (m : MetricElement) : Json :=
  .obj [("name", .str m.name), ("value", .num m.value), ("object", .str m.object)]

namespace Record

def members (r : Record) : List (String × Json) :=
  [("facility", .int r.facility), ("severity", .int r.severity), ("version", .int r.version),
   ("timeStamp", .str r.timestamp), ("hostName", .str r.hostName),
   ("application", .str r.application), ("process", .str r.process),
   ("messageId", .str r.messageId), ("auditData", r.audit.elim .null AuditElement.toJson),
   ("metricData", r.metric.elim .null MetricElement.toJson), ("message", .str r.message)]

def toJson (r : Record) : Json := .obj r.members

end Record

/-! ## Reading -/

/-- Why a value is no record. -/
inductive DocumentFault where
  /-- A value of this kind has no members. -/
  | noMembers (kind : String)
  | number (fault : CoercionFault)
  | text (fault : Json.TextFault)
  deriving DecidableEq, Repr

namespace DocumentFault

def reason : DocumentFault → String
  | noMembers kind => "'" ++ kind ++ "' object has no attribute 'get'"
  | number e => e.message
  | text e => e.message

/-- A number beyond the range of its field, as opposed to a value of the wrong form. -/
def isRange : DocumentFault → Bool
  | number e => e.isRange
  | _ => false

/-- Values too deep within each other. -/
def isDepth : DocumentFault → Bool
  | text .tooDeep => true
  | _ => false

def message (e : DocumentFault) : String :=
  if e.isRange || e.isDepth then e.reason else "malformed syslog JSON: " ++ e.reason

end DocumentFault

namespace Json

def asMembers : Json → Except DocumentFault (List (String × Json))
  | .obj ms => .ok ms
  | v => .error (.noMembers v.kind)

/-- The member as an integer, zero when it is missing. -/
def integerMember (ms : List (String × Json)) (name : String) : Except DocumentFault Int :=
  match ((Members.find? ms name).getD (.int 0)).toInteger with
  | .ok i => .ok i
  | .error e => .error (.number e)

/-- The member as a double precision number, zero when it is missing. -/
def numberMember (ms : List (String × Json)) (name : String) : Except DocumentFault Binary64 :=
  match ((Members.find? ms name).getD (.num Binary64.zero)).toNumber with
  | .ok x => .ok x
  | .error e => .error (.number e)

/-- The member as a text, empty when it is missing. -/
def textMember (room : Nat) (ms : List (String × Json)) (name : String) :
    Except DocumentFault String :=
  match ((Members.find? ms name).getD (.str "")).displayWithin room with
  | .ok s => .ok s
  | .error e => .error (.text e)

end Json

open Json (integerMember numberMember textMember)

/-- Reads an audit element, with room for so many values within each other. -/
def AuditElement.ofJsonWithin (room : Nat) (v : Json) : Except DocumentFault AuditElement := do
  let ms ← v.asMembers
  let actor ← textMember room ms "actor"
  let action ← textMember room ms "action"
  let actee ← textMember room ms "actee"
  return ⟨actor, action, actee⟩

/-- Reads a metric element, with room for so many values within each other. -/
def MetricElement.ofJsonWithin (room : Nat) (v : Json) : Except DocumentFault MetricElement := do
  let ms ← v.asMembers
  let name ← textMember room ms "name"
  let value ← numberMember ms "value"
  let object ← textMember room ms "object"
  return ⟨name, value, object⟩

/-- Reads an element that may be null. -/
def Json.optional {α : Type} (read : Json → Except DocumentFault α) :
    Json → Except DocumentFault (Option α)
  | .null => .ok none
  | v => (read v).map some

/-- Reads a record, with room for so many values within each other. -/
def Record.ofJsonWithin (room : Nat) (v : Json) : Except DocumentFault Record := do
  let ms ← v.asMembers
  let facility ← integerMember ms "facility"
  let severity ← integerMember ms "severity"
  let version ← integerMember ms "version"
  let timestamp ← textMember room ms "timeStamp"
  let hostName ← textMember room ms "hostName"
  let application ← textMember room ms "application"
  let process ← textMember room ms "process"
  let messageId ← textMember room ms "messageId"
  let audit ← Json.optional (AuditElement.ofJsonWithin room) (Json.member ms "auditData")
  let metric ← Json.optional (MetricElement.ofJsonWithin room) (Json.member ms "metricData")
  let message ← textMember room ms "message"
  return {
    facility := facility
    severity := severity
    version := version
    timestamp := timestamp
    hostName := hostName
    application := application
    process := process
    messageId := messageId
    audit := audit
    metric := metric
    message := message
  }

def Record.ofJson (v : Json) : Except DocumentFault Record := Record.ofJsonWithin Json.shownLimit v

/-! ## Records in a row -/

/-- A record on a line of its own. -/
def Record.jsonLine (r : Record) : List Char := r.toJson.writeChars ++ ['\n']

/-- Records, each on a line of its own. -/
def jsonLines (rs : List Record) : String := String.ofList (rs.flatMap Record.jsonLine)

end Logwire
