import Logwire.Number.Decimal
import Logwire.Record.Basic
import Logwire.Time.Rfc3339

/-!
# Logwire.Record.Validity

Which records are well-formed.  `Record.fault?` names the first field that is
not; `Record.fault?_eq_none_iff` says what is left when there is none.
-/

namespace Logwire

open Text Time

/-! ## Faults -/

/-- The first thing wrong with an element. -/
inductive ElementFault where
  /-- This part of this element is empty. -/
  | empty (element part : String)
  | lineBreak (element : String)
  deriving DecidableEq, Repr

def ElementFault.message : ElementFault → String
  | .empty element part => element ++ "." ++ part ++ " not set"
  | .lineBreak element => element ++ " attributes must be single lines"

/-- The first thing wrong with a record. -/
inductive RecordFault where
  | facility (value : Int)
  | severity (value : Int)
  | version (value : Int)
  | timestamp (value : String)
  | noHostName
  | noApplication
  | noProcess
  | lineBreak
  | element (fault : ElementFault)
  deriving DecidableEq, Repr

def RecordFault.message : RecordFault → String
  | .facility n => "Invalid message facility: " ++ Number.intText n
  | .severity n => "Invalid message severity: " ++ Number.intText n
  | .version n => "Invalid message version: " ++ Number.intText n
  | .timestamp text => "Invalid message timestamp value or format: " ++ text
  | .noHostName => "Message host name not set"
  | .noApplication => "Message application not set"
  | .noProcess => "Message process not set"
  | .lineBreak => "Message text must be a single line"
  | .element e => e.message

/-! ## Elements -/

/-- The first fault of an audit element. -/
def AuditElement.fault? (a : AuditElement) : Option ElementFault :=
  if a.actor = "" then some (.empty "AuditElement" "actor")
  else if a.action = "" then some (.empty "AuditElement" "action")
  else if a.actee = "" then some (.empty "AuditElement" "actee")
  else if hasLineBreak a.actor || hasLineBreak a.action || hasLineBreak a.actee then
    some (.lineBreak "AuditElement")
  else none

/-- The first fault of a metric element. -/
def MetricElement.fault? (m : MetricElement) : Option ElementFault :=
  if m.name = "" then some (.empty "MetricElement" "name")
  else if m.object = "" then some (.empty "MetricElement" "object")
  else if hasLineBreak m.name || hasLineBreak m.object then some (.lineBreak "MetricElement")
  else none

/-- All attributes given and on one line. -/
def AuditElement.Valid (a : AuditElement) : Prop :=
  a.actor ≠ "" ∧ a.action ≠ "" ∧ a.actee ≠ "" ∧
    hasLineBreak a.actor = false ∧ hasLineBreak a.action = false ∧ hasLineBreak a.actee = false

/-- Name and object given and on one line. -/
def MetricElement.Valid (m : MetricElement) : Prop :=
  m.name ≠ "" ∧ m.object ≠ "" ∧ hasLineBreak m.name = false ∧ hasLineBreak m.object = false

/-- An audit element has no fault exactly if it is valid. -/
theorem AuditElement.fault?_eq_none_iff (a : AuditElement) : a.fault? = none ↔ a.Valid := by
  unfold fault? Valid
  repeat' split
  all_goals grind

/-- The same goes for a metric element. -/
theorem MetricElement.fault?_eq_none_iff (m : MetricElement) : m.fault? = none ↔ m.Valid := by
  unfold fault? Valid
  repeat' split
  all_goals grind

/-! ## Records -/

namespace Record

/-- The first fault of the record's elements. -/
def elementFault? (r : Record) : Option ElementFault :=
  (r.audit.bind AuditElement.fault?).or (r.metric.bind MetricElement.fault?)

/-- The first fault of a record. -/
def fault? (r : Record) : Option RecordFault :=
  if r.facility ≠ standardFacility then some (.facility r.facility)
  else if r.severity < 0 ∨ 7 < r.severity then some (.severity r.severity)
  else if r.version ≠ standardVersion then some (.version r.version)
  else if !isSyslogTimestamp r.timestamp then some (.timestamp r.timestamp)
  else if r.hostName = "" then some .noHostName
  else if r.application = "" then some .noApplication
  else if r.process = "" then some .noProcess
  else if hasLineBreak r.message then some .lineBreak
  else r.elementFault?.map .element

/-- A well-formed record. -/
structure Valid (r : Record) : Prop where
  facility : r.facility = standardFacility
  severity : 0 ≤ r.severity ∧ r.severity ≤ 7
  version : r.version = standardVersion
  timestamp : isSyslogTimestamp r.timestamp = true
  hostName : r.hostName ≠ ""
  application : r.application ≠ ""
  process : r.process ≠ ""
  message : hasLineBreak r.message = false
  audit : ∀ a, r.audit = some a → a.Valid
  metric : ∀ m, r.metric = some m → m.Valid

/-- The elements of a record have no fault exactly if those that are there are valid. -/
theorem elementFault?_eq_none_iff (r : Record) :
    r.elementFault? = none ↔
      (∀ a, r.audit = some a → a.Valid) ∧ ∀ m, r.metric = some m → m.Valid := by
  simp [elementFault?, Option.or_eq_none_iff, Option.bind_eq_none_iff,
    AuditElement.fault?_eq_none_iff, MetricElement.fault?_eq_none_iff]

/-- There is no fault exactly in the well-formed records. -/
theorem fault?_eq_none_iff (r : Record) : r.fault? = none ↔ r.Valid := by
  have he := r.elementFault?_eq_none_iff
  constructor
  · intro h
    unfold fault? at h
    repeat' split at h
    all_goals simp_all
    constructor <;> first | assumption | omega | simp_all
  · intro h
    obtain ⟨h1, h2, h3, h4, h5, h6, h7, h8, h9, h10⟩ := h
    have h2' : ¬ (r.severity < 0 ∨ 7 < r.severity) := by omega
    simp [fault?, h1, h2', h3, h4, h5, h6, h7, h8, he.mpr ⟨h9, h10⟩]

end Record

end Logwire
