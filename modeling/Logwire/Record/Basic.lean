import Logwire.Number.Binary64
import Logwire.Text.Blank

/-!
# Logwire.Record.Basic

A log record: the header of a syslog message, two optional elements of
structured data, and a text.
-/

namespace Logwire

open Number

/-! ## Severities -/

/-- The severities of a syslog message. -/
inductive Severity where
  | emergency
  | alert
  | critical
  | error
  | warning
  | notice
  | informational
  | debug
  deriving DecidableEq, Repr

/-- The number of a severity; the most severe has the lowest. -/
def Severity.number : Severity → Int
  | .emergency => 0
  | .alert => 1
  | .critical => 2
  | .error => 3
  | .warning => 4
  | .notice => 5
  | .informational => 6
  | .debug => 7

/-! ## Elements -/

/-- Who did what to whom. -/
structure AuditElement where
  actor : String
  action : String
  actee : String
  deriving DecidableEq, Repr

/-- A named number observed on an object. -/
structure MetricElement where
  name : String
  value : Binary64
  object : String
  deriving DecidableEq, Repr

/-- The number that qualifies the names of the elements. -/
def enterpriseNumber : String := "48851"

/-- The name of the audit element on the wire. -/
def auditId : String := "pzaudit@" ++ enterpriseNumber

/-- The name of the metric element on the wire. -/
def metricId : String := "pzmetric@" ++ enterpriseNumber

/-! ## Records -/

/-- A log record. -/
structure Record where
  facility : Int
  severity : Int
  version : Int
  timestamp : String
  hostName : String
  application : String
  process : String
  messageId : String
  audit : Option AuditElement
  metric : Option MetricElement
  message : String
  deriving DecidableEq, Repr

namespace Record

/-- The facility of all records made here. -/
def standardFacility : Int := 1

/-- The version of the protocol. -/
def standardVersion : Int := 1

/-- Facility and severity in one number. -/
def priority (r : Record) : Int := r.facility * 8 + r.severity

/-- The actions that have to be recorded formally. -/
def securityActions : List String := ["create", "read", "update", "delete"]

/-- Whether the record reports an action that has to be recorded formally. -/
def isSecurityAudit (r : Record) : Bool :=
  match r.audit with
  | some a => securityActions.contains a.action
  | none => false

end Record

end Logwire
