import Logwire.Record.Producer
import Logwire.Sink.Basic

/-!
# Logwire.Logging.Logger

A logger makes records of an application and writes them to a sink.

The record of a message has a severity and a text; one of an action or of a
measurement carries an element besides.  What the sink reports is passed on.
-/

namespace Logwire

/-- A logger of an application. -/
structure Logger where
  sink : SinkTree
  application : String := ""
  deriving Repr

/-- Why a record is not logged. -/
inductive LogFault where
  | clock (fault : Time.ClockFault)
  | sink (fault : SinkFault)

/-- The wording of a fault, if it has one. -/
def LogFault.message? : LogFault → Option String
  | .clock e => e.message?
  | .sink e => e.message?

/-- What a logger makes a record of. -/
inductive LogCall where
  | text (severity : Severity) (words : String)
  | audit (element : AuditElement) (words : String)
  | metric (element : MetricElement) (words : String)
  deriving DecidableEq, Repr

/-- The record of a call, as far as the call gives it. -/
def LogCall.draft (application : String) : LogCall → Draft
  | .text severity words =>
    { application := application, severity := severity.number, message := words }
  | .audit element words =>
    { application := application, severity := Severity.informational.number, message := words
      audit := element }
  | .metric element words =>
    { application := application, severity := Severity.informational.number, message := words
      metric := element }

namespace Logger

def write (l : Logger) (s : Site) (r : Record) : Except LogFault Record × Site :=
  match s.write l.sink r with
  | (.ok (), s) => (.ok r, s)
  | (.error e, s) => (.error (.sink e), s)

/-- Log a call; the record that was written is handed back. -/
def log (l : Logger) (p : Producer) (s : Site) (call : LogCall) : Except LogFault Record × Site :=
  match (call.draft l.application).complete p with
  | .error e => (.error (.clock e), s)
  | .ok r => l.write s r

/-- A record with the application of the logger, unless it has one. -/
def stamp (l : Logger) (r : Record) : Record :=
  if r.application = "" then { r with application := l.application } else r

def logRecord (l : Logger) (s : Site) (r : Record) : Except LogFault Record × Site :=
  l.write s (l.stamp r)

end Logger

end Logwire
