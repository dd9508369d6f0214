import Logwire.Net.JsonClient
import Logwire.Record.Document
import Logwire.Service.Wait

/-!
# Logwire.Sink.Remote

A sink that posts records to the logger service.

It is made only when the logger service answers.  Each record goes out in one
request, and an answer that reports an error, or none at all, is a failure.
-/

namespace Logwire

/-- A sink for the logger service. -/
structure RemoteSink where
  client : JsonClient
  deriving DecidableEq, Repr

namespace RemoteSink

/-- Why a record is not taken. -/
inductive Fault where
  /-- The service reports an error. -/
  | refused (envelope : Envelope)
  | client (fault : JsonClient.Fault)

/-- The wording for an envelope that reports an error. -/
def refusedMessage (e : Envelope) : String :=
  let detail := if e.message.isGiven then ": " ++ e.message.display else ""
  "logger service returned " ++ Number.intText e.status ++ detail

def Fault.message : Fault → String
  | .refused e => refusedMessage e
  | .client e => e.message

/-- The endpoint that records are posted to. -/
def endpoint : String := "/syslog"

/-- The sink for the logger service of a directory, once it answers. -/
def connect (d : Directory) (h : Http) : Except WaitFault RemoteSink × Http :=
  match d.urlOf? ServiceName.logger.key with
  | none => (.error (.unknownService ServiceName.logger.key), h)
  | some url =>
    match d.wait h .alive ServiceName.logger.key with
    | (.ok (), h) => (.ok ⟨.ofUrl url⟩, h)
    | (.error e, h) => (.error e, h)

/-- What an answer means for the record that was posted. -/
def outcomeOf : Except JsonClient.Fault Envelope → Except Fault Unit
  | .error e => .error (.client e)
  | .ok e => if e.isError then .error (.refused e) else .ok ()

def write (w : RemoteSink) (h : Http) (r : Record) : Except Fault Unit × Http :=
  let (answer, h) := w.client.call h "POST" endpoint r.toJson
  (outcomeOf answer, h)

end RemoteSink

end Logwire
