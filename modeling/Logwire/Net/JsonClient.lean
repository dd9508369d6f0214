import Logwire.Net.Http
import Logwire.Json.Writer
import Logwire.Text.Blank

/-!
# Logwire.Net.JsonClient

A client that sends JSON to one service and takes its answers as envelopes.
What fails on the way becomes an envelope too, and so does a body that cannot be
written, which is not sent at all.
-/

namespace Logwire

/-- A service by its URL without slashes at the end. -/
structure JsonClient where
  baseUrl : String
  deriving DecidableEq, Repr

namespace JsonClient

/-- The client of the service at a URL. -/
def ofUrl (url : String) : JsonClient := ⟨String.ofList (Text.trimEnd (· == '/') url.toList)⟩

/-- Why there is no envelope. -/
inductive Fault where
  | invalidUrl (text : String)
  | reply (fault : Reply.Fault)
  deriving DecidableEq, Repr

def Fault.message : Fault → String
  | .invalidUrl text => text
  | .reply e => e.message

/-- The headers of a request that has a body. -/
def bodyHeaders : Members String := [("Content-Type", "application/json")]

/-- A request to the service; null is no body. -/
def request (c : JsonClient) (method endpoint : String) (body : Json) : Request :=
  let url := c.baseUrl ++ endpoint
  match body with
  | .null => { method := method, url := url }
  | _ => { method := method, url := url, body := some body.write, headers := some bodyHeaders }

/-- The envelope that comes of a request. -/
def envelopeOf : Except TransportFault Reply → Except Fault Envelope
  | .error (.invalidUrl text) => .error (.invalidUrl text)
  | .error (.failed _ text) => .ok (.ofError text)
  | .ok r =>
    match r.envelope with
    | .ok e => .ok e
    | .error e => .error (.reply e)

/-- Send a request to the service, if its body can be written. -/
def call (c : JsonClient) (h : Http) (method endpoint : String) (body : Json) :
    Except Fault Envelope × Http :=
  if body.hasText then
    let (outcome, h) := h.request (c.request method endpoint body)
    (envelopeOf outcome, h)
  else (.ok (.ofError Number.notWritableMessage), h)

end JsonClient

end Logwire
