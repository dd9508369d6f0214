import Logwire.Envelope.Basic
import Logwire.Json.Reader
import Logwire.Text.Encoding

/-!
# Logwire.Envelope.Reply

The envelope of a reply over HTTP.

A reply without a body has an envelope of its status alone.  A body must be
JSON text of an envelope that repeats the status; anything else becomes an
error envelope with a message that says what is wrong.  Only numbers beyond
all range and values within too many others are reported as faults.
-/

namespace Logwire

/-- A reply: its status and the octets of its body. -/
structure Reply where
  status : Int
  body : List UInt8
  deriving Repr

namespace Reply

/-- What cannot be read of a body although it may be JSON text. -/
inductive Fault where
  /-- An integer of too many digits. -/
  | tooManyDigits (count : Nat)
  /-- A value within too many others. -/
  | tooDeep (container : Json.Container)
  /-- A field of the envelope. -/
  | field (fault : Envelope.Fault)
  deriving DecidableEq, Repr

def Fault.message : Fault → String
  | .tooManyDigits count => Number.tooLongMessage count
  | .tooDeep container => Json.tooDeepMessage container
  | .field e => e.message

/-- The envelope of a value that a reply with the given status carries. -/
def envelopeOfJson (status : Int) (v : Json) : Except Fault Envelope :=
  match v with
  | .obj _ =>
    match Envelope.ofJson v with
    | .error e => if e.isRange then .error (.field e) else .ok (.ofError e.message)
    | .ok envelope =>
      if envelope.status = status then .ok envelope
      else
        .ok (.ofError ("Unmatched status codes: expected " ++ Number.intText status ++ ", got "
          ++ Number.intText envelope.status))
  | _ => .ok (.ofError "response body is not a JSON object")

/-- The envelope of JSON text that a reply with the given status carries. -/
def envelopeOfText (room : Nat) (status : Int) (text : List Char) : Except Fault Envelope :=
  match Json.parseWithin room text with
  | .ok v => envelopeOfJson status v
  | .error e =>
    match e.cause with
    | .tooManyDigits count => .error (.tooManyDigits count)
    | .tooDeep container => .error (.tooDeep container)
    | _ => .ok (.ofError e.message)

/-- The envelope of a reply, with room for so many arrays and objects within each other. -/
def envelopeWithin (room : Nat) (r : Reply) : Except Fault Envelope :=
  if r.body.isEmpty then .ok { status := r.status }
  else
    match Text.decode r.body with
    | .error e => .ok (.ofError e.message)
    | .ok text => envelopeOfText room r.status text

def envelope (r : Reply) : Except Fault Envelope := r.envelopeWithin Json.nestingLimit

end Reply

end Logwire
