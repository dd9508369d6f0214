import Logwire.Envelope.Reply

/-!
# Logwire.Net.Http

Requests over HTTP and the network that answers them.

The network answers by a script: each route has a list of replies, taken one
after the other, the last of which is repeated for ever.  A reply takes a while
to come, which moves the clock.  All that clients do is on record.
-/

namespace Logwire

/-! ## Requests -/

/-- A request. -/
structure Request where
  method : String
  url : String
  body : Option String := none
  headers : Option (Members String) := none
  deriving DecidableEq, Repr

/-- A request for the resource at a URL. -/
def Request.get (url : String) : Request := { method := "GET", url := url }

/-! ## Failures -/

/-- The ways in which a request fails on its way. -/
inductive TransportCause where
  | connect
  | connectTimeout
  | readTimeout
  | read
  | protocol
  | redirects
  deriving DecidableEq, Repr

/-- Why there is no reply.  A URL that makes no sense is no matter of transport. -/
inductive TransportFault where
  | failed (cause : TransportCause) (text : String)
  | invalidUrl (text : String)
  deriving DecidableEq, Repr

def TransportFault.message : TransportFault → String
  | .failed _ text => text
  | .invalidUrl text => text

/-! ## Network -/

/-- A reply, or its absence, after some milliseconds. -/
structure Outcome where
  delay : Nat
  result : Except TransportFault Reply

/-- What a client does. -/
inductive HttpEvent where
  /-- A client is made that waits at most this many seconds for a reply. -/
  | opened (timeout : Number.Binary64)
  | requested (request : Request)
  | closed
  deriving DecidableEq, Repr

/-- The network: the outcomes that are left for each route, the clock in milliseconds, and what
clients have done. -/
structure Http where
  routes : Members (List Outcome) := []
  clock : Nat := 0
  events : List HttpEvent := []

namespace Http

/-- The name under which a request has outcomes: its method and URL, or its method alone. -/
def routeOf (h : Http) (r : Request) : String :=
  let full := r.method ++ " " ++ r.url
  if Members.has h.routes full then full else r.method

/-- What comes of a request that has no route. -/
def noRoute : Outcome := ⟨0, .error (.failed .connect "no route")⟩

/-- The next outcome of a list, and what is left of it. -/
def nextOutcome : List Outcome → Outcome × List Outcome
  | [] => (noRoute, [])
  | [o] => (o, [o])
  | o :: rest => (o, rest)

def note (h : Http) (e : HttpEvent) : Http := { h with events := h.events ++ [e] }

/-- Send a request and wait for its outcome. -/
def request (h : Http) (r : Request) : Except TransportFault Reply × Http :=
  let h := h.note (.requested r)
  let route := h.routeOf r
  match Members.find? h.routes route with
  | none => (noRoute.result, h)
  | some outcomes =>
    let (o, rest) := nextOutcome outcomes
    (o.result,
      { h with routes := Members.insert h.routes route rest, clock := h.clock + o.delay })

def sleep (h : Http) (milliseconds : Nat) : Http := { h with clock := h.clock + milliseconds }

/-- A request never turns the clock back. -/
theorem clock_le_request (h : Http) (r : Request) : h.clock ≤ (h.request r).2.clock := by
  unfold request
  simp only
  split <;> simp [note]

/-- A request is put on record. -/
theorem events_request (h : Http) (r : Request) :
    (h.request r).2.events = h.events ++ [.requested r] := by
  unfold request
  simp only
  split <;> simp [note]

end Http

end Logwire
