import Logwire.Service.Directory

/-!
# Logwire.Service.Wait

Waiting until a service answers, or until it no longer does.

The service is asked, and asked again after a pause, until it has the condition
that is waited for or the time is up.  Time is checked after a request that
did not show the condition, so that at least one request is made.
-/

namespace Logwire

/-- The condition of a service that is waited for. -/
inductive Condition where
  /-- It answers with the status of a healthy service. -/
  | alive
  /-- It gives no answer. -/
  | dead
  deriving DecidableEq, Repr

def Condition.text : Condition → String
  | .alive => "service"
  | .dead => "service to die"

/-- Whether a request that went out shows the condition. -/
def Condition.shownBy (c : Condition) (outcome : Except TransportFault Reply) : Bool :=
  match c, outcome with
  | .alive, .ok r => r.status = Directory.healthyStatus
  | .dead, .error _ => true
  | _, _ => false

/-- Why waiting ended without the condition. -/
inductive WaitFault where
  | unknownService (name : String)
  | timeout (service url : String) (condition : Condition)
  | invalidUrl (text : String)
  deriving DecidableEq, Repr

def WaitFault.message : WaitFault → String
  | .unknownService name => unknownServiceMessage name
  | .timeout service url condition =>
    "timed out waiting for " ++ condition.text ++ ": " ++ service ++ " at " ++ url
  | .invalidUrl text => text

/-- The time to wait, in milliseconds. -/
def waitBudget : Nat := 2000

/-- The pause between two requests, in milliseconds. -/
def waitPause : Nat := 100

/-- Ask until the condition shows or the clock has reached the deadline. -/
def waitUntil (c : Condition) (service url : String) (deadline : Nat) (h : Http) :
    Except WaitFault Unit × Http :=
  match (h.request (.get url)).1 with
  | .error (.invalidUrl text) => (.error (.invalidUrl text), (h.request (.get url)).2)
  | outcome =>
    if c.shownBy outcome then (.ok (), (h.request (.get url)).2)
    else if _hd : deadline ≤ (h.request (.get url)).2.clock then
      (.error (.timeout service url c), (h.request (.get url)).2)
    else waitUntil c service url deadline ((h.request (.get url)).2.sleep waitPause)
  termination_by deadline - h.clock
  decreasing_by
    have h1 := h.clock_le_request (.get url)
    have h2 : (((h.request (.get url)).2).sleep waitPause).clock
      = (h.request (.get url)).2.clock + waitPause := rfl
    have h3 : waitPause = 100 := rfl
    omega

namespace Directory

/-- Wait for a condition of the service at an address. -/
def waitAt (h : Http) (c : Condition) (service address : String) : Except WaitFault Unit × Http :=
  waitUntil c service (urlOf address "") (h.clock + waitBudget) h

/-- Wait for a condition of a service of the directory. -/
def wait (d : Directory) (h : Http) (c : Condition) (service : String) :
    Except WaitFault Unit × Http :=
  match d.addressOf? service with
  | none => (.error (.unknownService service), h)
  | some address => waitAt h c service address

end Directory

end Logwire
