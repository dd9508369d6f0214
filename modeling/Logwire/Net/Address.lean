import Logwire.Json.Coercion
import Logwire.Text.Digit

/-!
# Logwire.Net.Address

Addresses of the form `host:port`.  The last colon separates the two; brackets
around the host are dropped, so that the host may be an IPv6 address, and an
empty host is this one.  The port is a row of digits.
-/

namespace Logwire

open Text

/-- A host and a port. -/
structure HostPort where
  host : String
  port : Nat
  deriving DecidableEq, Repr

/-- Why a text is no host and port. -/
inductive AddressFault where
  | notHostPort (text : String)
  /-- The port has digits without a decimal value, or too many. -/
  | port (fault : CoercionFault)
  deriving DecidableEq, Repr

def AddressFault.message : AddressFault → String
  | .notHostPort text => "syslog address is not host:port: " ++ text
  | .port e => e.message

namespace HostPort

/-- What stands before and after the last colon. -/
def splitLastColon (s : List Char) : Option (List Char × List Char) :=
  match s with
  | [] => none
  | c :: r =>
    match splitLastColon r with
    | some (host, port) => some (c :: host, port)
    | none => if c = ':' then some ([], r) else none

/-- The last colon is where there is none behind it. -/
theorem splitLastColon_append (host port : List Char) (h : ':' ∉ port) :
    splitLastColon (host ++ ':' :: port) = some (host, port) := by
  have hnone : ∀ t : List Char, ':' ∉ t → splitLastColon t = none := by
    intro t ht
    induction t with
    | nil => rfl
    | cons c t ih =>
      simp only [List.mem_cons, not_or] at ht
      simp [splitLastColon, ih ht.2, Ne.symm ht.1]
  induction host with
  | nil => simp [splitLastColon, hnone port h]
  | cons c host ih => simp [splitLastColon, ih]

def isBracket (c : Char) : Bool := c == '[' || c == ']'

/-- The host that is meant by an empty one. -/
def localHost : String := "localhost"

/-- A host without the brackets around it. -/
def hostOf (s : List Char) : String :=
  let inner := trim isBracket s
  if inner.isEmpty then localHost else String.ofList inner

def parse (text : String) : Except AddressFault HostPort :=
  match splitLastColon text.toList with
  | none => .error (.notHostPort text)
  | some (host, port) =>
    if port.isEmpty || !port.all isDigit then .error (.notHostPort text)
    else
      match integerOfText (String.ofList port) with
      | .ok p => .ok ⟨hostOf host, p.toNat⟩
      | .error e => .error (.port e)

end HostPort

end Logwire
