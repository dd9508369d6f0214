import Logwire.Json.Basic
import Logwire.Net.Address
import Logwire.Number.Decimal

/-!
# Logwire.Net.Sockets

Sockets and the network that they connect to.

Host names resolve to addresses of a table.  A socket connects if something
listens at its endpoint, and is closed at once if not.  A broken listener
accepts connections but takes no texts.  All that is done with sockets is on
record, each under its number.
-/

namespace Logwire

/-! ## Endpoints -/

/-- The families of addresses. -/
inductive Family where
  | inet
  | inet6
  | unix
  deriving DecidableEq, Repr

/-- How a socket carries texts: one by one, or as a stream. -/
inductive SocketKind where
  | datagram
  | stream
  deriving DecidableEq, Repr

/-- What a socket connects to. -/
structure Endpoint where
  family : Family
  kind : SocketKind
  address : String
  deriving DecidableEq, Repr

/-- A process that listens at an endpoint. -/
structure Listener where
  endpoint : Endpoint
  broken : Bool := false
  deriving DecidableEq, Repr

/-- A connected socket. -/
structure Socket where
  number : Nat
  endpoint : Endpoint
  deriving DecidableEq, Repr

/-! ## Faults -/

/-- Why a socket does not do what is asked of it. -/
inductive SocketFault where
  | refused (address : String)
  | unknownHost (host : String)
  | noAddress (host : String) (port : Nat)
  /-- None of the endpoints of the local daemon accepts a connection. -/
  | noDaemon (tried : List Endpoint)
  | brokenPipe
  deriving DecidableEq, Repr

/-- The wording for an address that refuses. -/
def refusedMessage (address : String) : String := "refused " ++ address

def SocketFault.message : SocketFault → String
  | .refused address => refusedMessage address
  | .unknownHost host => "unknown host " ++ host
  | .noAddress host port => "no address found for " ++ host ++ ":" ++ toString port
  | .noDaemon tried =>
    "no local syslog daemon found ("
      ++ "; ".intercalate (tried.map fun e => e.address ++ ": " ++ refusedMessage e.address) ++ ")"
  | .brokenPipe => "broken pipe"

/-! ## Network -/

/-- What is done with sockets. -/
inductive SocketEvent where
  | resolved (host : String) (port : Nat) (kind : SocketKind)
  | connecting (socket : Socket)
  | sent (number : Nat) (text : String)
  | closed (number : Nat)
  deriving DecidableEq, Repr

/-- The network: the addresses of hosts, the listeners, the number of the next socket, and what
has been done. -/
structure Sockets where
  hosts : Members (List (Family × String)) := []
  listeners : List Listener := []
  next : Nat := 0
  events : List SocketEvent := []

namespace Sockets

def note (n : Sockets) (e : SocketEvent) : Sockets := { n with events := n.events ++ [e] }

def listenerAt? (n : Sockets) (e : Endpoint) : Option Listener :=
  n.listeners.find? fun l => l.endpoint = e

/-- Make a socket and connect it to an endpoint. -/
def connect (n : Sockets) (e : Endpoint) : Option Socket × Sockets :=
  let s : Socket := ⟨n.next, e⟩
  let n := { n with next := n.next + 1 }.note (.connecting s)
  if (n.listenerAt? e).isSome then (some s, n) else (none, n.note (.closed s.number))

/-- Connect to the first endpoint that accepts, or tell which ones refused. -/
def connectAny (n : Sockets) : List Endpoint → Except (List Endpoint) Socket × Sockets
  | [] => (.error [], n)
  | e :: rest =>
    match n.connect e with
    | (some s, n) => (.ok s, n)
    | (none, n) =>
      match n.connectAny rest with
      | (.ok s, n) => (.ok s, n)
      | (.error refused, n) => (.error (e :: refused), n)

/-- The address of a port of a host. -/
def portAddress (ip : String) (port : Nat) : String := ip ++ "|" ++ toString port

/-- The endpoints of a port of a host. -/
def resolve (n : Sockets) (kind : SocketKind) (hp : HostPort) :
    Except SocketFault (List Endpoint) × Sockets :=
  let n := n.note (.resolved hp.host hp.port kind)
  match Members.find? n.hosts hp.host with
  | none => (.error (.unknownHost hp.host), n)
  | some addresses =>
    (.ok (addresses.map fun a => ⟨a.1, kind, portAddress a.2 hp.port⟩), n)

/-- Connect to a port of a host. -/
def connectHost (n : Sockets) (kind : SocketKind) (hp : HostPort) :
    Except SocketFault Socket × Sockets :=
  match n.resolve kind hp with
  | (.error e, n) => (.error e, n)
  | (.ok endpoints, n) =>
    match n.connectAny endpoints with
    | (.ok s, n) => (.ok s, n)
    | (.error refused, n) =>
      match refused.getLast? with
      | some e => (.error (.refused e.address), n)
      | none => (.error (.noAddress hp.host hp.port), n)

def connectTo (n : Sockets) (e : Endpoint) : Except SocketFault Socket × Sockets :=
  match n.connect e with
  | (some s, n) => (.ok s, n)
  | (none, n) => (.error (.refused e.address), n)

def send (n : Sockets) (s : Socket) (text : String) : Except SocketFault Unit × Sockets :=
  match n.listenerAt? s.endpoint with
  | some l => if l.broken then (.error .brokenPipe, n) else (.ok (), n.note (.sent s.number text))
  | none => (.error .brokenPipe, n)

def close (n : Sockets) (s : Socket) : Sockets := n.note (.closed s.number)

end Sockets

end Logwire
