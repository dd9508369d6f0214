import Logwire.Line.Writer
import Logwire.Net.Sockets

/-!
# Logwire.Sink.Syslogd

A sink that sends lines to a syslog daemon.

The daemon is the one of this host or one at an address.  It is dialed by the
first record, and again by the first record after a close; the socket is held
in between.  On a stream a line feed ends each line.
-/

namespace Logwire

/-! ## Daemons -/

/-- How the daemon is reached. -/
inductive SyslogNetwork where
  /-- The daemon of this host, wherever it listens. -/
  | localDaemon
  | udp
  | tcp
  | unixgram
  | unix
  deriving DecidableEq, Repr

def SyslogNetwork.text : SyslogNetwork → String
  | .localDaemon => ""
  | .udp => "udp"
  | .tcp => "tcp"
  | .unixgram => "unixgram"
  | .unix => "unix"

def SyslogNetwork.ofText? (s : String) : Option SyslogNetwork :=
  [localDaemon, udp, tcp, unixgram, unix].find? fun n => n.text = s

/-- A sink for a daemon, with the socket that it holds. -/
structure Syslogd where
  network : SyslogNetwork
  address : String
  socket : Option Socket := none
  deriving DecidableEq, Repr

namespace Syslogd

/-- Why a line is not sent. -/
inductive Fault where
  | unsupported (network : String)
  | noAddress (network : SyslogNetwork)
  | address (fault : AddressFault)
  | line (fault : Line.WriteFault)
  | socket (fault : SocketFault)
  deriving DecidableEq, Repr

def Fault.message : Fault → String
  | .unsupported name => "unsupported syslog network: " ++ name
  | .noAddress n => n.text ++ " syslog writer has no address"
  | .address e => e.message
  | .line e => e.message
  | .socket e => e.message

def ofText (network address : String) : Except Fault Syslogd :=
  match SyslogNetwork.ofText? network with
  | some n => .ok { network := n, address := address }
  | none => .error (.unsupported network)

/-! ## Dialing -/

/-- Where the daemon of this host listens, in the order tried. -/
def localPaths : List String := ["/dev/log", "/var/run/syslog", "/var/run/log"]

/-- The endpoints of the daemon of this host, in the order tried. -/
def localEndpoints : List Endpoint :=
  localPaths.flatMap fun path => [⟨.unix, .datagram, path⟩, ⟨.unix, .stream, path⟩]

/-- Connect to the daemon of this host. -/
def dialLocal (n : Sockets) : Except Fault Socket × Sockets :=
  match n.connectAny localEndpoints with
  | (.ok s, n) => (.ok s, n)
  | (.error refused, n) => (.error (.socket (.noDaemon refused)), n)

/-- Connect to the daemon at an internet address. -/
def dialHost (n : Sockets) (kind : SocketKind) (address : String) :
    Except Fault Socket × Sockets :=
  match HostPort.parse address with
  | .error e => (.error (.address e), n)
  | .ok hp =>
    match n.connectHost kind hp with
    | (.ok s, n) => (.ok s, n)
    | (.error e, n) => (.error (.socket e), n)

/-- Connect to the daemon at a path. -/
def dialPath (n : Sockets) (kind : SocketKind) (path : String) : Except Fault Socket × Sockets :=
  match n.connectTo ⟨.unix, kind, path⟩ with
  | (.ok s, n) => (.ok s, n)
  | (.error e, n) => (.error (.socket e), n)

def dial (w : Syslogd) (n : Sockets) : Except Fault Socket × Sockets :=
  if w.network = .localDaemon then dialLocal n
  else if w.address = "" then (.error (.noAddress w.network), n)
  else
    match w.network with
    | .localDaemon => dialLocal n
    | .udp => dialHost n .datagram w.address
    | .tcp => dialHost n .stream w.address
    | .unixgram => dialPath n .datagram w.address
    | .unix => dialPath n .stream w.address

/-- The socket that is held, or a new one. -/
def ensureConnected (w : Syslogd) (n : Sockets) : Except Fault Socket × Sockets :=
  match w.socket with
  | some s => (.ok s, n)
  | none => w.dial n

/-! ## Lines -/

/-- A line as a socket carries it. -/
def lineFor (s : Socket) (line : String) : String :=
  match s.endpoint.kind with
  | .datagram => line
  | .stream => line ++ "\n"

/-- Send the line of a record.  The daemon is dialed even for a record without a line. -/
def write (w : Syslogd) (n : Sockets) (r : Record) : Except Fault Unit × Syslogd × Sockets :=
  match w.ensureConnected n with
  | (.error e, n) => (.error e, w, n)
  | (.ok s, n) =>
    let held := { w with socket := some s }
    match r.written with
    | .error e => (.error (.line e), held, n)
    | .ok line =>
      match n.send s (lineFor s line) with
      | (.ok (), n) => (.ok (), held, n)
      | (.error e, n) => (.error (.socket e), held, n)

def close (w : Syslogd) (n : Sockets) : Syslogd × Sockets :=
  match w.socket with
  | some s => ({ w with socket := none }, n.close s)
  | none => (w, n)

end Syslogd

end Logwire
