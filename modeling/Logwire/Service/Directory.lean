import Logwire.Net.Http
import Logwire.Service.Platform

/-!
# Logwire.Service.Directory

The directory of a process: its own identity and the addresses of the services
it depends on.

At startup the addresses are resolved and every service that is required is
asked for its health, once, in order of first mention; the first one that is
not healthy ends the startup.  The process itself and services that are not
reached over HTTP are not asked.

* `resolve_addService` — the addresses found so far have no part in a resolution.
-/

namespace Logwire

/-! ## Journal -/

/-- The weight of an entry. -/
inductive JournalLevel where
  | debug
  | warning
  deriving DecidableEq, Repr

/-- What the directory tells of its work. -/
structure JournalEntry where
  level : JournalLevel
  text : String
  deriving DecidableEq, Repr

/-! ## Faults -/

/-- Why there is no directory. -/
inductive StartupFault where
  | config (fault : ConfigFault)
  | unhealthy (service url reason : String)
  | invalidUrl (text : String)
  deriving DecidableEq, Repr

def StartupFault.message : StartupFault → String
  | .config e => e.message
  | .unhealthy service url reason =>
    "Health check failed for service: " ++ service ++ " at " ++ url ++ " (" ++ reason ++ ")"
  | .invalidUrl text => text

/-- The wording for a name that is not in the directory. -/
def unknownServiceMessage (name : String) : String := "Unknown service: " ++ name

/-! ## Resolution -/

def urlOf (address path : String) : String := "http://" ++ address ++ path

/-- A directory.  A client of its own is closed with it. -/
structure Directory where
  name : String
  address : String
  bindTo : String
  space : String
  domain : String
  endpoints : Members String := []
  ownsClient : Bool
  closed : Bool := false
  deriving DecidableEq, Repr

namespace Directory

/-- A domain with a dot in front. -/
def dotted (domain : String) : String :=
  match domain.toList with
  | '.' :: _ => domain
  | _ => "." ++ domain

/-- A text that may be empty or missing. -/
def orElse (text : String) (default : String) : String := if text = "" then default else text

/-- The identity of a process, without its services. -/
def identity (name : String) (s : Settings) (app : Option Application) (ownsClient : Bool) :
    Directory where
  name := name
  address := (app.map Application.address).getD localAddress
  bindTo := (app.map Application.bindTo).getD localAddress
  space := orElse (s.space.getD "") defaultSpace
  domain :=
    let given := s.domain.getD ""
    if given = "" then orElse ((app.map Application.domain).getD "") defaultDomain
    else dotted given
  ownsClient := ownsClient

/-- The address of a required service: the process's own, the one that the platform gives, or the
conventional host name. -/
def resolve (d : Directory) (bound : Members String) (key : String) : String :=
  if key = d.name then d.address else (Members.find? bound key).getD (key ++ d.domain)

def addService (d : Directory) (key address : String) : Directory :=
  { d with endpoints := Members.insert d.endpoints key address }

def register (d : Directory) (bound : Members String) (required : List String) : Directory :=
  required.foldl (fun d key => d.addService key (d.resolve bound key)) d

/-- What is told of the required services. -/
def registerJournal (d : Directory) (bound : Members String) (required : List String) :
    List JournalEntry :=
  required.map fun key =>
    ⟨.debug, "Required service: " ++ key ++ " at " ++ d.resolve bound key⟩

/-! ## Health -/

def healthyStatus : Int := 200

/-- The services that are asked for their health. -/
def checked (d : Directory) : List (String × String) :=
  d.endpoints.filter fun m => m.1 ≠ d.name && isHttpName m.1

/-- What is found of the health of a service. -/
def healthOf (key url : String) (outcome : Except TransportFault Reply) :
    Except StartupFault Unit × List JournalEntry :=
  match outcome with
  | .error (.invalidUrl text) => (.error (.invalidUrl text), [])
  | .error (.failed _ text) =>
    (.error (.unhealthy key url text),
      [⟨.warning, "Health check errored for service: " ++ key ++ " at " ++ url⟩])
  | .ok r =>
    if r.status = healthyStatus then
      (.ok (), [⟨.debug, "Service healthy: " ++ key ++ " at " ++ url⟩])
    else
      let status := Number.intText r.status
      (.error (.unhealthy key url ("status " ++ status)),
        [⟨.warning,
          "Health check failed for service: " ++ key ++ " at " ++ url ++ " (" ++ status ++ ")"⟩])

/-- Ask services for their health, until one is not healthy. -/
def checkHealth (h : Http) : List (String × String) →
    Except StartupFault Unit × Http × List JournalEntry
  | [] => (.ok (), h, [])
  | (key, address) :: rest =>
    let url := urlOf address (healthPath key)
    let (outcome, h) := h.request (.get url)
    match healthOf key url outcome with
    | (.error e, entries) => (.error e, h, entries)
    | (.ok (), entries) =>
      let (result, h, more) := checkHealth h rest
      (result, h, entries ++ more)

/-! ## Startup -/

/-- The time in seconds that a client of the directory's own waits for a reply. -/
def clientTimeout : Number.Binary64 := .finite false ⟨1025, by decide⟩ ⟨1 <<< 50, by decide⟩

/-- A client of the directory's own is made. -/
def openClient (ownsClient : Bool) (h : Http) : Http :=
  if ownsClient then h.note (.opened clientTimeout) else h

/-- The client of the directory is closed if it is its own. -/
def closeClient (ownsClient : Bool) (h : Http) : Http :=
  if ownsClient then h.note .closed else h

/-- Resolve the required services and ask for their health. -/
def resolveAndCheck (h : Http) (settings : Except ConfigFault Settings) (name : String)
    (required : List String) (ownsClient : Bool) :
    Except StartupFault Directory × Http × List JournalEntry :=
  match settings with
  | .error e => (.error (.config e), h, [])
  | .ok s =>
    match s.process with
    | .error e => (.error (.config e), h, [])
    | .ok app =>
      let d := identity name s app ownsClient
      let entries := d.registerJournal s.addresses required
      let d := d.register s.addresses required
      match checkHealth h d.checked with
      | (.ok (), h, more) => (.ok d, h, entries ++ more)
      | (.error e, h, more) => (.error e, h, entries ++ more)

/-- Build the directory of a process.  A client of its own is made first, and closed again when
there is no directory. -/
def build (h : Http) (settings : Except ConfigFault Settings) (name : ServiceRef)
    (required : List ServiceRef) (ownsClient : Bool) :
    Except StartupFault Directory × Http × List JournalEntry :=
  match resolveAndCheck (openClient ownsClient h) settings name.key
    (required.map ServiceRef.key) ownsClient with
  | (.ok d, h, entries) => (.ok d, h, entries)
  | (.error e, h, entries) => (.error e, closeClient ownsClient h, entries)

/-- Build the directory of a process with the settings in its environment. -/
def start (h : Http) (env : Environment) (name : String) (required : List String)
    (ownsClient : Bool) : Except StartupFault Directory × Http × List JournalEntry :=
  build h (Settings.ofEnvironment env) (.named name) (required.map .named) ownsClient

/-! ## Use -/

def addressOf? (d : Directory) (key : String) : Option String := Members.find? d.endpoints key

def urlOf? (d : Directory) (key : String) : Option String :=
  (d.addressOf? key).map fun address => urlOf address (endpointPath key)

def close (d : Directory) (h : Http) : Directory × Http :=
  ({ d with closed := d.closed || d.ownsClient }, closeClient d.ownsClient h)

/-! ## Laws -/

@[simp] theorem name_addService (d : Directory) (key address : String) :
    (d.addService key address).name = d.name := rfl

/-- Resolution depends on the identity only. -/
theorem resolve_addService (d : Directory) (bound : Members String) (key address other : String) :
    (d.addService key address).resolve bound other = d.resolve bound other := rfl

end Directory

end Logwire
