import Logwire.Json.Reader
import Logwire.Number.Decimal
import Logwire.Service.PortNumber
import Logwire.Service.Registry

/-!
# Logwire.Service.Platform

What the platform says in the environment about the running process and the
services bound to it: two JSON objects and three plain variables.

Names of variables, and the names of the members at the top of the objects,
match without regard to case; of several that match the last one counts.  An
empty variable counts as unset.  Strings and lists must be given as such.  A
value within too many others is a fault of its own, which shows before any other.
-/

namespace Logwire

open Text Number

/-! ## Settings -/

/-- The running process as an application of the platform. -/
structure ApplicationInfo where
  id : String := ""
  name : String := ""
  uris : List String := []
  deriving DecidableEq, Repr

/-- A service that is bound to the process. -/
structure BoundService where
  name : String := ""
  host : String := ""
  label : String := ""
  drainUrl : String := ""
  tags : List String := []
  deriving DecidableEq, Repr

/-- The settings that the platform makes. -/
structure Settings where
  application : Option ApplicationInfo := none
  services : Option (List BoundService) := none
  port : Option Port := none
  domain : Option String := none
  space : Option String := none
  deriving DecidableEq, Repr

/-- Why the settings cannot be used. -/
inductive ConfigFault where
  /-- A variable is malformed. -/
  | unreadable
  /-- A value in a variable is within too many others. -/
  | tooDeep (container : Json.Container)
  | noUris
  | noPort
  deriving DecidableEq, Repr

def ConfigFault.message : ConfigFault → String
  | .unreadable => "Unable to read platform environment"
  | .tooDeep container => Json.tooDeepMessage container
  | .noUris => "VCAP_APPLICATION has no application_uris"
  | .noPort => "Unable to read $PORT for PCF deployment"

/-! ## Variables -/

/-- A name without regard to case. -/
def lowerName (s : String) : String := String.ofList (s.toList.map Char.toLower)

/-- The last member whose name matches without regard to case. -/
def findFolded? {α : Type} (ms : Members α) (name : String) : Option α :=
  ms.foldl (fun found m => if lowerName m.1 = name then some m.2 else found) none

/-- The environment of a process. -/
abbrev Environment := Members String

/-- The value of a variable that is set and not empty. -/
def Environment.lookup? (env : Environment) (name : String) : Option String :=
  findFolded? (env.filter fun m => m.2 ≠ "") name

def Environment.port (env : Environment) : Except ConfigFault (Option Port) :=
  match env.lookup? "port" with
  | none => .ok none
  | some text =>
    match (PortNumber.read text).bind Port.ofInt? with
    | some p => .ok (some p)
    | none => .error .unreadable

/-! ## Objects -/

def textOfJson : Json → Except ConfigFault String
  | .str s => .ok s
  | _ => .error .unreadable

def textsOfJson : Json → Except ConfigFault (List String)
  | .arr items => items.mapM textOfJson
  | _ => .error .unreadable

/-- A value that may be missing. -/
def orDefault {α : Type} (read : Json → Except ConfigFault α) (default : α) :
    Option Json → Except ConfigFault α
  | none => .ok default
  | some v => read v

def ApplicationInfo.ofMembers (ms : List (String × Json)) : Except ConfigFault ApplicationInfo := do
  let id ← orDefault textOfJson "" (findFolded? ms "application_id")
  let name ← orDefault textOfJson "" (findFolded? ms "application_name")
  let uris ← orDefault textsOfJson [] (findFolded? ms "application_uris")
  return ⟨id, name, uris⟩

/-- The host in the credentials of a service. -/
def hostOfJson : Json → Except ConfigFault String
  | .obj ms => orDefault textOfJson "" (Members.find? ms "host")
  | _ => .error .unreadable

def BoundService.ofJson : Json → Except ConfigFault BoundService
  | .obj ms => do
    let host ← orDefault hostOfJson "" (Members.find? ms "credentials")
    let label ← orDefault textOfJson "" (Members.find? ms "label")
    let name ← orDefault textOfJson "" (Members.find? ms "name")
    let drainUrl ← orDefault textOfJson "" (Members.find? ms "syslog_drain_url")
    let tags ← orDefault textsOfJson [] (Members.find? ms "tags")
    return ⟨name, host, label, drainUrl, tags⟩
  | _ => .error .unreadable

def servicesOfJson : Json → Except ConfigFault (List BoundService)
  | .arr items => items.mapM BoundService.ofJson
  | _ => .error .unreadable

/-- The bound services that members describe.  The name with the underscore counts in just this
spelling and only where the name with the hyphen is missing. -/
def servicesOfMembers (ms : List (String × Json)) : Except ConfigFault (List BoundService) :=
  orDefault servicesOfJson []
    ((findFolded? ms "user-provided").or (Members.find? ms "user_provided"))

/-- The JSON value of a variable, if it is set. -/
def Environment.json? (env : Environment) (name : String) :
    Option (Except Json.ParseFault Json) :=
  (env.lookup? name).map fun text => Json.parse text.toList

/-- The variable holds no value within too many others. -/
def checkDepth : Option (Except Json.ParseFault Json) → Except ConfigFault Unit
  | some (.error e) =>
    match e.cause with
    | .tooDeep container => .error (.tooDeep container)
    | _ => .ok ()
  | _ => .ok ()

/-- The value of a variable that holds an object; null counts as unset. -/
def objectOf {α : Type} (read : List (String × Json) → Except ConfigFault α) :
    Option (Except Json.ParseFault Json) → Except ConfigFault (Option α)
  | none => .ok none
  | some (.ok .null) => .ok none
  | some (.ok (.obj ms)) => (read ms).map some
  | some _ => .error .unreadable

def Settings.ofEnvironment (env : Environment) : Except ConfigFault Settings := do
  let application := env.json? "vcap_application"
  let services := env.json? "vcap_services"
  checkDepth application
  checkDepth services
  let application ← objectOf ApplicationInfo.ofMembers application
  let services ← objectOf servicesOfMembers services
  let port ← env.port
  return ⟨application, services, port, env.lookup? "domain", env.lookup? "space"⟩

/-! ## The process on the platform -/

/-- The running process: its name, its public address and where it listens. -/
structure Application where
  name : String
  address : String
  bindTo : String
  deriving DecidableEq, Repr

/-- An address without its first label, or nothing when it has no dot. -/
def domainOf (address : String) : String :=
  String.ofList (address.toList.dropWhile (· ≠ '.'))

def Application.domain (a : Application) : String := domainOf a.address

namespace Settings

/-- The running process, if the platform knows it. -/
def process (s : Settings) : Except ConfigFault (Option Application) :=
  match s.application with
  | none => .ok none
  | some info =>
    match info.uris with
    | [] => .error .noUris
    | address :: _ =>
      match s.port with
      | none => .error .noPort
      | some p => .ok (some ⟨info.name, address, ":" ++ intText p.number⟩)

/-- The addresses of the bound services; the last one of a name counts. -/
def addresses (s : Settings) : Members String :=
  match s.services with
  | none => localServices
  | some entries => entries.foldl (fun ms e => Members.insert ms e.name e.host) []

end Settings

end Logwire
