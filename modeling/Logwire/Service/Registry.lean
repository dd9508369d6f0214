import Logwire.Text.Quoted

/-!
# Logwire.Service.Registry

The services of the family, by the names they are looked up with, and the paths
under which each of them answers.
-/

namespace Logwire

/-- The services of the family. -/
inductive ServiceName where
  | discover
  | elasticsearch
  /-- No real service; it stands in where a name is needed. -/
  | gocommon
  | kafka
  | logger
  | uuidgen
  | workflow
  | hello
  | serviceController
  | metrics
  deriving DecidableEq, Repr

namespace ServiceName

def all : List ServiceName :=
  [discover, elasticsearch, gocommon, kafka, logger, uuidgen, workflow, hello, serviceController,
    metrics]

def key : ServiceName → String
  | discover => "pz-discover"
  | elasticsearch => "pz-elasticsearch"
  | gocommon => "PZ-GOCOMMON"
  | kafka => "pz-kafka"
  | logger => "pz-logger"
  | uuidgen => "pz-uuidgen"
  | workflow => "pz-workflow"
  | hello => "pzsvc-hello"
  | serviceController => "pz-servicecontroller"
  | metrics => "pz-metrics"

/-- The name of a service in the registry. -/
def label : ServiceName → String
  | discover => "DISCOVER"
  | elasticsearch => "ELASTICSEARCH"
  | gocommon => "GOCOMMON"
  | kafka => "KAFKA"
  | logger => "LOGGER"
  | uuidgen => "UUIDGEN"
  | workflow => "WORKFLOW"
  | hello => "HELLO"
  | serviceController => "SERVICE_CONTROLLER"
  | metrics => "METRICS"

/-- The service of a name, which must match exactly. -/
def ofKey? (name : String) : Option ServiceName := all.find? fun s => s.key = name

/-- The wording for a name that no service has. -/
def unknownMessage (name : String) : String := Text.quoted name ++ " is not a valid ServiceName"

/-- A service is found by its key. -/
theorem ofKey?_key (s : ServiceName) : ofKey? s.key = some s := by
  cases s <;> decide

/-- The path in front of the endpoints of a service. -/
def endpointPath : ServiceName → String
  | _ => ""

/-- The path that shows the health of a service. -/
def healthPath : ServiceName → String
  | logger | uuidgen | workflow | hello | metrics => "/"
  | discover | elasticsearch | gocommon | kafka | serviceController => ""

/-- Whether a service is reached over HTTP. -/
def isHttp : ServiceName → Bool
  | kafka => false
  | _ => true

end ServiceName

/-- A name as a caller gives it: that of a service of the family, or any text. -/
inductive ServiceRef where
  | known (service : ServiceName)
  | named (name : String)
  deriving DecidableEq, Repr

/-- The name itself.  A service and its name in text are the same. -/
def ServiceRef.key : ServiceRef → String
  | .known service => service.key
  | .named name => name

/-- The path in front of the endpoints of a name; a name without a service has none. -/
def endpointPath (name : String) : String :=
  ((ServiceName.ofKey? name).map ServiceName.endpointPath).getD ""

/-- The path that shows the health of a name; a name without a service has none. -/
def healthPath (name : String) : String :=
  ((ServiceName.ofKey? name).map ServiceName.healthPath).getD ""

/-- Whether a name is reached over HTTP. -/
def isHttpName (name : String) : Bool :=
  ((ServiceName.ofKey? name).map ServiceName.isHttp).getD true

/-! ## Defaults -/

/-- The domain of services when the platform names none. -/
def defaultDomain : String := ".int.geointservices.io"

/-- The space of services when the platform names none. -/
def defaultSpace : String := "int"

/-- The address of a process that the platform gives none. -/
def localAddress : String := "localhost:0"

/-- Where services are found when the platform binds none. -/
def localServices : List (String × String) :=
  [(ServiceName.elasticsearch.key, "localhost:9200"), (ServiceName.kafka.key, "localhost:9092"),
    (ServiceName.logger.key, "localhost:14600"), (ServiceName.uuidgen.key, "localhost:14800")]

end Logwire
