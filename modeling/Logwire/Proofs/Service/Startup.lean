import Logwire.Proofs.Json.Members
import Logwire.Proofs.Service.Waiting

/-!
# Logwire.Proofs.Service.Startup

The startup of a process, request by request.

The required services that have to be asked are told by the names alone,
`dependencies`: each once, in the order of first mention.  They are asked one
after the other up to the first that is not healthy, `Probed`, and how that goes
decides how the startup goes, `Started`.  A startup that fails closes the client
of its own; after one that succeeds only a close does: `closings_useAll`.
-/

namespace Logwire

/-! ## Names and settings -/

/-- All names but one are reached over HTTP. -/
theorem isHttpName_eq (name : String) : isHttpName name = decide (name ≠ "pz-kafka") := by
  unfold isHttpName
  cases hs : ServiceName.ofKey? name with
  | none =>
    have hne : name ≠ "pz-kafka" := by
      rintro rfl
      have hkafka : ServiceName.ofKey? "pz-kafka" = some .kafka := ServiceName.ofKey?_key .kafka
      rw [hs] at hkafka
      cases hkafka
    simp [hne]
  | some service =>
    obtain rfl : service.key = name := by simpa using List.find?_some hs
    cases service <;> decide

/-- Settings that tell of an application without an address, or without a port. -/
def Settings.Contradictory (s : Settings) : Prop :=
  ∃ info, s.application = some info ∧ (info.uris = [] ∨ s.port = none)

/-- The identity of a process is unknown exactly if the settings are contradictory. -/
theorem Settings.exists_process_eq_error_iff (s : Settings) :
    (∃ e, s.process = .error e) ↔ s.Contradictory := by
  unfold Settings.process Settings.Contradictory
  cases s.application with
  | none => simp
  | some info =>
    cases hu : info.uris with
    | nil => simp [hu]
    | cons address rest => cases s.port <;> simp [hu]

namespace Directory

variable {d : Directory} {bound : Members String} {h : Http}

/-! ## Registration -/

/-- Registration enters addresses and leaves the identity as it is. -/
theorem register_eq (d : Directory) (bound : Members String) (required : List String) :
    d.register bound required = { d with
      endpoints := Members.insertAll d.endpoints
        (required.map fun key => (key, d.resolve bound key)) } := by
  induction required generalizing d with
  | nil => rfl
  | cons key rest ih => exact ih (d.addService key (d.resolve bound key))

theorem name_register (d : Directory) (bound : Members String) (required : List String) :
    (d.register bound required).name = d.name := by
  rw [register_eq]

/-- A directory without addresses gets one for each required name. -/
theorem endpoints_register (hnone : d.endpoints = []) (bound : Members String)
    (required : List String) :
    (d.register bound required).endpoints =
      required.eraseDups.map fun key => (key, d.resolve bound key) := by
  rw [register_eq, hnone]
  exact Members.insertAll_map (d.resolve bound) required

/-- Each required name is asked once, but for the process itself and what is not reached over
HTTP. -/
theorem checked_register (hnone : d.endpoints = []) (bound : Members String)
    (required : List String) :
    (d.register bound required).checked =
      (required.eraseDups.filter fun key => key ≠ d.name ∧ key ≠ "pz-kafka").map
        fun key => (key, d.resolve bound key) := by
  rw [checked, name_register, endpoints_register hnone, List.filter_map]
  congr 1
  refine List.filter_congr fun key _ => ?_
  simp [isHttpName_eq]

/-! ## Health -/

/-- The required services that have to be asked for their health. -/
def dependencies (name : ServiceRef) (required : List ServiceRef) : List String :=
  (required.map ServiceRef.key).eraseDups.filter fun key => key ≠ name.key ∧ key ≠ "pz-kafka"

/-- The URL that a service is asked at. -/
def healthUrl (d : Directory) (bound : Members String) (key : String) : String :=
  urlOf (d.resolve bound key) (healthPath key)

/-- The requests for the health of services. -/
def probes (d : Directory) (bound : Members String) (keys : List String) : List Request :=
  keys.map fun key => .get (d.healthUrl bound key)

/-- A reply of the status 200. -/
def Healthy (outcome : Except TransportFault Reply) : Prop :=
  ∃ r, outcome = .ok r ∧ r.status = 200

/-- What is reported of a service that is not healthy. -/
inductive Unhealthy (key url : String) : Except TransportFault Reply → StartupFault → Prop where
  | status {r : Reply} (other : r.status ≠ 200) :
      Unhealthy key url (.ok r) (.unhealthy key url ("status " ++ Number.intText r.status))
  | unreached (cause : TransportCause) (text : String) :
      Unhealthy key url (.error (.failed cause text)) (.unhealthy key url text)
  /-- A URL that makes no sense is no matter of health. -/
  | senseless (text : String) : Unhealthy key url (.error (.invalidUrl text)) (.invalidUrl text)

/-- No outcome is both. -/
theorem Unhealthy.not_healthy {key url : String} {outcome : Except TransportFault Reply}
    {fault : StartupFault} (hu : Unhealthy key url outcome fault) : ¬ Healthy outcome := by
  rintro ⟨r, rfl, hr⟩
  cases hu with
  | status other => exact other hr

/-- Each outcome is one of the two, and is reported so. -/
theorem healthOf_cases (key url : String) (outcome : Except TransportFault Reply) :
    (Healthy outcome ∧ (healthOf key url outcome).1 = .ok ()) ∨
      ∃ fault, Unhealthy key url outcome fault ∧ (healthOf key url outcome).1 = .error fault := by
  match outcome with
  | .error (.invalidUrl text) => exact .inr ⟨_, .senseless text, rfl⟩
  | .error (.failed cause text) => exact .inr ⟨_, .unreached cause text, rfl⟩
  | .ok r =>
    by_cases hr : r.status = healthyStatus
    · exact .inl ⟨⟨r, rfl, hr⟩, by simp [healthOf, hr]⟩
    · exact .inr ⟨_, .status hr, by simp [healthOf, hr]⟩

/-- How asking services for their health goes, and the requests that are made. -/
inductive Probed (d : Directory) (bound : Members String) (h : Http) (keys : List String) :
    Except StartupFault Unit → List Request → Prop where
  /-- All are asked, and all are healthy. -/
  | healthy (answers : ∀ o ∈ h.outcomes (d.probes bound keys), Healthy o) :
      Probed d bound h keys (.ok ()) (d.probes bound keys)
  /-- The first that is not healthy is the last that is asked. -/
  | unhealthy {front back : List String} {key : String} {fault : StartupFault}
      (split : keys = front ++ key :: back)
      (answers : ∀ o ∈ h.outcomes (d.probes bound front), Healthy o)
      (found : Unhealthy key (d.healthUrl bound key)
        ((h.afterRequests (d.probes bound front)).request (.get (d.healthUrl bound key))).1 fault) :
      Probed d bound h keys (.error fault) (d.probes bound (front ++ [key]))

theorem probes_append (d : Directory) (bound : Members String) (keys keys' : List String) :
    d.probes bound (keys ++ keys') = d.probes bound keys ++ d.probes bound keys' :=
  List.map_append

/-- Asking goes well exactly if all services are healthy. -/
theorem Probed.isOk_iff {keys : List String} {result : Except StartupFault Unit}
    {asked : List Request} (hp : Probed d bound h keys result asked) :
    result.isOk = true ↔ ∀ o ∈ h.outcomes (d.probes bound keys), Healthy o := by
  cases hp with
  | healthy answers => exact iff_of_true rfl answers
  | @unhealthy front back key fault split answers found =>
    refine iff_of_false nofun fun hall => found.not_healthy (hall _ ?_)
    rw [split, probes_append, Http.outcomes_append]
    exact List.mem_append_right _ List.mem_cons_self

/-- One service more in front that is healthy. -/
theorem Probed.cons {key : String} {keys : List String} {result : Except StartupFault Unit}
    {asked : List Request}
    (hk : Healthy (h.request (.get (d.healthUrl bound key))).1)
    (hp : Probed d bound (h.request (.get (d.healthUrl bound key))).2 keys result asked) :
    Probed d bound h (key :: keys) result (.get (d.healthUrl bound key) :: asked) := by
  cases hp with
  | healthy answers => exact .healthy (List.forall_mem_cons.mpr ⟨hk, answers⟩)
  | @unhealthy front back key' fault split answers found =>
    exact @Probed.unhealthy d bound h (key :: keys) (key :: front) back key' fault
      (by rw [split]; rfl) (List.forall_mem_cons.mpr ⟨hk, answers⟩) found

/-- A check asks services up to the first that is not healthy. -/
theorem probed_checkHealth (d : Directory) (bound : Members String) (h : Http)
    (keys : List String) :
    ∃ result asked entries, Probed d bound h keys result asked ∧
      checkHealth h (keys.map fun key => (key, d.resolve bound key)) =
        (result, h.afterRequests asked, entries) := by
  induction keys generalizing h with
  | nil => exact ⟨.ok (), [], [], .healthy nofun, rfl⟩
  | cons key keys ih =>
    have hcases := healthOf_cases key (d.healthUrl bound key)
      (h.request (.get (d.healthUrl bound key))).1
    rcases hhealth : healthOf key (d.healthUrl bound key)
      (h.request (.get (d.healthUrl bound key))).1 with ⟨found, told⟩
    rw [hhealth] at hcases
    rw [healthUrl] at hhealth
    rcases hcases with ⟨hhealthy, rfl⟩ | ⟨fault, hfault, rfl⟩
    · obtain ⟨result, asked, entries, hprobed, hrest⟩ :=
        ih (h.request (.get (d.healthUrl bound key))).2
      refine ⟨result, _, told ++ entries, hprobed.cons hhealthy, ?_⟩
      rw [healthUrl] at hrest
      simp only [List.map_cons, checkHealth, hhealth, hrest]
      rfl
    · have hprobed : Probed d bound h (key :: keys) (.error fault) (d.probes bound [key]) :=
        @Probed.unhealthy d bound h (key :: keys) [] keys key fault rfl nofun hfault
      refine ⟨_, _, told, hprobed, ?_⟩
      simp only [List.map_cons, checkHealth, hhealth]
      rfl

/-! ## Startup -/

/-- How a startup goes, and the requests that are made. -/
inductive Started (h : Http) (settings : Except ConfigFault Settings) (name : ServiceRef)
    (required : List ServiceRef) (ownsClient : Bool) :
    Except StartupFault Directory → List Request → Prop where
  /-- The settings cannot be read. -/
  | unreadable {e : ConfigFault} (given : settings = .error e) :
      Started h settings name required ownsClient (.error (.config e)) []
  /-- The settings are contradictory. -/
  | contradictory {s : Settings} {e : ConfigFault} (given : settings = .ok s)
      (cause : s.Contradictory) (fault : s.process = .error e) :
      Started h settings name required ownsClient (.error (.config e)) []
  /-- All services that have to be asked are healthy. -/
  | healthy {s : Settings} {app : Option Application} {d : Directory} {asked : List Request}
      (given : settings = .ok s) (known : s.process = .ok app)
      (made : d = identity name.key s app ownsClient)
      (probed : d.Probed s.addresses h (dependencies name required) (.ok ()) asked) :
      Started h settings name required ownsClient
        (.ok (d.register s.addresses (required.map ServiceRef.key))) asked
  /-- One of them is not. -/
  | unhealthy {s : Settings} {app : Option Application} {d : Directory} {asked : List Request}
      {fault : StartupFault} (given : settings = .ok s) (known : s.process = .ok app)
      (made : d = identity name.key s app ownsClient)
      (probed : d.Probed s.addresses h (dependencies name required) (.error fault) asked) :
      Started h settings name required ownsClient (.error fault) asked

/-- A startup ends where the settings, or the first unhealthy service, end it. -/
theorem started_resolveAndCheck (h : Http) (settings : Except ConfigFault Settings)
    (name : ServiceRef) (required : List ServiceRef) (ownsClient : Bool) :
    ∃ result asked entries, Started h settings name required ownsClient result asked ∧
      resolveAndCheck h settings name.key (required.map ServiceRef.key) ownsClient =
        (result, h.afterRequests asked, entries) := by
  cases hsettings : settings with
  | error e => exact ⟨_, [], [], .unreadable rfl, rfl⟩
  | ok s =>
    cases hprocess : s.process with
    | error e =>
      refine ⟨_, [], [], .contradictory rfl (s.exists_process_eq_error_iff.mp ⟨e, hprocess⟩)
        hprocess, ?_⟩
      simp only [resolveAndCheck, hprocess]
      rfl
    | ok app =>
      obtain ⟨d, hidentity⟩ : ∃ d, d = identity name.key s app ownsClient := ⟨_, rfl⟩
      have hnone : d.endpoints = [] := by rw [hidentity]; rfl
      have hname : d.name = name.key := by rw [hidentity]; rfl
      have hchecked : (d.register s.addresses (required.map ServiceRef.key)).checked =
          (dependencies name required).map fun key => (key, d.resolve s.addresses key) := by
        rw [checked_register hnone, hname]
        rfl
      obtain ⟨result, asked, entries, hprobed, hcheck⟩ :=
        probed_checkHealth d s.addresses h (dependencies name required)
      have hresolve : resolveAndCheck h (.ok s) name.key (required.map ServiceRef.key) ownsClient =
          (result.map fun _ => d.register s.addresses (required.map ServiceRef.key),
            h.afterRequests asked,
            d.registerJournal s.addresses (required.map ServiceRef.key) ++ entries) := by
        simp only [resolveAndCheck, hprocess, ← hidentity, hchecked, hcheck]
        cases result <;> rfl
      refine ⟨_, asked, _, ?_, hresolve⟩
      cases result with
      | ok => exact .healthy rfl hprocess hidentity hprobed
      | error fault => exact .unhealthy rfl hprocess hidentity hprobed

/-- A startup succeeds exactly if the settings are in order and all services are healthy. -/
theorem Started.isOk_iff {settings : Except ConfigFault Settings} {name : ServiceRef}
    {required : List ServiceRef} {ownsClient : Bool} {result : Except StartupFault Directory}
    {asked : List Request} (hs : Started h settings name required ownsClient result asked) :
    result.isOk = true ↔ ∃ s app, settings = .ok s ∧ s.process = .ok app ∧
      ∀ o ∈ h.outcomes ((identity name.key s app ownsClient).probes s.addresses
        (dependencies name required)), Healthy o := by
  cases hs with
  | unreadable given =>
    refine iff_of_false nofun ?_
    rintro ⟨s, app, hs, -⟩
    cases given.symm.trans hs
  | contradictory given cause fault =>
    refine iff_of_false nofun ?_
    rintro ⟨s, app, hs, happ, -⟩
    obtain rfl := Except.ok.inj (given.symm.trans hs)
    cases fault.symm.trans happ
  | healthy given known made probed =>
    subst made
    exact iff_of_true rfl ⟨_, _, given, known, probed.isOk_iff.mp rfl⟩
  | unhealthy given known made probed =>
    subst made
    refine iff_of_false nofun ?_
    rintro ⟨s, app, hs, happ, hall⟩
    obtain rfl := Except.ok.inj (given.symm.trans hs)
    obtain rfl := Except.ok.inj (known.symm.trans happ)
    cases probed.isOk_iff.mpr hall

/-! ## Use -/

/-- What may be done with a directory that touches its services or its client. -/
inductive Use where
  | addService (name : ServiceRef) (address : String)
  | wait (condition : Condition) (name : ServiceRef)
  | waitAt (condition : Condition) (name : ServiceRef) (address : String)
  | close
  deriving DecidableEq

/-- The directory and the network after a use. -/
def use (d : Directory) (h : Http) : Use → Directory × Http
  | .addService name address => (d.addService name.key address, h)
  | .wait condition name => (d, (d.wait h condition name.key).2)
  | .waitAt condition name address => (d, (waitAt h condition name.key address).2)
  | .close => d.close h

/-- The directory and the network after uses in a row. -/
def useAll (d : Directory) (h : Http) (uses : List Use) : Directory × Http :=
  uses.foldl (fun s u => s.1.use s.2 u) (d, h)

/-- The closes of a client in a row of events. -/
def closings (events : List HttpEvent) : Nat := events.count .closed

theorem closings_append (events more : List HttpEvent) :
    closings (events ++ more) = closings events + closings more := List.count_append

/-- Waiting makes requests, and nothing else. -/
theorem closings_waitUntil (c : Condition) (service url : String) (deadline : Nat) (h : Http) :
    closings (waitUntil c service url deadline h).2.events = closings h.events := by
  obtain ⟨n, hn⟩ := exists_waited c service url deadline h
  rw [hn.events, closings_append, closings, closings, List.count_replicate]
  rfl

theorem ownsClient_use (d : Directory) (h : Http) (u : Use) :
    (d.use h u).1.ownsClient = d.ownsClient := by
  cases u <;> rfl

/-- Only a close closes the client, and only a client of the directory's own. -/
theorem closings_use (d : Directory) (h : Http) (u : Use) :
    closings (d.use h u).2.events =
      closings h.events + if d.ownsClient = true ∧ u = .close then 1 else 0 := by
  cases u with
  | addService name address => simp [use]
  | wait c name =>
    simp only [use, wait]
    cases d.addressOf? name.key with
    | none => simp
    | some address => simpa [waitAt] using closings_waitUntil c name.key _ _ h
  | waitAt c name address => simpa [use, waitAt] using closings_waitUntil c name.key _ _ h
  | close =>
    simp only [use, close, closeClient, and_true]
    split
    · exact closings_append h.events [.closed]
    · rfl

/-- A client is closed as often as its directory is, and never if it is not the directory's own. -/
theorem closings_useAll (d : Directory) (h : Http) (uses : List Use) :
    closings (d.useAll h uses).2.events =
      closings h.events + if d.ownsClient then uses.count .close else 0 := by
  induction uses generalizing d h with
  | nil => simp [useAll]
  | cons u uses ih =>
    have hcons : d.useAll h (u :: uses) = (d.use h u).1.useAll (d.use h u).2 uses := rfl
    rw [hcons, ih, closings_use, ownsClient_use, List.count_cons]
    cases d.ownsClient <;> simp [Nat.add_assoc, Nat.add_comm]

/-! ## Fail-fast startup -/

/-- What is on record of the client at the start. -/
def opening (ownsClient : Bool) : List HttpEvent :=
  if ownsClient then [.opened clientTimeout] else []

/-- What is on record of the client when there is no directory for it. -/
def closing (ownsClient : Bool) : List HttpEvent := if ownsClient then [.closed] else []

theorem events_openClient (ownsClient : Bool) (h : Http) :
    (openClient ownsClient h).events = h.events ++ opening ownsClient := by
  cases ownsClient
  · exact (List.append_nil _).symm
  · rfl

theorem events_closeClient (ownsClient : Bool) (h : Http) :
    (closeClient ownsClient h).events = h.events ++ closing ownsClient := by
  cases ownsClient
  · exact (List.append_nil _).symm
  · rfl

theorem ownsClient_register (d : Directory) (bound : Members String) (required : List String) :
    (d.register bound required).ownsClient = d.ownsClient := by
  rw [register_eq]

/-- The client of a directory is its own exactly if it was made for it. -/
theorem Started.ownsClient_eq {settings : Except ConfigFault Settings} {name : ServiceRef}
    {required : List ServiceRef} {ownsClient : Bool} {asked : List Request}
    (hs : Started h settings name required ownsClient (.ok d) asked) :
    d.ownsClient = ownsClient := by
  cases hs with
  | healthy given known made probed =>
    rw [ownsClient_register, made]
    rfl

/-- **A startup asks each service once and ends at the first that is not healthy.**  A client of
its own is closed when it fails; after a success only a close of the directory closes it. -/
theorem started_build (h : Http) (settings : Except ConfigFault Settings) (name : ServiceRef)
    (required : List ServiceRef) (ownsClient : Bool) :
    ∃ result h' told asked, build h settings name required ownsClient = (result, h', told) ∧
      Started (openClient ownsClient h) settings name required ownsClient result asked ∧
      (result.isOk = true ↔ ∃ s app, settings = .ok s ∧ s.process = .ok app ∧
        ∀ o ∈ (openClient ownsClient h).outcomes
          ((identity name.key s app ownsClient).probes s.addresses (dependencies name required)),
          Healthy o) ∧
      h'.events = h.events ++ opening ownsClient ++ asked.map .requested ++
        (if result.isOk then [] else closing ownsClient) ∧
      ∀ d, result = .ok d → ∀ uses, closings (d.useAll h' uses).2.events =
        closings h.events + if ownsClient then uses.count .close else 0 := by
  obtain ⟨result, asked, told, hstarted, hresolve⟩ :=
    started_resolveAndCheck (openClient ownsClient h) settings name required ownsClient
  have hevents : ((openClient ownsClient h).afterRequests asked).events =
      h.events ++ opening ownsClient ++ asked.map .requested := by
    rw [Http.events_afterRequests, events_openClient]
  cases result with
  | error e =>
    refine ⟨.error e, _, told, asked, by rw [build, hresolve], hstarted, hstarted.isOk_iff, ?_,
      nofun⟩
    rw [events_closeClient, hevents]
    rfl
  | ok d =>
    refine ⟨.ok d, _, told, asked, by rw [build, hresolve], hstarted, hstarted.isOk_iff, ?_, ?_⟩
    · rw [hevents]
      exact (List.append_nil _).symm
    · intro d' hd uses
      obtain rfl := Except.ok.inj hd
      have hopening : closings (opening ownsClient) = 0 := by cases ownsClient <;> rfl
      have hasked : closings (asked.map .requested) = 0 := List.count_eq_zero.mpr (by simp)
      rw [closings_useAll, hstarted.ownsClient_eq, hevents, closings_append, closings_append,
        hopening, hasked, Nat.add_zero]

/-- A network in which all that is asked for is there. -/
def answering : Http where
  routes := [("GET", [⟨0, .ok { status := 200, body := [] }⟩])]

/-- A name twice, in either form, the process itself, and a service that is not asked. -/
def repeating : List ServiceRef :=
  [.known .logger, .named "pz-kafka", .named "pz-logger", .known .workflow, .known .metrics]

/-- Names that are repeated are asked for once, in the order in which they come first. -/
theorem started_build_repeating : ∃ d h' told,
    build answering (.ok {}) (.named "pz-workflow") repeating true = (.ok d, h', told) ∧
      h'.events = [.opened clientTimeout, .requested (.get "http://localhost:14600/"),
        .requested (.get "http://pz-metrics.int.geointservices.io/")] ∧
      closings (d.useAll h' [.addService (.named "x") "y", .close]).2.events = 1 := by
  obtain ⟨result, h', told, asked, hbuild, -, -, -, huse⟩ :=
    started_build answering (.ok {}) (.named "pz-workflow") repeating true
  have hevents : (build answering (.ok {}) (.named "pz-workflow") repeating true).2.1.events =
      [.opened clientTimeout, .requested (.get "http://localhost:14600/"),
        .requested (.get "http://pz-metrics.int.geointservices.io/")] := by decide +kernel
  have hok : (build answering (.ok {}) (.named "pz-workflow") repeating true).1.isOk = true := by
    decide +kernel
  rw [hbuild] at hevents hok
  cases result with
  | error e => cases hok
  | ok d => exact ⟨d, h', told, hbuild, hevents, huse d rfl _⟩

end Directory

end Logwire
