import Logwire.Proofs.Service.Startup

/-!
# Logwire.Proofs.Service.Addresses

Where a directory says that services are.

A required service is where the process itself is, where the platform bound it
last, or at the conventional host name, in this order: `Located`.  Conventional
host names end in the domain, which comes from the settings, from the address of
the process or from the default, in this order, and begins with a dot in any
case: `HasDomain`.

A directory that was built lists the required names with these addresses and
nothing else: `Lists`.  From then on the last address that was entered for a
name counts, and nothing but an entry changes an address: `endpoints_useAll`.
-/

namespace Logwire

/-! ## Domains -/

/-- The domain of an address is what stands behind its first label. -/
theorem domainOf_of_split {address : String} {label rest : List Char}
    (h : address.toList = label ++ '.' :: rest) (hl : '.' ∉ label) :
    domainOf address = String.ofList ('.' :: rest) := by
  have hall : ∀ c ∈ label, decide (c ≠ '.') = true := fun c hc =>
    decide_eq_true fun he => hl (he ▸ hc)
  rw [domainOf, h, List.dropWhile_append_of_pos hall]
  rfl

/-- An address without a dot has no domain. -/
theorem domainOf_of_not_mem {address : String} (h : '.' ∉ address.toList) :
    domainOf address = "" := by
  have hall : ∀ c ∈ address.toList, decide (c ≠ '.') = true := fun c hc =>
    decide_eq_true fun he => h (he ▸ hc)
  rw [domainOf, ← List.append_nil address.toList, List.dropWhile_append_of_pos hall]
  rfl

/-- The domain of the services that the platform does not bind. -/
inductive HasDomain (s : Settings) (app : Option Application) : String → Prop where
  /-- The setting, if it begins with a dot. -/
  | dotted {rest : List Char} (given : s.domain = some (String.ofList ('.' :: rest))) :
      HasDomain s app (String.ofList ('.' :: rest))
  /-- The setting with a dot in front, if it begins with another character. -/
  | bare {c : Char} {rest : List Char} (given : s.domain = some (String.ofList (c :: rest)))
      (other : c ≠ '.') : HasDomain s app (String.ofList ('.' :: c :: rest))
  /-- The address of the process without its first label. -/
  | ofAddress {a : Application} {label rest : List Char} (unset : s.domain.getD "" = "")
      (known : app = some a) (split : a.address.toList = label ++ '.' :: rest)
      (first : '.' ∉ label) : HasDomain s app (String.ofList ('.' :: rest))
  /-- The default. -/
  | default (unset : s.domain.getD "" = "") (without : ∀ a ∈ app, '.' ∉ a.address.toList) :
      HasDomain s app defaultDomain

/-- A domain begins with a dot. -/
theorem HasDomain.begins {s : Settings} {app : Option Application} {domain : String}
    (h : HasDomain s app domain) : domain.toList.head? = some '.' := by
  cases h with
  | dotted given => simp
  | bare given other => simp
  | ofAddress unset known split first => simp
  | default unset without => rfl

namespace Directory

variable {s : Settings} {app : Option Application} {d : Directory} {h : Http}

/-- Without the setting the domain is that of the address, or the default. -/
theorem hasDomain_of_unset (hu : s.domain.getD "" = "") :
    HasDomain s app (orElse ((app.map Application.domain).getD "") defaultDomain) := by
  cases app with
  | none => exact .default hu nofun
  | some a =>
    by_cases hdot : '.' ∈ a.address.toList
    · obtain ⟨label, rest, hsplit, hfirst⟩ := List.eq_append_cons_of_mem hdot
      have hdomain : a.domain = String.ofList ('.' :: rest) := domainOf_of_split hsplit hfirst
      have hsome : String.ofList ('.' :: rest) ≠ "" := by simp
      simp only [Option.map_some, Option.getD_some, hdomain, orElse, if_neg hsome]
      exact .ofAddress hu rfl hsplit hfirst
    · have hdomain : a.domain = "" := domainOf_of_not_mem hdot
      simp only [Option.map_some, Option.getD_some, hdomain, orElse, if_true]
      exact .default hu fun b hb => Option.some.inj hb ▸ hdot

/-- The setting counts where it is not empty, with a dot in front. -/
theorem hasDomain_dotted {given : String} (hs : s.domain = some given) (hne : given ≠ "") :
    HasDomain s app (dotted given) := by
  obtain ⟨cs, rfl⟩ : ∃ cs, given = String.ofList cs := ⟨given.toList, by simp⟩
  cases cs with
  | nil => exact absurd rfl hne
  | cons c rest =>
    by_cases hc : c = '.'
    · subst hc
      rw [show dotted (String.ofList ('.' :: rest)) = String.ofList ('.' :: rest) by simp [dotted]]
      exact .dotted hs
    · have hmore : dotted (String.ofList (c :: rest)) = String.ofList ('.' :: c :: rest) := by
        simp [dotted, hc]
      rw [hmore]
      exact .bare hs hc

/-- The domain of a process is one of these. -/
theorem hasDomain_identity (name : String) (s : Settings) (app : Option Application)
    (ownsClient : Bool) : HasDomain s app (identity name s app ownsClient).domain := by
  by_cases hu : s.domain.getD "" = ""
  · simp only [identity, if_pos hu]
    exact hasDomain_of_unset hu
  · simp only [identity, if_neg hu]
    cases hs : s.domain with
    | none => simp [hs] at hu
    | some given =>
      rw [hs, Option.getD_some] at hu
      exact hasDomain_dotted hs hu

/-! ## Resolution -/

/-- Where a required service is. -/
inductive Located (d : Directory) (s : Settings) (key : String) : String → Prop where
  /-- The process itself is at its own address, whatever the platform binds. -/
  | own (self : key = d.name) : Located d s key d.address
  /-- A service that the platform binds is where it bound it last. -/
  | bound {entries : List BoundService} {entry : BoundService} (other : key ≠ d.name)
      (given : s.services = some entries)
      (last : (entries.filter fun e => e.name = key).getLast? = some entry) :
      Located d s key entry.host
  /-- If the platform binds none, the local services are where they always are. -/
  | localService {address : String} (other : key ≠ d.name) (unbound : s.services = none)
      (listed : (key, address) ∈ localServices) : Located d s key address
  /-- All others are at their conventional host names. -/
  | conventional (other : key ≠ d.name)
      (missing : ∀ entries ∈ s.services, ∀ e ∈ entries, e.name ≠ key)
      (unlisted : s.services = none → key ∉ Members.names localServices) :
      Located d s key (key ++ d.domain)

/-- Of the services that are bound under a name the last counts. -/
theorem find?_addresses {entries : List BoundService} (hs : s.services = some entries)
    (key : String) : Members.find? s.addresses key =
      ((entries.filter fun e => e.name = key).getLast?).map BoundService.host := by
  have hpairs : s.addresses =
      Members.insertAll [] (entries.map fun e => (e.name, e.host)) := by
    rw [Settings.addresses, hs, Members.insertAll, List.foldl_map]
  rw [hpairs, Members.find?_insertAll_or, Members.find?_nil, Option.or_none, Members.last?,
    List.filter_map, List.getLast?_map, Option.map_map]
  rfl

theorem nodup_localServices : (Members.names localServices).Nodup := by decide

theorem filter_name_eq_nil_iff {entries : List BoundService} {key : String} :
    (entries.filter fun e => e.name = key) = [] ↔ ∀ e ∈ entries, e.name ≠ key := by
  simp [List.filter_eq_nil_iff]

/-- A service is resolved to where it is. -/
theorem located_resolve (d : Directory) (s : Settings) (key : String) :
    Located d s key (d.resolve s.addresses key) := by
  unfold resolve
  split
  case isTrue hself => exact .own hself
  case isFalse hother =>
    cases hs : s.services with
    | none =>
      rw [Settings.addresses, hs]
      cases hf : Members.find? localServices key with
      | some address =>
        exact .localService hother hs
          ((Members.mem_iff_find?_eq_some nodup_localServices key address).mpr hf)
      | none =>
        exact .conventional hother (by simp [hs]) fun _ => (Members.find?_eq_none_iff _ _).mp hf
    | some entries =>
      rw [find?_addresses hs]
      cases hl : (entries.filter fun e => e.name = key).getLast? with
      | some entry => exact .bound hother hs hl
      | none =>
        refine .conventional hother (fun entries' he => ?_) (by simp [hs])
        obtain rfl := Option.some.inj (hs.symm.trans he)
        exact filter_name_eq_nil_iff.mp (List.getLast?_eq_none_iff.mp hl)

/-- A service is in one place. -/
theorem Located.eq_resolve {key address : String} (hl : Located d s key address) :
    address = d.resolve s.addresses key := by
  unfold resolve
  cases hl with
  | own self => rw [if_pos self]
  | bound other given last =>
    rw [if_neg other, find?_addresses given, last]
    rfl
  | localService other unbound listed =>
    rw [if_neg other, Settings.addresses, unbound,
      (Members.mem_iff_find?_eq_some nodup_localServices key address).mp listed]
    rfl
  | conventional other missing unlisted =>
    rw [if_neg other]
    cases hs : s.services with
    | none =>
      rw [Settings.addresses, hs, (Members.find?_eq_none_iff _ _).mpr (unlisted hs)]
      rfl
    | some entries =>
      rw [find?_addresses hs, filter_name_eq_nil_iff.mpr (missing entries hs)]
      rfl

/-! ## Startup -/

/-- A directory that was built is the identity of the process with the required services. -/
theorem register_of_build {settings : Except ConfigFault Settings} {name : ServiceRef}
    {required : List ServiceRef} {ownsClient : Bool} {h' : Http} {told : List JournalEntry}
    (hb : build h settings name required ownsClient = (.ok d, h', told)) :
    ∃ s app, settings = .ok s ∧ s.process = .ok app ∧
      d = (identity name.key s app ownsClient).register s.addresses
        (required.map ServiceRef.key) := by
  obtain ⟨result, asked, told', hstarted, hresolve⟩ :=
    started_resolveAndCheck (openClient ownsClient h) settings name required ownsClient
  cases result with
  | error e => simp [build, hresolve] at hb
  | ok d' =>
    obtain rfl : d' = d := by simp [build, hresolve] at hb; exact hb.1
    cases hstarted with
    | healthy given known made probed => exact ⟨_, _, given, known, by rw [made]⟩

/-- What a directory holds right after the startup of a process. -/
structure Lists (d : Directory) (s : Settings) (app : Option Application) (name : String)
    (required : List String) : Prop where
  name : d.name = name
  /-- The address of the process is the one that the platform gives it. -/
  address : d.address = (app.map Application.address).getD localAddress
  domain : HasDomain s app d.domain
  /-- The names are those that are required, each once. -/
  names : Members.names d.endpoints = required.eraseDups
  /-- Each has the address where it is. -/
  located : ∀ key address, (key, address) ∈ d.endpoints ↔
    key ∈ required ∧ Located d s key address

/-- Registration lists the required services, each where it is. -/
theorem lists_register (name : String) (s : Settings) (app : Option Application)
    (ownsClient : Bool) (required : List String) :
    ((identity name s app ownsClient).register s.addresses required).Lists s app name required := by
  obtain ⟨d, hd⟩ : ∃ d, d = identity name s app ownsClient := ⟨_, rfl⟩
  have hentries : Members.insertAll d.endpoints
      (required.map fun key => (key, d.resolve s.addresses key)) =
        required.eraseDups.map fun key => (key, d.resolve s.addresses key) := by
    rw [hd]
    exact Members.insertAll_map _ required
  have hdomain : HasDomain s app d.domain := hd ▸ hasDomain_identity name s app ownsClient
  rw [← hd, register_eq, hentries]
  constructor
  case name => rw [hd]; rfl
  case address => rw [hd]; rfl
  case domain => exact hdomain
  case names => exact Members.names_map _ _
  case located =>
    intro key address
    simp only [List.mem_map, List.mem_eraseDups, Prod.mk.injEq]
    constructor
    · rintro ⟨key', hkey, rfl, rfl⟩
      exact ⟨hkey, located_resolve _ s key'⟩
    · rintro ⟨hkey, hl⟩
      exact ⟨key, hkey, rfl, hl.eq_resolve.symm⟩

/-! ## Use -/

/-- The addresses that are entered by uses, in order. -/
def entered (uses : List Use) : Members String :=
  uses.filterMap fun u =>
    match u with
    | .addService name address => some (name.key, address)
    | _ => none

/-- Only an entry changes the addresses. -/
theorem endpoints_use (d : Directory) (h : Http) (u : Use) :
    (d.use h u).1.endpoints = Members.insertAll d.endpoints (entered [u]) := by
  cases u <;> rfl

/-- Of any uses only the entries change the addresses. -/
theorem endpoints_useAll (d : Directory) (h : Http) (uses : List Use) :
    (d.useAll h uses).1.endpoints = Members.insertAll d.endpoints (entered uses) := by
  induction uses generalizing d h with
  | nil => rfl
  | cons u uses ih =>
    have hcons : d.useAll h (u :: uses) = (d.use h u).1.useAll (d.use h u).2 uses := rfl
    have hentered : entered (u :: uses) = entered [u] ++ entered uses :=
      List.filterMap_append (l := [u])
    rw [hcons, ih, endpoints_use, hentered, Members.insertAll, Members.insertAll,
      Members.insertAll, List.foldl_append]

/-- What a directory answers when it is asked for a service, which leaves it as it is.  `start` is
the directory right after the startup, which lists the required names. -/
structure Answers (d start : Directory) (required : List String) (uses : List Use)
    (key : String) : Prop where
  /-- The last address that was entered counts, and else that of the startup. -/
  address : d.addressOf? key = (Members.last? (entered uses) key).or (start.addressOf? key)
  url : d.urlOf? key = (d.addressOf? key).map fun address =>
    "http://" ++ address ++ endpointPath key
  /-- A name is unknown if it was neither required nor entered. -/
  unknown : d.addressOf? key = none ↔
    key ∉ required ∧ key ∉ Members.names (entered uses)
  unknownUrl : d.urlOf? key = none ↔ d.addressOf? key = none

/-- After any uses the directory answers by the last entry, and else by what it lists. -/
theorem Lists.answers {name : String} {required : List String}
    (hl : d.Lists s app name required) (h : Http) (uses : List Use) (key : String) :
    (d.useAll h uses).1.Answers d required uses key := by
  have haddress : (d.useAll h uses).1.addressOf? key =
      (Members.last? (entered uses) key).or (d.addressOf? key) := by
    rw [addressOf?, endpoints_useAll, Members.find?_insertAll_or]
    rfl
  refine ⟨haddress, rfl, ?_, Option.map_eq_none_iff⟩
  have hstart : d.addressOf? key = none ↔ key ∉ required := by
    rw [addressOf?, Members.find?_eq_none_iff, hl.names, List.mem_eraseDups]
  rw [haddress, Option.or_eq_none_iff, Members.last?_eq_none_iff, hstart, and_comm]

/-- **A directory lists what is required, and then what was entered last.** -/
theorem lists_of_build {settings : Except ConfigFault Settings} {name : ServiceRef}
    {required : List ServiceRef} {ownsClient : Bool} {h' : Http} {told : List JournalEntry}
    (hb : build h settings name required ownsClient = (.ok d, h', told)) :
    ∃ s app, settings = .ok s ∧ s.process = .ok app ∧
      d.Lists s app name.key (required.map ServiceRef.key) ∧
      d.domain.toList.head? = some '.' ∧
      ∀ (uses : List Use) (k : ServiceRef),
        (d.useAll h' uses).1.Answers d (required.map ServiceRef.key) uses k.key := by
  obtain ⟨s, app, hs, happ, hd⟩ := register_of_build hb
  have hlists : d.Lists s app name.key (required.map ServiceRef.key) :=
    hd ▸ lists_register name.key s app ownsClient (required.map ServiceRef.key)
  exact ⟨s, app, hs, happ, hlists, hlists.domain.begins, fun uses k => hlists.answers h' uses k.key⟩

/-- A platform that binds one service twice and another under the name of the process. -/
def bindings : Settings where
  application := some { uris := ["app.int.example"] }
  services := some [{ name := "pz-logger", host := "old" },
    { name := "pz-workflow", host := "elsewhere" }, { name := "pz-logger", host := "new" }]
  port := some ⟨80, by decide⟩

/-- A bound service in both forms of its name, the process itself and a service that is not bound. -/
def needed : List ServiceRef :=
  [.known .logger, .named "pz-workflow", .named "x", .named "pz-logger"]

/-- One address is entered twice, and one for a name that is not required. -/
def entries : List Use :=
  [.addService (.named "pz-logger") "first", .close, .addService (.known .logger) "last",
    .addService (.named "y") "z"]

theorem lists_of_build_bindings : ∃ d h' told,
    build answering (.ok bindings) (.known .workflow) needed true = (.ok d, h', told) ∧
      d.endpoints = [("pz-logger", "new"), ("pz-workflow", "app.int.example"),
        ("x", "x.int.example")] ∧
      (d.useAll h' entries).1.addressOf? "pz-logger" = some "last" ∧
      (d.useAll h' entries).1.urlOf? "x" = some "http://x.int.example" ∧
      (d.useAll h' entries).1.addressOf? "pz-kafka" = none := by
  have hstart : (build answering (.ok bindings) (.known .workflow) needed true).1.toOption.map
      Directory.endpoints = some [("pz-logger", "new"), ("pz-workflow", "app.int.example"),
        ("x", "x.int.example")] := by decide +kernel
  rcases hb : build answering (.ok bindings) (.known .workflow) needed true with ⟨result, h', told⟩
  rw [hb] at hstart
  cases result with
  | error e => cases hstart
  | ok d =>
    obtain ⟨-, -, -, -, -, -, hanswers⟩ := lists_of_build hb
    have hendpoints := Option.some.inj hstart
    refine ⟨d, h', told, rfl, hendpoints, ?_, ?_, ?_⟩
    · exact (hanswers entries (.known .logger)).address
    · have hx := hanswers entries (.named "x")
      rw [show "x" = ServiceRef.key (.named "x") from rfl, hx.url, hx.address, addressOf?,
        hendpoints]
      decide +kernel
    · exact (hanswers entries (.named "pz-kafka")).unknown.mpr (by decide +kernel)

end Directory

end Logwire
