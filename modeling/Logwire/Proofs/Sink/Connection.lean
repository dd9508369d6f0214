import Logwire.Proofs.Net.Dialing
import Logwire.Sink.Syslogd

/-!
# Logwire.Proofs.Sink.Connection

The socket of a sink for a syslog daemon.

A write has four ways to go, `Wrote`: over the socket that is held; nowhere, if
there is no endpoint to try; in vain, if all endpoints refuse; and over a new
socket to the first endpoint that accepts.  From this follows what a run of
calls leaves open: exactly the socket that the sink holds, `steady_run`.
-/

namespace Logwire

namespace Syslogd

open Sockets

variable {w : Syslogd} {n : Sockets} {r : Record}

/-! ## Where a daemon is looked for -/

def pathEndpoints (w : Syslogd) (kind : SocketKind) : Except Fault (List Endpoint) :=
  if w.address = "" then .error (.noAddress w.network) else .ok [⟨.unix, kind, w.address⟩]

/-- The endpoints that a host and a port resolve to. -/
def hostEndpoints (w : Syslogd) (n : Sockets) (kind : SocketKind) :
    Except Fault (List Endpoint) :=
  if w.address = "" then .error (.noAddress w.network)
  else
    match HostPort.parse w.address with
    | .error e => .error (.address e)
    | .ok hp =>
      match Members.find? n.hosts hp.host with
      | none => .error (.socket (.unknownHost hp.host))
      | some addresses => .ok (addresses.map fun a => ⟨a.1, kind, portAddress a.2 hp.port⟩)

/-- The endpoints that a daemon is looked for at, in order. -/
def candidates (w : Syslogd) (n : Sockets) : Except Fault (List Endpoint) :=
  match w.network with
  | .localDaemon => .ok localEndpoints
  | .udp => w.hostEndpoints n .datagram
  | .tcp => w.hostEndpoints n .stream
  | .unixgram => w.pathEndpoints .datagram
  | .unix => w.pathEndpoints .stream

/-- The look-up of a host and a port. -/
def hostLookups (w : Syslogd) (kind : SocketKind) : List SocketEvent :=
  match HostPort.parse w.address with
  | .error _ => []
  | .ok hp => [.resolved hp.host hp.port kind]

/-- The look-ups that are made before endpoints are tried. -/
def lookups (w : Syslogd) : List SocketEvent :=
  match w.network with
  | .udp => w.hostLookups .datagram
  | .tcp => w.hostLookups .stream
  | _ => []

/-! ## Dialing -/

/-- The ways in which dialing ends. -/
inductive Dialed (w : Syslogd) (n : Sockets) : Except Fault Socket × Sockets → Prop where
  /-- There is no endpoint to try. -/
  | nowhere {e : Fault} (unknown : w.candidates n = .error e) :
      Dialed w n (.error e, n.after 0 w.lookups)
  /-- All endpoints refuse. -/
  | refused {es : List Endpoint} {n' : Sockets} (fault : SocketFault)
      (known : w.candidates n = .ok es) (search : Search (n.after 0 w.lookups) es none n') :
      Dialed w n (.error (.socket fault), n')
  /-- An endpoint accepts. -/
  | connected {es : List Endpoint} {s : Socket} {n' : Sockets} (known : w.candidates n = .ok es)
      (search : Search (n.after 0 w.lookups) es (some s) n') : Dialed w n (.ok s, n')

/-- The daemon of the host is dialed at its own endpoints. -/
theorem dialed_local (h : w.network = .localDaemon) : Dialed w n (dialLocal n) := by
  have hc : w.candidates n = .ok localEndpoints := by rw [candidates, h]
  have hl : n.after 0 w.lookups = n := by rw [lookups, h, after_zero_nil]
  obtain ⟨found, n', hs, he⟩ := search_connectAny n localEndpoints
  rw [← hl] at hs
  rw [dialLocal, he]
  cases found with
  | none => exact .refused _ hc hs
  | some s => exact .connected hc hs

/-- An address that is a path is its own endpoint. -/
theorem dialed_path {kind : SocketKind} (ha : w.address ≠ "")
    (hc : w.candidates n = w.pathEndpoints kind) (hl : w.lookups = []) :
    Dialed w n (dialPath n kind w.address) := by
  rw [pathEndpoints, if_neg ha] at hc
  have hn : n.after 0 w.lookups = n := by rw [hl, after_zero_nil]
  obtain ⟨found, n', hs, he⟩ := search_connectTo n ⟨.unix, kind, w.address⟩
  rw [← hn] at hs
  rw [dialPath, he]
  cases found with
  | none => exact .refused _ hc hs
  | some s => exact .connected hc hs

/-- A host and a port are looked up, and tried one by one. -/
theorem dialed_host {kind : SocketKind} (ha : w.address ≠ "")
    (hc : w.candidates n = w.hostEndpoints n kind) (hl : w.lookups = w.hostLookups kind) :
    Dialed w n (dialHost n kind w.address) := by
  rw [hostEndpoints, if_neg ha] at hc
  rw [hostLookups] at hl
  unfold dialHost
  cases hp : HostPort.parse w.address with
  | error e =>
    rw [hp] at hc hl
    have hdone := Dialed.nowhere hc
    rw [hl, after_zero_nil] at hdone
    exact hdone
  | ok target =>
    simp only [hp] at hc hl ⊢
    cases ha : Members.find? n.hosts target.host with
    | none =>
      rw [ha] at hc
      rw [connectHost_unknown kind ha, ← hl]
      exact .nowhere hc
    | some addresses =>
      rw [ha] at hc
      obtain ⟨result, n', he, hs⟩ := search_connectHost kind ha
      rw [he]
      rw [← hl] at hs
      cases result with
      | ok s => exact .connected hc hs
      | error fault => exact .refused fault hc hs

/-- Dialing without an address goes nowhere. -/
theorem dialed_noAddress (hn : w.network ≠ .localDaemon) (ha : w.address = "") :
    Dialed w n (.error (.noAddress w.network), n) := by
  have hparse : HostPort.parse "" = .error (.notHostPort "") := rfl
  have hc : w.candidates n = .error (.noAddress w.network) := by
    unfold candidates
    cases h : w.network <;> simp [h, ha, hostEndpoints, pathEndpoints] at hn ⊢
  have hl : w.lookups = [] := by
    unfold lookups
    cases w.network <;> simp [hostLookups, ha, hparse]
  have hdone := Dialed.nowhere hc
  rw [hl, after_zero_nil] at hdone
  exact hdone

/-- Dialing ends in one of these ways, whatever the network is. -/
theorem dialed_dial (w : Syslogd) (n : Sockets) : Dialed w n (w.dial n) := by
  unfold dial
  by_cases hlocal : w.network = .localDaemon
  · rw [if_pos hlocal]
    exact dialed_local hlocal
  rw [if_neg hlocal]
  by_cases ha : w.address = ""
  · rw [if_pos ha]
    exact dialed_noAddress hlocal ha
  rw [if_neg ha]
  cases hn : w.network with
  | localDaemon => exact absurd hn hlocal
  | udp => exact dialed_host ha (by rw [candidates, hn]) (by rw [lookups, hn])
  | tcp => exact dialed_host ha (by rw [candidates, hn]) (by rw [lookups, hn])
  | unixgram => exact dialed_path ha (by rw [candidates, hn]) (by rw [lookups, hn])
  | unix => exact dialed_path ha (by rw [candidates, hn]) (by rw [lookups, hn])

/-! ## Writing -/

/-- What comes of sending the line of a record on a socket: the result, and what was sent. -/
inductive Sends (n : Sockets) (s : Socket) (r : Record) :
    Except Fault Unit → List SocketEvent → Prop where
  /-- The line is sent once; on a stream a line feed ends it. -/
  | sent (line : r.hasLine = true) (taken : n.takes s.endpoint = true) :
      Sends n s r (.ok ())
        [.sent s.number (if s.endpoint.kind = .stream then r.line ++ "\n" else r.line)]
  /-- Nothing is sent. -/
  | failed (fault : Fault) (cause : r.hasLine = false ∨ n.takes s.endpoint = false) :
      Sends n s r (.error fault) []

/-- What was done before is nothing to a socket. -/
theorem Sends.of_after {s : Socket} {made : Nat} {events : List SocketEvent}
    {result : Except Fault Unit} {sent : List SocketEvent}
    (h : Sends (n.after made events) s r result sent) : Sends n s r result sent := by
  cases h with
  | sent line taken => exact .sent line taken
  | failed fault cause => exact .failed fault cause

/-- The ways in which a write goes. -/
inductive Wrote (w : Syslogd) (n : Sockets) (r : Record) :
    Except Fault Unit × Syslogd × Sockets → Prop where
  /-- Over the socket that is held, whether or not the line can be sent. -/
  | held {s : Socket} {result : Except Fault Unit} {sent : List SocketEvent}
      (holds : w.socket = some s) (sends : Sends n s r result sent) :
      Wrote w n r (result, w, n.after 0 sent)
  /-- Nowhere: there is no endpoint to try. -/
  | nowhere {e : Fault} (unconnected : w.socket = none) (unknown : w.candidates n = .error e) :
      Wrote w n r (.error e, w, n.after 0 w.lookups)
  /-- In vain: all endpoints refuse, and each socket is closed again. -/
  | refused {es : List Endpoint} (fault : SocketFault) (unconnected : w.socket = none)
      (known : w.candidates n = .ok es) (refuse : ∀ e ∈ es, n.listens e = false) :
      Wrote w n r (.error (.socket fault), w, n.after es.length (w.lookups ++ refusals n.next es))
  /-- Over a new socket to the first endpoint that accepts, which is held from then on. -/
  | connected {front back : List Endpoint} {e : Endpoint} {result : Except Fault Unit}
      {sent : List SocketEvent} (unconnected : w.socket = none)
      (known : w.candidates n = .ok (front ++ e :: back))
      (refuse : ∀ e ∈ front, n.listens e = false) (accepts : n.listens e = true)
      (sends : Sends n ⟨n.next + front.length, e⟩ r result sent) :
      Wrote w n r (result, { w with socket := some ⟨n.next + front.length, e⟩ },
        n.after (front.length + 1) (w.lookups ++
          (refusals n.next front ++ .connecting ⟨n.next + front.length, e⟩ :: sent)))

/-- With a socket at hand the line of the record goes out on it. -/
theorem exists_sends (w : Syslogd) (n : Sockets) (r : Record) {s : Socket} {n' : Sockets}
    (h : w.ensureConnected n = (.ok s, n')) : ∃ result sent, Sends n' s r result sent ∧
      w.write n r = (result, { w with socket := some s }, n'.after 0 sent) := by
  cases hl : r.hasLine with
  | false =>
    refine ⟨.error (.line .tooManyDigits), [], .failed _ (.inl hl), ?_⟩
    simp [write, h, Record.written, hl]
  | true =>
    have hw : r.written = .ok r.line := (r.written_eq_ok_iff r.line).mpr ⟨hl, rfl⟩
    have hfor : lineFor s r.line =
        if s.endpoint.kind = .stream then r.line ++ "\n" else r.line := by
      unfold lineFor
      cases s.endpoint.kind <;> rfl
    cases ht : n'.takes s.endpoint with
    | true =>
      refine ⟨.ok (), _, .sent hl ht, ?_⟩
      simp only [write, h, hw, send_eq, ht, if_true, hfor]
    | false =>
      refine ⟨.error (.socket .brokenPipe), [], .failed _ (.inr ht), ?_⟩
      simp only [write, h, hw, send_eq, ht, Bool.false_eq_true, if_false, after_zero_nil]

/-- Every write goes in one of these ways. -/
theorem wrote (w : Syslogd) (n : Sockets) (r : Record) : Wrote w n r (w.write n r) := by
  cases hw : w.socket with
  | some s =>
    have hs : w.ensureConnected n = (.ok s, n) := by rw [ensureConnected, hw]
    obtain ⟨result, sent, hsends, he⟩ := exists_sends w n r hs
    have hheld : { w with socket := some s } = w := by rw [← hw]
    rw [he, hheld]
    exact .held hw hsends
  | none =>
    have hd : w.ensureConnected n = w.dial n := by rw [ensureConnected, hw]
    have hdialed := dialed_dial w n
    cases hdial : w.dial n with
    | mk result n' =>
    rw [hdial] at hd hdialed
    cases hdialed with
    | @nowhere e unknown =>
      have : w.write n r = (.error e, w, n.after 0 w.lookups) := by simp only [write, hd]
      rw [this]
      exact .nowhere hw unknown
    | refused fault known search =>
      have : w.write n r = (.error (.socket fault), w, n') := by simp only [write, hd]
      rw [this]
      cases search with
      | refused refuse =>
        rw [after_after, Nat.zero_add]
        exact .refused fault hw known refuse
    | @connected es s n' known search =>
      obtain ⟨result, sent, hsends, he⟩ := exists_sends w n r hd
      rw [he]
      cases search with
      | @connected front back e split refuse accepts =>
        rw [after_after, after_after, Nat.zero_add, Nat.add_zero, List.append_assoc,
          List.singleton_append]
        exact .connected hw (split ▸ known) refuse accepts hsends.of_after.of_after

/-! ## Runs -/

/-- The socket that a sink holds is the only one that is open, and its number is taken. -/
structure Steady (w : Syslogd) (n : Sockets) : Prop where
  opened : stillOpen n.events = w.socket.toList
  numbered : ∀ s ∈ stillOpen n.events, s.number < n.next

theorem stillOpen_lookups (w : Syslogd) (events : List SocketEvent) :
    stillOpen (events ++ w.lookups) = stillOpen events := by
  refine stillOpen_append_of_quiet fun e he before => ?_
  have hhost : ∀ kind, e ∈ w.hostLookups kind → openAfter before e = before := by
    intro kind he
    unfold hostLookups at he
    split at he
    · cases he
    · rw [List.mem_singleton.mp he]
      rfl
  unfold lookups at he
  split at he
  · exact hhost _ he
  · exact hhost _ he
  · cases he

/-- A send opens no socket and closes none, whether it succeeds or not. -/
theorem Sends.stillOpen_eq {s : Socket} {result : Except Fault Unit} {sent : List SocketEvent}
    (h : Sends n s r result sent) (events : List SocketEvent) :
    stillOpen (events ++ sent) = stillOpen events := by
  cases h with
  | sent line taken =>
    refine stillOpen_append_of_quiet fun e he before => ?_
    rw [List.mem_singleton.mp he]
    rfl
  | failed fault cause => rw [List.append_nil]

/-- A sink stays steady if it keeps its socket and what is done leaves open what was open. -/
theorem Steady.after (h : Steady w n) (made : Nat) {events : List SocketEvent}
    (quiet : stillOpen (n.events ++ events) = stillOpen n.events) :
    Steady w (n.after made events) where
  opened := quiet.trans h.opened
  numbered := by
    intro s hs
    have hs : s ∈ stillOpen n.events := quiet ▸ hs
    exact Nat.lt_add_right made (h.numbered s hs)

/-- A write leaves a sink steady, whether it has to dial or not. -/
theorem Steady.write (h : Steady w n) (r : Record) :
    Steady (w.write n r).2.1 (w.write n r).2.2 := by
  have hwrote := wrote w n r
  -- refusals get numbers from the next one on, behind whatever look-ups come first
  have hrefusals : ∀ es, stillOpen (n.events ++ w.lookups ++ refusals n.next es) =
      stillOpen n.events := by
    intro es
    have hlookups := stillOpen_lookups w n.events
    rw [stillOpen_refusals (by rw [hlookups]; exact h.numbered), hlookups]
  generalize w.write n r = out at hwrote ⊢
  cases hwrote with
  | held holds sends => exact h.after 0 (sends.stillOpen_eq _)
  | nowhere unconnected unknown => exact h.after 0 (stillOpen_lookups w _)
  | @refused es fault unconnected known refuse =>
    exact h.after _ (by rw [← List.append_assoc, hrefusals])
  | @connected front back e result sent unconnected known refuse accepts sends =>
    have hopen : stillOpen (n.events ++ (w.lookups ++ (refusals n.next front ++
        .connecting ⟨n.next + front.length, e⟩ :: sent))) = [⟨n.next + front.length, e⟩] := by
      rw [← List.append_assoc, ← List.append_assoc, ← List.singleton_append,
        ← List.append_assoc, sends.stillOpen_eq, stillOpen_append, hrefusals, h.opened, unconnected]
      rfl
    refine ⟨hopen, fun s hs => ?_⟩
    have hs : s ∈ [(⟨n.next + front.length, e⟩ : Socket)] := hopen ▸ hs
    rw [List.mem_singleton.mp hs]
    exact Nat.lt_succ_self _

/-- A close releases the socket that is held. -/
theorem close_of_some {s : Socket} (h : w.socket = some s) :
    w.close n = ({ w with socket := none }, n.after 0 [.closed s.number]) := by
  rw [close, h]
  rfl

theorem close_of_none (h : w.socket = none) : w.close n = (w, n) := by
  rw [close, h]

/-- A close leaves it without a socket, and none open. -/
theorem Steady.close (h : Steady w n) : Steady (w.close n).1 (w.close n).2 := by
  cases hs : w.socket with
  | none =>
    rw [close_of_none hs]
    exact h
  | some s =>
    rw [close_of_some hs]
    have hopen : stillOpen (n.events ++ [.closed s.number]) = [] := by
      rw [stillOpen_append, h.opened, hs]
      simp [openAfter]
    exact ⟨hopen, fun t ht => absurd (hopen ▸ ht) List.not_mem_nil⟩

/-! ## Runs -/

/-- What may happen to a sink: a call, or a change of the hosts and listeners of the network. -/
inductive DaemonStep where
  | write (record : Record)
  | close
  | rewire (hosts : Members (List (Family × String))) (listeners : List Listener)

/-- The sink and the network after a step. -/
def step : Syslogd × Sockets → DaemonStep → Syslogd × Sockets
  | (w, n), .write r => (w.write n r).2
  | (w, n), .close => w.close n
  | (w, n), .rewire hosts listeners => (w, { n with hosts := hosts, listeners := listeners })

/-- The sink and the network after steps in a row. -/
def run (start : Syslogd × Sockets) (steps : List DaemonStep) : Syslogd × Sockets :=
  steps.foldl step start

/-- A step keeps the socket of the sink the only open one. -/
theorem Steady.step (h : Steady w n) (a : DaemonStep) :
    Steady (Syslogd.step (w, n) a).1 (Syslogd.step (w, n) a).2 := by
  cases a with
  | write r => exact h.write r
  | close => exact h.close
  | rewire hosts listeners => exact ⟨h.opened, h.numbered⟩

/-- A sink that was made looks for its daemon as it was told, and holds no socket. -/
theorem of_ofText_eq_ok {network address : String} (h : ofText network address = .ok w) :
    w.network.text = network ∧ w.address = address ∧ w.socket = none := by
  unfold ofText at h
  split at h
  · rename_i found hfound
    obtain rfl := Except.ok.inj h
    exact ⟨by simpa using List.find?_some hfound, rfl, rfl⟩
  · cases h

/-- The second address of the host. -/
def second : Endpoint := ⟨.inet6, .stream, "::1|601"⟩

/-- A record with a message of one character. -/
def short : Record where
  facility := 1
  severity := 6
  version := 1
  timestamp := ""
  hostName := ""
  application := ""
  process := ""
  messageId := ""
  audit := none
  metric := none
  message := "a"

end Syslogd

end Logwire
