import Logwire.Net.Sockets

/-!
# Logwire.Proofs.Net.Dialing

Which sockets are open, and what comes of trying endpoints one after the other.

Every endpoint that is tried gets a socket of its own.  One that refuses has it
closed at once, so that `refusals` leave open what was open before:
`stillOpen_refusals`.  The first one that accepts keeps it, and none is tried
after that: `search_connectAny`.
-/

namespace Logwire

namespace Sockets

/-! ## Open sockets -/

/-- The sockets that are open after an event. -/
def openAfter (before : List Socket) : SocketEvent → List Socket
  | .connecting s => before ++ [s]
  | .closed number => before.filter fun s => s.number ≠ number
  | .resolved _ _ _ => before
  | .sent _ _ => before

/-- The sockets that were made and not closed since. -/
def stillOpen (events : List SocketEvent) : List Socket := events.foldl openAfter []

/-- The sockets that are open after more events are found from those that were. -/
theorem stillOpen_append (events more : List SocketEvent) :
    stillOpen (events ++ more) = more.foldl openAfter (stillOpen events) := by
  simp [stillOpen, List.foldl_append]

/-- Events that neither make nor close a socket leave open what was open. -/
theorem stillOpen_append_of_quiet {events more : List SocketEvent}
    (h : ∀ e ∈ more, ∀ before, openAfter before e = before) :
    stillOpen (events ++ more) = stillOpen events := by
  rw [stillOpen_append]
  generalize stillOpen events = before
  induction more with
  | nil => rfl
  | cons e more ih =>
    rw [List.forall_mem_cons] at h
    rw [List.foldl_cons, h.1]
    exact ih h.2

/-- What is on record of endpoints that refuse, the first of which gets the socket of a number. -/
def refusals (first : Nat) : List Endpoint → List SocketEvent
  | [] => []
  | e :: rest => .connecting ⟨first, e⟩ :: .closed first :: refusals (first + 1) rest

/-- Refusals leave those sockets open that had a number before. -/
theorem stillOpen_refusals {events : List SocketEvent} {first : Nat}
    (h : ∀ s ∈ stillOpen events, s.number < first) (es : List Endpoint) :
    stillOpen (events ++ refusals first es) = stillOpen events := by
  rw [stillOpen_append]
  generalize stillOpen events = before at h ⊢
  induction es generalizing first with
  | nil => rfl
  | cons e es ih =>
    have hkept :
        (before ++ [(⟨first, e⟩ : Socket)]).filter (fun s => s.number ≠ first) = before := by
      rw [List.filter_append, List.filter_eq_self.mpr]
      · simp
      · intro s hs
        simpa using Nat.ne_of_lt (h s hs)
    rw [refusals, List.foldl_cons, List.foldl_cons, openAfter, openAfter, hkept]
    exact ih fun s hs => Nat.lt_succ_of_lt (h s hs)

/-! ## Trying endpoints -/

def listens (n : Sockets) (e : Endpoint) : Bool := (n.listenerAt? e).isSome

/-- Whether what is sent to an endpoint arrives. -/
def takes (n : Sockets) (e : Endpoint) : Bool := (n.listenerAt? e).any fun l => !l.broken

/-- The network after some sockets were made, with what was done. -/
def after (n : Sockets) (made : Nat) (events : List SocketEvent) : Sockets :=
  { n with next := n.next + made, events := n.events ++ events }

@[simp] theorem after_zero_nil (n : Sockets) : n.after 0 [] = n := by
  simp [after]

theorem after_after (n : Sockets) (made made' : Nat) (events events' : List SocketEvent) :
    (n.after made events).after made' events' = n.after (made + made') (events ++ events') := by
  simp [after, Nat.add_assoc]

/-- What comes of trying endpoints in order: a socket, and the network after it. -/
inductive Search (n : Sockets) (es : List Endpoint) : Option Socket → Sockets → Prop where
  /-- All refuse. -/
  | refused (refuse : ∀ e ∈ es, n.listens e = false) :
      Search n es none (n.after es.length (refusals n.next es))
  /-- The first that accepts is connected to. -/
  | connected {front back : List Endpoint} {e : Endpoint} (split : es = front ++ e :: back)
      (refuse : ∀ e ∈ front, n.listens e = false) (accepts : n.listens e = true) :
      Search n es (some ⟨n.next + front.length, e⟩) (n.after (front.length + 1)
        (refusals n.next front ++ [.connecting ⟨n.next + front.length, e⟩]))

theorem connect_of_listens {n : Sockets} {e : Endpoint} (h : n.listens e = true) :
    n.connect e = (some ⟨n.next, e⟩, n.after 1 [.connecting ⟨n.next, e⟩]) := if_pos h

theorem connect_of_not_listens {n : Sockets} {e : Endpoint} (h : n.listens e = false) :
    n.connect e = (none, n.after 1 (refusals n.next [e])) := by
  have hrefused : ¬ (n.listenerAt? e).isSome = true := by simpa [listens] using h
  unfold connect
  exact (if_neg hrefused).trans (by simp [note, after, refusals])

/-- The endpoint in front accepts. -/
theorem Search.first {n : Sockets} {e : Endpoint} (he : n.listens e = true) (es : List Endpoint) :
    Search n (e :: es) (some ⟨n.next, e⟩) (n.after 1 [.connecting ⟨n.next, e⟩]) :=
  @Search.connected n (e :: es) [] es e rfl nofun he

/-- One endpoint more in front that refuses. -/
theorem Search.cons {n : Sockets} {e : Endpoint} {es : List Endpoint} {found : Option Socket}
    {n' : Sockets} (he : n.listens e = false)
    (h : Search (n.after 1 (refusals n.next [e])) es found n') : Search n (e :: es) found n' := by
  have hcons : ∀ xs, refusals n.next (e :: xs) = refusals n.next [e] ++ refusals (n.next + 1) xs :=
    fun _ => rfl
  cases h with
  | refused refuse =>
    rw [after_after, Nat.add_comm 1]
    exact .refused (List.forall_mem_cons.mpr ⟨he, refuse⟩)
  | @connected front back e' split refuse accepts =>
    have h := @Search.connected n (e :: es) (e :: front) back e' (by rw [split]; rfl)
      (List.forall_mem_cons.mpr ⟨he, refuse⟩) accepts
    rw [after_after, Nat.add_comm 1]
    rw [hcons, List.append_assoc, List.length_cons, Nat.add_comm front.length 1,
      ← Nat.add_assoc] at h
    rw [Nat.add_comm front.length 1]
    exact h

/-- Endpoints are tried in order until one accepts. -/
theorem search_connectAny (n : Sockets) (es : List Endpoint) :
    ∃ found n', Search n es found n' ∧
      n.connectAny es = (match found with | some s => .ok s | none => .error es, n') := by
  induction es generalizing n with
  | nil => exact ⟨none, _, .refused nofun, by simp [connectAny, after, refusals]⟩
  | cons e es ih =>
    cases he : n.listens e with
    | true =>
      refine ⟨some ⟨n.next, e⟩, _, .first he es, ?_⟩
      simp only [connectAny, connect_of_listens he]
    | false =>
      obtain ⟨found, n', hs, hc⟩ := ih (n.after 1 (refusals n.next [e]))
      refine ⟨found, n', hs.cons he, ?_⟩
      simp only [connectAny, connect_of_not_listens he, hc]
      cases found <;> rfl

/-- A single endpoint is tried as a row of one. -/
theorem search_connectTo (n : Sockets) (e : Endpoint) :
    ∃ found n', Search n [e] found n' ∧ n.connectTo e =
      (match found with | some s => .ok s | none => .error (.refused e.address), n') := by
  cases he : n.listens e with
  | true =>
    refine ⟨some ⟨n.next, e⟩, _, .first he [], ?_⟩
    simp only [connectTo, connect_of_listens he]
  | false =>
    refine ⟨none, _, .refused (by simpa using he), ?_⟩
    simp only [connectTo, connect_of_not_listens he]
    rfl

/-- A host without addresses in the table is looked up in vain. -/
theorem connectHost_unknown {n : Sockets} {hp : HostPort} (kind : SocketKind)
    (h : Members.find? n.hosts hp.host = none) :
    n.connectHost kind hp =
      (.error (.unknownHost hp.host), n.after 0 [.resolved hp.host hp.port kind]) := by
  have hnote : Members.find? (n.note (.resolved hp.host hp.port kind)).hosts hp.host = none := h
  simp only [connectHost, resolve, hnote]
  rfl

/-- The addresses of a host are tried in order, on the port and with the kind asked for. -/
theorem search_connectHost {n : Sockets} {hp : HostPort} (kind : SocketKind)
    {addresses : List (Family × String)} (h : Members.find? n.hosts hp.host = some addresses) :
    ∃ result n', n.connectHost kind hp = (result, n') ∧
      Search (n.after 0 [.resolved hp.host hp.port kind])
        (addresses.map fun a => ⟨a.1, kind, portAddress a.2 hp.port⟩) result.toOption n' := by
  have hnote : Members.find? (n.note (.resolved hp.host hp.port kind)).hosts hp.host
      = some addresses := h
  obtain ⟨found, n', hs, he⟩ := search_connectAny (n.note (.resolved hp.host hp.port kind))
    (addresses.map fun a => ⟨a.1, kind, portAddress a.2 hp.port⟩)
  cases found with
  | some s => exact ⟨.ok s, n', by simp only [connectHost, resolve, hnote, he], hs⟩
  | none =>
    cases hlast : (addresses.map fun a => (⟨a.1, kind, portAddress a.2 hp.port⟩ : Endpoint)).getLast?
      with
    | some e =>
      exact ⟨.error (.refused e.address), n',
        by simp only [connectHost, resolve, hnote, he, hlast], hs⟩
    | none =>
      exact ⟨.error (.noAddress hp.host hp.port), n',
        by simp only [connectHost, resolve, hnote, he, hlast], hs⟩

/-- What is sent arrives once, or is not sent at all. -/
theorem send_eq (n : Sockets) (s : Socket) (text : String) :
    n.send s text =
      if n.takes s.endpoint then (.ok (), n.after 0 [.sent s.number text])
      else (.error .brokenPipe, n) := by
  unfold send takes
  cases n.listenerAt? s.endpoint with
  | none => rfl
  | some l => cases hb : l.broken <;> simp [hb, note, after]

end Sockets

end Logwire
