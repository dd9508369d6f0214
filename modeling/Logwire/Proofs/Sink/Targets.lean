import Logwire.Proofs.Number.Digits
import Logwire.Proofs.Sink.Connection

/-!
# Logwire.Proofs.Sink.Targets

Which addresses of a syslog daemon can be used.

An address is split at its last colon, `splitLastColon_eq_some_iff`.  Digits of
every kind may stand behind it, but only a row of decimal ones that is not too
long is a port; the host is what the brackets around it leave, or this one:
`HostPort.parsed`.  An address that is none stops a write before anything is
dialed, `write_unusable`.
-/

namespace Logwire

open Number Text

namespace HostPort

/-! ## Colons -/

theorem splitLastColon_eq_none_iff {s : List Char} : splitLastColon s = none ↔ ':' ∉ s := by
  fun_induction splitLastColon s with
  | case1 => simp
  | case2 c r host port hr ih =>
    rw [hr] at ih
    simp only [reduceCtorEq, false_iff, not_not] at ih ⊢
    exact List.mem_cons_of_mem c ih
  | case3 r hr ih => simp
  | case4 c r hr hc ih =>
    simp only [hr, true_iff] at ih
    simpa using ⟨Ne.symm hc, ih⟩

/-- The last colon is the one with none behind it. -/
theorem splitLastColon_eq_some_iff {s host port : List Char} :
    splitLastColon s = some (host, port) ↔ s = host ++ ':' :: port ∧ ':' ∉ port := by
  constructor
  · intro h
    fun_induction splitLastColon s generalizing host with
    | case1 => contradiction
    | case2 c r host' port' hr ih =>
      obtain ⟨rfl, rfl⟩ := Prod.mk.inj (Option.some.inj h)
      obtain ⟨rfl, hport⟩ := ih hr
      exact ⟨rfl, hport⟩
    | case3 r hr ih =>
      obtain ⟨rfl, rfl⟩ := Prod.mk.inj (Option.some.inj h)
      exact ⟨rfl, splitLastColon_eq_none_iff.mp hr⟩
    | case4 => contradiction
  · rintro ⟨rfl, hport⟩
    exact splitLastColon_append host port hport

/-! ## Hosts -/

/-- The host that is meant by what stands in front of the colon. -/
inductive Names : List Char → String → Prop where
  /-- Nothing but brackets stands for this host. -/
  | localHost {s : List Char} (brackets : ∀ c ∈ s, isBracket c = true) : Names s localHost
  /-- A host, perhaps in brackets. -/
  | host {front back s : List Char} (opening : ∀ c ∈ front, isBracket c = true)
      (closing : ∀ c ∈ back, isBracket c = true) (given : s ≠ [])
      (first : ∀ c ∈ s.head?, isBracket c = false) (last : ∀ c ∈ s.getLast?, isBracket c = false) :
      Names (front ++ s ++ back) (String.ofList s)

theorem Names.ne_empty {s : List Char} {name : String} (h : Names s name) : name ≠ "" := by
  cases h with
  | localHost => decide
  | host opening closing given first last => simpa [String.ofList_eq_empty_iff] using given

/-- Brackets around a host are taken off. -/
theorem hostOf_append {front s back : List Char} (opening : ∀ c ∈ front, isBracket c = true)
    (closing : ∀ c ∈ back, isBracket c = true) (given : s ≠ [])
    (first : ∀ c ∈ s.head?, isBracket c = false) (last : ∀ c ∈ s.getLast?, isBracket c = false) :
    hostOf (front ++ s ++ back) = String.ofList s := by
  have hdrop : (front ++ s ++ back).dropWhile isBracket = s ++ back := by
    obtain ⟨c, r, rfl⟩ := List.exists_cons_of_ne_nil given
    have hc : ¬ isBracket c = true := by simp [first c rfl]
    rw [List.append_assoc, List.dropWhile_append_of_pos opening, List.cons_append,
      List.dropWhile_cons_of_neg hc]
  have htrim : trim isBracket (front ++ s ++ back) = s := by
    rw [trim, hdrop, trimEnd_append_of_forall closing last]
  simp only [hostOf, htrim]
  rw [if_neg (by simpa using given)]

/-- What stands in front of the colon always names a host. -/
theorem names_hostOf (s : List Char) : Names s (hostOf s) := by
  obtain ⟨back, hback, hclosing, hlast⟩ := exists_trimEnd_append isBracket (s.dropWhile isBracket)
  rw [← trim] at hback hlast
  have hopening : ∀ c ∈ s.takeWhile isBracket, isBracket c = true :=
    List.all_eq_true.mp List.all_takeWhile
  have hfirst : ∀ c ∈ (s.dropWhile isBracket).head?, isBracket c = false := by
    intro c hc
    have := List.head?_dropWhile_not isBracket s
    rw [Option.mem_def.mp hc] at this
    simpa using this
  by_cases hinner : trim isBracket s = []
  · -- what would be trimmed at the end has been dropped in front
    have hbrackets : ∀ c ∈ s, isBracket c = true := by
      rw [hinner, List.nil_append] at hback
      refine List.dropWhile_eq_nil_iff.mp (List.eq_nil_iff_forall_not_mem.mpr fun c hc => ?_)
      obtain ⟨d, r, hd⟩ := List.exists_cons_of_ne_nil (List.ne_nil_of_mem hc)
      have hnot := hfirst d (by rw [hd]; rfl)
      rw [hclosing d (by rw [← hback, hd]; exact List.mem_cons_self)] at hnot
      contradiction
    simp only [hostOf, hinner]
    exact .localHost hbrackets
  · have htext : s = s.takeWhile isBracket ++ trim isBracket s ++ back := by
      rw [List.append_assoc, ← hback, List.takeWhile_append_dropWhile]
    have hhead : ∀ c ∈ (trim isBracket s).head?, isBracket c = false := by
      intro c hc
      refine hfirst c ?_
      rw [hback, List.head?_append, Option.mem_def.mp hc]
      rfl
    have hhost := Names.host hopening hclosing hinner hhead hlast
    rw [← htext] at hhost
    simp only [hostOf]
    rwa [if_neg (by simpa using hinner)]

/-! ## Ports -/

/-- A row of digits, which may lack decimal values. -/
structure IsRow (port : List Char) : Prop where
  given : port ≠ []
  digits : ∀ c ∈ port, isDigit c = true

theorem IsRow.colon_not_mem {port : List Char} (h : IsRow port) : ':' ∉ port := by
  intro hm
  exact absurd (h.digits ':' hm) (by decide)

/-- A row of digits that cannot be read: one of them is no decimal digit, or they are too many. -/
def Unreadable (port : List Char) : Prop :=
  IsRow port ∧ ((∃ c ∈ port, isDecimal c = false) ∨ maxDigits < port.length)

/-- A row of digits that can be read. -/
structure IsPort (port : List Char) : Prop where
  given : port ≠ []
  decimal : ∀ c ∈ port, isDecimal c = true
  few : port.length ≤ maxDigits

theorem IsPort.isRow {port : List Char} (h : IsPort port) : IsRow port :=
  ⟨h.given, fun c hc => isDigit_of_isDecimal (h.decimal c hc)⟩

/-- A row of digits is a port, or cannot be read. -/
theorem IsRow.isPort_or {port : List Char} (h : IsRow port) : IsPort port ∨ Unreadable port := by
  by_cases hd : ∀ c ∈ port, isDecimal c = true
  · by_cases hl : port.length ≤ maxDigits
    · exact .inl ⟨h.given, hd, hl⟩
    · exact .inr ⟨h, .inr (Nat.not_le.mp hl)⟩
  · refine .inr ⟨h, .inl ?_⟩
    simpa using hd

theorem integerOfText_of_isPort {port : List Char} (h : IsPort port) :
    integerOfText (String.ofList port) = .ok (decimalValue port : Int) := by
  have hread := (readInteger_eq_ok_iff h.given h.isRow.digits).mpr ⟨h.decimal, h.few, rfl⟩
  rw [integerOfText, String.toList_ofList, hread]

theorem integerOfText_of_unreadable {port : List Char} (h : Unreadable port) :
    ∃ e, integerOfText (String.ofList port) = .error e := by
  rw [integerOfText, String.toList_ofList]
  cases hread : readInteger port with
  | ok i =>
    obtain ⟨hdecimal, hfew, -⟩ := (readInteger_eq_ok_iff h.1.given h.1.digits).mp hread
    rcases h.2 with ⟨c, hc, hnot⟩ | hlong
    · rw [hdecimal c hc] at hnot
      contradiction
    · exact absurd hfew (Nat.not_le.mpr hlong)
  | error e => cases e <;> exact ⟨_, rfl⟩

/-! ## Addresses -/

/-- The ways in which an address is taken. -/
inductive Parsed (text : String) : Except AddressFault HostPort → Prop where
  | read {host port : List Char} {name : String} (split : text.toList = host ++ ':' :: port)
      (isPort : IsPort port) (names : Names host name) :
      Parsed text (.ok ⟨name, decimalValue port⟩)
  /-- No digits stand behind the last colon. -/
  | refused (other : ∀ host port, text.toList = host ++ ':' :: port → ¬ IsRow port) :
      Parsed text (.error (.notHostPort text))
  | unread {host port : List Char} (split : text.toList = host ++ ':' :: port)
      (unreadable : Unreadable port) (fault : CoercionFault) : Parsed text (.error (.port fault))

/-- With a row of digits behind the last colon only the number decides. -/
theorem parse_of_split {text : String} {host port : List Char}
    (split : text.toList = host ++ ':' :: port) (h : IsRow port) :
    parse text = match integerOfText (String.ofList port) with
      | .ok p => .ok ⟨hostOf host, p.toNat⟩
      | .error e => .error (.port e) := by
  have hport : ¬ (port.isEmpty || !port.all isDigit) = true := by
    simpa [h.given] using h.digits
  unfold parse
  rw [split, splitLastColon_append host port h.colon_not_mem]
  exact (if_neg hport).trans rfl

/-- An address with a port is taken. -/
theorem parse_of_isPort {text : String} {host port : List Char}
    (split : text.toList = host ++ ':' :: port) (h : IsPort port) :
    parse text = .ok ⟨hostOf host, decimalValue port⟩ := by
  rw [parse_of_split split h.isRow, integerOfText_of_isPort h]
  rfl

/-- One with digits that cannot be read fails, but not as one without a port. -/
theorem parse_of_unreadable {text : String} {host port : List Char}
    (split : text.toList = host ++ ':' :: port) (h : Unreadable port) :
    ∃ fault, parse text = .error (.port fault) := by
  obtain ⟨e, he⟩ := integerOfText_of_unreadable h
  exact ⟨e, by rw [parse_of_split split h.1, he]⟩

/-- Any other text is no address. -/
theorem parse_of_other {text : String}
    (other : ∀ host port, text.toList = host ++ ':' :: port → ¬ IsRow port) :
    parse text = .error (.notHostPort text) := by
  unfold parse
  split
  · rfl
  · next host port hsplit =>
    rw [if_pos]
    by_contra hrow
    refine other host port (splitLastColon_eq_some_iff.mp hsplit).1 ?_
    simp only [Bool.or_eq_true, not_or, List.isEmpty_iff, Bool.not_eq_true', Bool.not_eq_false,
      List.all_eq_true] at hrow
    exact ⟨hrow.1, hrow.2⟩

/-- Every text is taken in one of these ways. -/
theorem parsed (text : String) : Parsed text (parse text) := by
  by_cases hrow : ∃ host port, text.toList = host ++ ':' :: port ∧ IsRow port
  · obtain ⟨host, port, split, hrow⟩ := hrow
    rcases hrow.isPort_or with hport | hunreadable
    · rw [parse_of_isPort split hport]
      exact .read split hport (names_hostOf host)
    · obtain ⟨fault, he⟩ := parse_of_unreadable split hunreadable
      rw [he]
      exact .unread split hunreadable fault
  · have other : ∀ host port, text.toList = host ++ ':' :: port → ¬ IsRow port :=
      fun host port split h => hrow ⟨host, port, split, h⟩
    rw [parse_of_other other]
    exact .refused other

/-- A text with a colon and a row of digits behind it that cannot be read. -/
def Misread (text : String) : Prop :=
  ∃ host port, text.toList = host ++ ':' :: port ∧ Unreadable port

/-- So a text that is misread fails over its port. -/
theorem parse_of_misread {text : String} (h : Misread text) :
    ∃ fault, parse text = .error (.port fault) := by
  obtain ⟨host, port, split, unreadable⟩ := h
  exact parse_of_unreadable split unreadable

/-- A text that is not misread is taken or refused. -/
theorem taken_or_refused_iff (text : String) :
    ((∃ hp, parse text = .ok hp ∧ hp.host ≠ "") ∨ parse text = .error (.notHostPort text)) ↔
      ¬ Misread text := by
  constructor
  · intro h hmisread
    obtain ⟨fault, he⟩ := parse_of_misread hmisread
    rw [he] at h
    simp at h
  · intro h
    have hparsed := parsed text
    generalize parse text = outcome at hparsed ⊢
    cases hparsed with
    | read split isPort names => exact .inl ⟨_, rfl, names.ne_empty⟩
    | refused other => exact .inr rfl
    | unread split unreadable fault => exact absurd ⟨_, _, split, unreadable⟩ h

/-! ## Written addresses -/

/-- A host that no bracket begins or ends. -/
structure Bare (host : String) : Prop where
  given : host ≠ ""
  first : ∀ c ∈ host.toList.head?, isBracket c = false
  last : ∀ c ∈ host.toList.getLast?, isBracket c = false

/-- The host is found in brackets and without them. -/
theorem Bare.hostOf_append {host : String} (h : Bare host) {front back : List Char}
    (opening : ∀ c ∈ front, isBracket c = true) (closing : ∀ c ∈ back, isBracket c = true) :
    hostOf (front ++ host.toList ++ back) = host := by
  have hne : host.toList ≠ [] := by simpa using h.given
  rw [HostPort.hostOf_append opening closing hne h.first h.last, String.ofList_toList]

/-- A port is read back unless it is too long. -/
theorem parse_eq_ok_iff_isWritable {text : String} {host : List Char} {p : Nat}
    (split : text.toList = host ++ ':' :: digitsOf p) :
    parse text = .ok ⟨hostOf host, p⟩ ↔ isWritable p = true := by
  have hdecimal : ∀ c ∈ digitsOf p, isDecimal c = true := fun c hc =>
    isDecimal_of_isDigit (isDigit_of_mem_digitsOf hc)
  unfold isWritable
  rw [decide_eq_true_eq, Int.natAbs_natCast]
  constructor
  · intro h
    by_contra hlong
    have hrow : IsRow (digitsOf p) :=
      ⟨digitsOf_ne_nil p, fun c hc => isDigit_of_isDecimal (hdecimal c hc)⟩
    obtain ⟨fault, he⟩ := parse_of_unreadable split ⟨hrow, .inr (Nat.not_le.mp hlong)⟩
    rw [he] at h
    contradiction
  · intro hfew
    rw [parse_of_isPort split ⟨digitsOf_ne_nil p, hdecimal, hfew⟩, decimalValue_digitsOf]

end HostPort

namespace Syslogd

open HostPort

/-! ## Sinks -/

/-- A fault in how a sink is set up, and not in a number, a line or the network. -/
def Fault.isSetup : Fault → Bool
  | .unsupported _ => true
  | .noAddress _ => true
  | .address (.notHostPort _) => true
  | _ => false

variable {w : Syslogd} {n : Sockets}

/-- An address that is refused is a matter of setup unless it is misread. -/
theorem isSetup_address_iff {text : String} {e : AddressFault}
    (h : HostPort.parse text = .error e) :
    (Fault.address e).isSetup = true ↔ ¬ Misread text := by
  have hparsed := HostPort.parsed text
  rw [h] at hparsed
  cases hparsed with
  | refused other => exact iff_of_true rfl ((taken_or_refused_iff text).mp (.inr h))
  | unread split unreadable fault =>
    exact iff_of_false Bool.false_ne_true (not_not.mpr ⟨_, _, split, unreadable⟩)

/-- A sink with such an address never dials. -/
theorem dial_unusable (hn : w.network = .udp ∨ w.network = .tcp)
    (hunusable : ∀ hp, HostPort.parse w.address ≠ .ok hp) (n : Sockets) :
    ∃ e, w.dial n = (.error e, n) ∧ (e.isSetup = true ↔ ¬ Misread w.address) := by
  by_cases ha : w.address = ""
  · have hmisread : ¬ Misread w.address := by
      rintro ⟨host, port, split, -⟩
      rw [ha] at split
      simp at split
    refine ⟨.noAddress w.network, ?_, iff_of_true rfl hmisread⟩
    unfold dial
    rcases hn with hn | hn <;> rw [hn, if_neg (by decide), if_pos ha]
  · cases he : HostPort.parse w.address with
    | ok hp => exact absurd he (hunusable hp)
    | error e =>
      have hhost : ∀ kind, dialHost n kind w.address = (.error (.address e), n) := fun kind => by
        rw [dialHost, he]
      refine ⟨.address e, ?_, isSetup_address_iff he⟩
      unfold dial
      rcases hn with hn | hn
      · rw [hn, if_neg (by decide), if_neg ha]
        exact hhost .datagram
      · rw [hn, if_neg (by decide), if_neg ha]
        exact hhost .stream

/-- Nothing is dialed at an address that cannot be used, and the sink stays as it is. -/
theorem write_unusable (hn : w.network = .udp ∨ w.network = .tcp) (hs : w.socket = none)
    (hunusable : ∀ hp, HostPort.parse w.address ≠ .ok hp) (n : Sockets) (r : Record) :
    ∃ e, w.write n r = (.error e, w, n) ∧ (e.isSetup = true ↔ ¬ Misread w.address) := by
  obtain ⟨e, hdial, he⟩ := dial_unusable hn hunusable n
  refine ⟨e, ?_, he⟩
  simp only [write, ensureConnected, hs, hdial]

/-- So it is never connected, whatever is asked of it. -/
theorem run_unusable (hn : w.network = .udp ∨ w.network = .tcp) (hs : w.socket = none)
    (hunusable : ∀ hp, HostPort.parse w.address ≠ .ok hp) (n : Sockets)
    (steps : List DaemonStep) :
    ∃ n', run (w, n) steps = (w, n') ∧ n'.events = n.events := by
  induction steps generalizing n with
  | nil => exact ⟨n, rfl, rfl⟩
  | cons a steps ih =>
    have hstep : ∃ n', step (w, n) a = (w, n') ∧ n'.events = n.events := by
      cases a with
      | write r =>
        obtain ⟨e, hwrite, -⟩ := write_unusable hn hs hunusable n r
        exact ⟨n, by rw [step, hwrite], rfl⟩
      | close => exact ⟨n, close_of_none hs, rfl⟩
      | rewire hosts listeners => exact ⟨_, rfl, rfl⟩
    obtain ⟨n', hstep, hevents⟩ := hstep
    obtain ⟨n'', hrun, hevents'⟩ := ih n'
    refine ⟨n'', ?_, hevents'.trans hevents⟩
    rw [run, List.foldl_cons, hstep]
    exact hrun

end Syslogd

namespace HostPort

open Syslogd

/-- **An address is taken or refused unless its port is misread.**  It is taken in one of the ways
of `Parsed`, which give a host that is not empty or refuse it, and fail otherwise exactly if the
digits behind the last colon cannot be read.  A written address is taken as it is meant, with
brackets and without, as long as the port is not too long.  A sink at an address that is not taken
never dials: each write fails, by a fault in the set-up unless the address is misread. -/
theorem taken_unless_misread (address : String) :
    (Parsed address (parse address) ∧
      (((∃ hp, parse address = .ok hp ∧ hp.host ≠ "") ∨
        parse address = .error (.notHostPort address)) ↔ ¬ Misread address)) ∧
    (∀ host (p : Nat), Bare host →
      address = host ++ ":" ++ intText p ∨ address = "[" ++ host ++ "]:" ++ intText p →
      (parse address = .ok ⟨host, p⟩ ↔ isWritable p = true)) ∧
    (∀ p : Nat, address = ":" ++ intText p →
      (parse address = .ok ⟨"localhost", p⟩ ↔ isWritable p = true)) ∧
    ∀ network (w : Syslogd) hosts listeners steps, ofText network address = .ok w →
      network = "udp" ∨ network = "tcp" → (∀ hp, parse address ≠ .ok hp) →
      ∃ n, run (w, { hosts := hosts, listeners := listeners }) steps = (w, n) ∧
        w.socket = none ∧ n.events = [] ∧
        ∀ r, ∃ e, w.write n r = (.error e, w, n) ∧ (e.isSetup = true ↔ ¬ Misread address) := by
  have hdigits : ∀ p : Nat, (intText p).toList = digitsOf p := fun p => by
    rw [intText, String.toList_ofList, intDigits_natCast]
  refine ⟨⟨parsed address, taken_or_refused_iff address⟩, ?_, ?_, ?_⟩
  · rintro host p h (rfl | rfl)
    · have hsplit : (host ++ ":" ++ intText p).toList =
          ([] ++ host.toList ++ []) ++ ':' :: digitsOf p := by simp [hdigits]
      have hparse := parse_eq_ok_iff_isWritable hsplit
      rwa [h.hostOf_append (List.forall_mem_nil _) (List.forall_mem_nil _)] at hparse
    · have hsplit : ("[" ++ host ++ "]:" ++ intText p).toList =
          (['['] ++ host.toList ++ [']']) ++ ':' :: digitsOf p := by simp [hdigits]
      have hparse := parse_eq_ok_iff_isWritable hsplit
      rwa [h.hostOf_append (List.forall_mem_singleton.mpr rfl)
        (List.forall_mem_singleton.mpr rfl)] at hparse
  · rintro p rfl
    have hsplit : (":" ++ intText p).toList = [] ++ ':' :: digitsOf p := by simp [hdigits]
    exact parse_eq_ok_iff_isWritable hsplit
  · intro network w hosts listeners steps hw hn hunusable
    obtain ⟨hnetwork, rfl, hsocket⟩ := of_ofText_eq_ok hw
    have hn : w.network = .udp ∨ w.network = .tcp := by
      rw [← hnetwork] at hn
      cases hk : w.network <;> simp [hk, SyslogNetwork.text] at hn ⊢
    obtain ⟨n, hrun, hevents⟩ := run_unusable hn hsocket hunusable
      { hosts := hosts, listeners := listeners } steps
    exact ⟨n, hrun, hsocket, hevents, fun r => write_unusable hn hsocket hunusable n r⟩

/-- A superscript two is a digit, but no decimal one. -/
theorem misread_superscript :
    Misread "h:²" ∧ parse "h:²" = .error (.port (.badInteger "²")) :=
  ⟨⟨['h'], ['²'], rfl, ⟨by decide, List.forall_mem_singleton.mpr rfl⟩,
    .inl ⟨'²', by decide, by decide⟩⟩, by decide⟩

/-- A sink at an address without a port. -/
def portless : Syslogd where
  network := .tcp
  address := "no-port-here"

theorem taken_unless_misread_six :
    Bare "::1" ∧ parse "::1:601" = .ok ⟨"::1", 601⟩ ∧ parse "[::1]:601" = .ok ⟨"::1", 601⟩ ∧
      parse ":601" = .ok ⟨"localhost", 601⟩ ∧
      ofText "tcp" "no-port-here" = .ok portless ∧ (∀ hp, parse "no-port-here" ≠ .ok hp) ∧
      ∃ n, run (portless, {}) [.write short, .close] = (portless, n) ∧ portless.socket = none ∧
        ∃ e, portless.write n short = (.error e, portless, n) ∧ e.isSetup = true := by
  have hbare : Bare "::1" :=
    ⟨by decide, fun c hc => by cases hc; rfl, fun c hc => by cases hc; rfl⟩
  have hplain := (taken_unless_misread "::1:601").2.1 "::1" 601 hbare (.inl (by decide))
  have hbrackets := (taken_unless_misread "[::1]:601").2.1 "::1" 601 hbare (.inr (by decide))
  have hlocal := (taken_unless_misread ":601").2.2.1 601 (by decide)
  have hrefused : parse "no-port-here" = .error (.notHostPort "no-port-here") := by decide
  have hunusable : ∀ hp, parse "no-port-here" ≠ .ok hp := fun hp h => by
    rw [hrefused] at h
    contradiction
  obtain ⟨⟨-, hmisread⟩, -, -, hsinks⟩ := taken_unless_misread "no-port-here"
  obtain ⟨n, hrun, hsocket, -, hwrite⟩ :=
    hsinks "tcp" portless [] [] [.write short, .close] rfl (.inr rfl) hunusable
  obtain ⟨e, hwrite, hsetup⟩ := hwrite short
  exact ⟨hbare, hplain.mpr (by decide), hbrackets.mpr (by decide), hlocal.mpr (by decide),
    rfl, hunusable, n, hrun, hsocket, e, hwrite, hsetup.mpr (hmisread.mp (.inr hrefused))⟩

end HostPort

end Logwire
