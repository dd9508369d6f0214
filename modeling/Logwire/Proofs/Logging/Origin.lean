import Logwire.Logging.Handler
import Logwire.Proofs.Number.Digits
import Logwire.Proofs.Time.Clock
import Logwire.Proofs.Time.Reading
import Logwire.Record.Validity
import Mathlib.Tactic.MkIffOfInductiveProp

/-!
# Logwire.Proofs.Logging.Origin

What a producer adds to a draft is valid.

The standard numbers pass their checks, and the names of host and process are
never empty, whatever the process knows of its host.  So a record is as valid as
its draft and its timestamp, `valid_fill_iff`, and loggers and handlers are left
with what they are given.  A clock on the calendar adds the timestamp,
`isStampOf_of_onCalendar`; that of an event is as exact as the double precision
number that tells its creation.
-/

namespace Logwire

open Text Time

/-! ## Host and process -/

namespace Producer

/-- A host has a name, be it a default. -/
theorem hostName_ne_empty (p : Producer) : p.hostName ≠ "" := by
  unfold hostName
  split
  · decide
  · simp only
    split
    · decide
    · assumption

/-- The number of a process has a digit. -/
theorem processName_ne_empty (p : Producer) : p.processName ≠ "" := by
  have hdigits := Number.digitsOf_ne_nil p.process.natAbs
  have hne : Number.intDigits p.process ≠ [] := by
    unfold Number.intDigits
    split
    · exact List.cons_ne_nil _ _
    · exact hdigits
  intro h
  exact hne (String.ofList_eq_empty_iff.mp h)

end Producer

/-! ## Drafts -/

namespace Draft

/-- A draft with an application, whose fields are valid as far as they are given. -/
@[mk_iff] structure Valid (d : Draft) : Prop where
  facility : ∀ n, d.facility = some n → n = Record.standardFacility
  severity : ∀ n, d.severity = some n → 0 ≤ n ∧ n ≤ 7
  version : ∀ n, d.version = some n → n = Record.standardVersion
  hostName : d.hostName ≠ some ""
  application : d.application.getD "" ≠ ""
  process : d.process ≠ some ""
  message : ∀ s, d.message = some s → hasLineBreak s = false
  audit : ∀ a, d.audit = some a → a.Valid
  metric : ∀ m, d.metric = some m → m.Valid

/-- With a default that passes, a field passes if it does where it is given. -/
theorem getD_iff {α : Type} {P : α → Prop} {d : α} (hd : P d) (field : Option α) :
    P (field.getD d) ↔ ∀ x, field = some x → P x := by
  cases field with
  | none => exact iff_of_true hd fun _ h => nomatch h
  | some x => exact ⟨fun hx _ h => Option.some.inj h ▸ hx, fun h => h x rfl⟩

theorem getD_ne_empty_iff {d : String} (hd : d ≠ "") (field : Option String) :
    field.getD d ≠ "" ↔ field ≠ some "" := by
  cases field with
  | none => exact iff_of_true hd nofun
  | some s => exact not_congr Option.some_inj.symm

/-- Every default passes its own check. -/
theorem valid_fill_iff (d : Draft) (p : Producer) (timestamp : String) :
    (d.fill p timestamp).Valid ↔ isSyslogTimestamp timestamp = true ∧ d.Valid := by
  have facility := getD_iff (P := (· = Record.standardFacility)) rfl d.facility
  have severity := getD_iff (P := fun n => 0 ≤ n ∧ n ≤ 7)
    (d := Severity.informational.number) (by decide) d.severity
  have version := getD_iff (P := (· = Record.standardVersion)) rfl d.version
  have hostName := getD_ne_empty_iff p.hostName_ne_empty d.hostName
  have process := getD_ne_empty_iff p.processName_ne_empty d.process
  have message := getD_iff (P := (hasLineBreak · = false)) (d := "") (by decide) d.message
  constructor
  · intro hv
    exact ⟨hv.timestamp, {
      facility := facility.mp hv.facility
      severity := severity.mp hv.severity
      version := version.mp hv.version
      hostName := hostName.mp hv.hostName
      application := hv.application
      process := process.mp hv.process
      message := message.mp hv.message
      audit := hv.audit
      metric := hv.metric }⟩
  · rintro ⟨hstamp, hv⟩
    exact {
      facility := facility.mpr hv.facility
      severity := severity.mpr hv.severity
      version := version.mpr hv.version
      timestamp := hstamp
      hostName := hostName.mpr hv.hostName
      application := hv.application
      process := process.mpr hv.process
      message := message.mpr hv.message
      audit := hv.audit
      metric := hv.metric }

end Draft

/-! ## Calls and events -/

/-- The severities are numbered from 0 to 7. -/
theorem Severity.number_bounds (s : Severity) : 0 ≤ s.number ∧ s.number ≤ 7 := by
  cases s <;> decide

/-- A call with words on one line and a valid element. -/
def LogCall.Valid : LogCall → Prop
  | .text _ words => hasLineBreak words = false
  | .audit element words => element.Valid ∧ hasLineBreak words = false
  | .metric element words => element.Valid ∧ hasLineBreak words = false

/-- The draft of a call is valid with an application and a valid call. -/
theorem LogCall.valid_draft_iff (call : LogCall) (application : String) :
    (call.draft application).Valid ↔ application ≠ "" ∧ call.Valid := by
  have hinformational := Severity.informational.number_bounds
  cases call with
  | text severity words =>
    have hseverity := severity.number_bounds
    simp [Draft.valid_iff, draft, LogCall.Valid, hseverity]
  | audit element words =>
    simp [Draft.valid_iff, draft, LogCall.Valid, hinformational, and_comm]
  | metric element words =>
    simp [Draft.valid_iff, draft, LogCall.Valid, hinformational, and_comm]

/-- What is left to ask of an event and of the handler that takes it. -/
theorem Handler.record_eq_fill {h : Handler} {p : Producer} {e : LogEvent} {text timestamp : String}
    {process : Option String} (htext : e.text = .ok text)
    (hstamp : p.timestampAt e.created = .ok timestamp) (hprocess : e.processText = .ok process) :
    ∃ d : Draft, h.record p e = .ok (d.fill p timestamp) ∧
      (d.Valid ↔ h.application ≠ "" ∧ hasLineBreak text = false ∧ process ≠ some "") := by
  have hseverity := (severityOfLevel e.level).number_bounds
  unfold record
  rw [htext, hstamp, hprocess]
  refine ⟨_, rfl, ?_⟩
  simp [Draft.valid_iff, hseverity, and_comm]

/-! ## Records -/

namespace Producer

/-- A clock on the calendar has a timestamp for its reading. -/
theorem timestampAt_eq {p : Producer} {reading : Reading} {micros : Int}
    (hr : reading.micros = .ok micros) (h : OnCalendar p.offset micros) :
    p.timestampAt reading = .ok (shown p.offset micros).format := by
  unfold timestampAt
  rw [momentAt_eq_shown hr h]

/-- No call gives a timestamp, so the present one is taken. -/
theorem log_eq_write {p : Producer} {timestamp : String} (h : p.timestamp = .ok timestamp)
    (l : Logger) (s : Site) (call : LogCall) :
    l.log p s call = l.write s ((call.draft l.application).fill p timestamp) := by
  have hmissing : (call.draft l.application).timestamp = none := by
    cases call <;> rfl
  unfold Logger.log Draft.complete
  rw [hmissing, h]

/-- **Timestamps denote the clock that makes them, and all that a producer adds is valid**: the
record of a logger can only lack an application, words on one line or a valid element, that of a
handler only an application, a text on one line or the name of the process.

An event tells the time of its creation as a double precision number, and its timestamp denotes the
number of microseconds that this is rounded to.  Any number of seconds is, even far beyond the
calendar.  What it is rounded to is hardly more than half a microsecond away; it is the number that
is hardly less than that away, if there is one, and up to `2 ^ 33` seconds from the epoch it is the
very number whose nearest datum is told. -/
theorem isStampOf_of_onCalendar {p : Producer} {micros : Int} (h : OnCalendar p.offset micros) :
    (p.now.micros = .ok micros → ∃ timestamp, p.timestamp = .ok timestamp ∧
      IsStampOf timestamp p.offset micros ∧
      ∀ (l : Logger) (s : Site) (call : LogCall),
        let r := (call.draft l.application).fill p timestamp
        l.log p s call = l.write s r ∧ (r.fault? = none ↔ l.application ≠ "" ∧ call.Valid)) ∧
    (∀ (handler : Handler) (e : LogEvent) (text : String) (process : Option String),
      e.created.micros = .ok micros → e.text = .ok text → e.processText = .ok process →
        ∃ r, handler.record p e = .ok r ∧ IsStampOf r.timestamp p.offset micros ∧
          (r.fault? = none ↔
            handler.application ≠ "" ∧ hasLineBreak text = false ∧ process ≠ some "")) ∧
    (∀ (reading : Reading) (x : ℚ), reading.seconds? = some x → |x| < secondsBound - 1 →
      ∃ m, reading.micros = .ok m) ∧
    (∀ reading : Reading, reading.micros = .ok micros → ∃ x, reading.seconds? = some x ∧
      |(micros : ℚ) - x * microsPerSecond| ≤ 1 / 2 + 1 / 2 ^ 34) ∧
    (∀ (reading : Reading) (x : ℚ), reading.seconds? = some x →
      |(micros : ℚ) - x * microsPerSecond| < 1 / 2 - 1 / 2 ^ 34 → reading.micros = .ok micros) ∧
    (micros.natAbs < 2 ^ 33 * microsPerSecond →
      (Reading.nearest micros).micros = .ok micros) := by
  have hstamp := isStampOf_format h
  have hvalid : ∀ d : Draft,
      (d.fill p (shown p.offset micros).format).fault? = none ↔ d.Valid := by
    intro d
    rw [Record.fault?_eq_none_iff, Draft.valid_fill_iff, and_iff_right hstamp.narrow]
  obtain ⟨hlow, hhigh⟩ := h.micros_bounds
  refine ⟨fun hnow => ?_, fun handler e text process hcreated htext hprocess => ?_,
    fun _ _ => exists_micros, fun _ => exists_near_of_micros,
    fun _ x hx hnear => micros_eq_of_near hx hnear hlow hhigh, micros_nearest⟩
  · have hpresent : p.timestamp = .ok (shown p.offset micros).format := timestampAt_eq hnow h
    refine ⟨_, hpresent, hstamp, fun l s call => ⟨log_eq_write hpresent l s call, ?_⟩⟩
    exact (hvalid _).trans (call.valid_draft_iff l.application)
  · obtain ⟨d, hrecord, hdraft⟩ :=
      Handler.record_eq_fill (h := handler) htext (timestampAt_eq hcreated h) hprocess
    exact ⟨_, hrecord, hstamp, (hvalid d).trans hdraft⟩

/-- A microsecond before the epoch, on a clock where the next year has begun.  The host has no
name. -/
def early : Producer where
  now := .ticks (-1)
  offset := 19800
  host := none
  process := 42

def memorySite : Site where
  sinks := [.memory {}]

/-- A logger that writes to the memory. -/
def memoryLogger : Logger where
  sink := .leaf 0
  application := "app"

/-- A handler that writes to the memory. -/
def memoryHandler : Handler where
  sink := .leaf 0
  application := "app"

def deletion : LogCall := .audit ⟨"root", "delete", "users"⟩ "all of them"

/-- An event at the same time, as a double precision number. -/
def arrival : LogEvent where
  level := 20
  template := .str "up"
  created := .nearest (-1)

theorem isStampOf_of_onCalendar_early :
    OnCalendar early.offset (-1) ∧ early.now.micros = .ok (-1) ∧
      IsStampOf "1970-01-01T05:29:59+05:30" early.offset (-1) ∧ deletion.Valid ∧
      (∃ r, (memoryLogger.log early memorySite deletion).1 = .ok r ∧
        r.timestamp = "1970-01-01T05:29:59+05:30" ∧ r.fault? = none) ∧
      arrival.created.micros = .ok (-1) ∧ arrival.text = .ok "up" ∧
      arrival.processText = .ok none ∧
      ∃ r, memoryHandler.record early arrival = .ok r ∧
        IsStampOf r.timestamp early.offset (-1) ∧ r.fault? = none := by
  have hcalendar : OnCalendar early.offset (-1) := by decide
  have hcall : deletion.Valid := ⟨by unfold AuditElement.Valid; decide, by decide⟩
  obtain ⟨hlogger, hhandler, -, -, -, hnearest⟩ :=
    isStampOf_of_onCalendar (p := early) hcalendar
  obtain ⟨timestamp, htimestamp, hstamp, hlog⟩ := hlogger rfl
  have htext : early.timestamp = .ok "1970-01-01T05:29:59+05:30" := by decide
  obtain rfl := Except.ok.inj (htext.symm.trans htimestamp)
  obtain ⟨hwrite, hfault⟩ := hlog memoryLogger memorySite deletion
  have hcreated : arrival.created.micros = .ok (-1) := hnearest (by decide)
  obtain ⟨r, hrecord, hrecordStamp, hvalid⟩ :=
    hhandler memoryHandler arrival "up" none hcreated rfl rfl
  refine ⟨hcalendar, rfl, hstamp, hcall, ⟨_, ?_, rfl, hfault.mpr ⟨by decide, hcall⟩⟩, hcreated, rfl,
    rfl, r, hrecord, hrecordStamp, hvalid.mpr ⟨by decide, by decide, by decide⟩⟩
  rw [hwrite]
  rfl

def greenwich : Producer where
  now := .ticks 0
  offset := 0
  host := none
  process := 42

/-- The last microsecond of the year 4999. -/
def millenniumEve : Int := 95617583999999999

/-- An event at that time. -/
def lateArrival : LogEvent := { arrival with created := .nearest millenniumEve }

/-- So far from the epoch there are not as many datums as microseconds: the one that is nearest to
the end of the year 4999 is rounded to the beginning of the year 5000. -/
theorem not_isStampOf_millenniumEve :
    OnCalendar greenwich.offset millenniumEve ∧ ∃ r,
      memoryHandler.record greenwich lateArrival = .ok r ∧ r.timestamp = "5000-01-01T00:00:00Z" ∧
        ¬ IsStampOf r.timestamp greenwich.offset millenniumEve := by
  have hmicros : lateArrival.created.micros = .ok (millenniumEve + 1) := by decide +kernel
  have hcalendar : OnCalendar greenwich.offset (millenniumEve + 1) := by decide
  have htext : lateArrival.text = .ok "up" := rfl
  have hprocess : lateArrival.processText = .ok none := rfl
  obtain ⟨d, hrecord, -⟩ := Handler.record_eq_fill (h := memoryHandler) htext
    (timestampAt_eq (p := greenwich) hmicros hcalendar) hprocess
  have hshown : (shown greenwich.offset (millenniumEve + 1)).format = "5000-01-01T00:00:00Z" := by
    decide +kernel
  refine ⟨by decide, _, hrecord, hshown, fun hstamp => ?_⟩
  -- the timestamp is one of the next second
  have hseconds := hstamp.seconds_eq (isStampOf_format hcalendar)
  unfold millenniumEve microsPerSecond at hseconds
  omega

end Producer

end Logwire
