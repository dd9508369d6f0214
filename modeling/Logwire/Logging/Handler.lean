import Logwire.Failure.Report
import Logwire.Logging.Logger
import Logwire.Template.Basic

/-!
# Logwire.Logging.Handler

A handler takes the events of a program's logging and writes them to a sink as
records.

An event has a level and a template with arguments, the time of its creation,
and perhaps an error.  Events below the level of the handler are dropped.  An
event that cannot be made a record, or whose record the sink does not take, is
reported and hurts no later one.

A report shows the template and the arguments once more, after the error itself.
Where they are too deep for a text it comes to an error of its own, and that one
is let out.

The sink is a tree, and the handler does not know what its leaves are: they take
a record, or fail at it, in a state of their own.

* `emit_below` — an event below the level has no effect;
* `emitAll_append` — events are treated one after the other.
-/

namespace Logwire

/-! ## Events -/

/-- An error that comes with an event, and the text of the error that led to it. -/
structure AttachedFailure where
  failure : Failure
  cause : Option String := none

/-- An event of a program's logging. -/
structure LogEvent where
  level : Int
  template : Json
  arguments : List Json := []
  created : Time.Reading
  /-- The number of the process, or null. -/
  process : Json := .null
  failure : Option AttachedFailure := none

def severityOfLevel (level : Int) : Severity :=
  if 50 ≤ level then .critical
  else if 40 ≤ level then .error
  else if 30 ≤ level then .warning
  else if 20 ≤ level then .informational
  else .debug

/-- Why an event cannot be made a record. -/
inductive EventFault where
  | template (fault : Template.Fault)
  | excerpt (fault : ExcerptFault)
  | clock (fault : Time.ClockFault)
  | process (fault : Json.TextFault)

def EventFault.message? : EventFault → Option String
  | .template e => some e.message
  | .excerpt e => some e.message
  | .clock e => e.message?
  | .process e => some e.message

namespace LogEvent

/-- The message of an event.  Without arguments the template is the message. -/
def message (e : LogEvent) : Except Template.Fault String :=
  match e.template.displayWithin Json.shownLimit with
  | .error fault => .error (.text fault)
  | .ok template =>
    if e.arguments.isEmpty then .ok template else Template.fill template e.arguments

/-- The text of an event: its message and a report of its error. -/
def text (e : LogEvent) : Except EventFault String :=
  match e.message with
  | .error fault => .error (.template fault)
  | .ok m =>
    match e.failure with
    | none => .ok m
    | some f =>
      match f.failure.report f.cause with
      | .ok report => .ok (m ++ "\n" ++ report)
      | .error fault => .error (.excerpt fault)

/-- The number of the process as text, if the event has one. -/
def processText (e : LogEvent) : Except Json.TextFault (Option String) :=
  match e.process with
  | .null => .ok none
  | v => (v.displayWithin Json.shownLimit).map some

/-- The arguments as one value.  An object that is the mapping of the template stands for itself. -/
def argumentsValue (e : LogEvent) : Json :=
  match e.arguments with
  | [.obj (m :: ms)] => .obj (m :: ms)
  | values => .arr values

/-- Why the template and the arguments cannot be shown behind each other, if they cannot. -/
def textFault? (room : Nat) (e : LogEvent) : Option Json.TextFault :=
  (e.template.textFault? room).or (e.argumentsValue.textFault? room)

end LogEvent

/-! ## Handlers -/

/-- A handler for the events of a program. -/
structure Handler where
  sink : SinkTree
  application : String := ""
  level : Int := 0
  deriving Repr

namespace Handler

def record (h : Handler) (p : Producer) (e : LogEvent) : Except EventFault Record :=
  match e.text with
  | .error fault => .error fault
  | .ok text =>
    match p.timestampAt e.created with
    | .error fault => .error (.clock fault)
    | .ok timestamp =>
      match e.processText with
      | .error fault => .error (.process fault)
      | .ok process =>
        let draft : Draft := {
          severity := (severityOfLevel e.level).number
          application := h.application
          process := process
          message := text
        }
        .ok (draft.fill p timestamp)

/-- Why an event is not written: it cannot be made a record, or the sink fails at the record. -/
inductive HandlingFault (ε : Type) where
  | event (fault : EventFault)
  | sink (fault : ε)

end Handler

/-! ## Reports -/

/-- What comes of showing an error with those that led to it. -/
inductive Shown where
  | done
  /-- The operating system does not take it, and nothing more is shown. -/
  | lost
  /-- Showing it comes to an error of its own. -/
  | failed (failure : Failure)

/-- A place where errors are shown. -/
structure Console (ε : Type) where
  shows : LogEvent → Handler.HandlingFault ε → Shown := fun _ _ => .done
  /-- The most values within each other that a text has there. -/
  room : Nat := Json.shownLimit

/-- An error that a report lets out. -/
inductive Escape where
  | failure (failure : Failure)
  | tooDeep

/-- The error that the report of a fault lets out, if it does.  The error is shown first, and then
the template and the arguments.  Of their faults only a text that is too deep is let out. -/
def Console.escape? {ε : Type} (c : Console ε) (e : LogEvent) (fault : Handler.HandlingFault ε) :
    Option Escape :=
  match c.shows e fault with
  | .failed f => some (.failure f)
  | .lost => none
  | .done => if e.textFault? c.room = some .tooDeep then some .tooDeep else none

/-- What surrounds a handler: which failures of its sink are errors, and where errors are shown, if
they are.  A failure that is no error, such as an interrupt, goes past everything that handles
errors. -/
structure Surroundings (ε : Type) where
  isError : ε → Bool := fun _ => true
  console : Option (Console ε) := none

/-- What became of an event. -/
inductive Treatment (ε : Type) where
  | dropped
  | written (record : Record)
  | reported (fault : Handler.HandlingFault ε)
  /-- Reported, by a report that let an error out. -/
  | raised (fault : Handler.HandlingFault ε) (escape : Escape)
  /-- Not reported, since the failure is no error. -/
  | interrupted (fault : ε)

def Surroundings.report {ε : Type} (w : Surroundings ε) (e : LogEvent)
    (fault : Handler.HandlingFault ε) : Treatment ε :=
  match w.console.bind fun c => c.escape? e fault with
  | none => .reported fault
  | some escape => .raised fault escape

/-! ## Treating events -/

namespace Handler

section

variable {σ ε : Type} (h : Handler) (p : Producer) (w : Surroundings ε)
variable (leafWrite : Record → Nat → σ → Except ε Unit × σ)

/-- Make a record of an event and write it. -/
def handle (s : σ) (e : LogEvent) : Except (HandlingFault ε) Record × σ :=
  match h.record p e with
  | .error fault => (.error (.event fault), s)
  | .ok r =>
    match h.sink.write (leafWrite r) s with
    | (.ok (), s) => (.ok r, s)
    | (.error fault, s) => (.error (.sink fault), s)

/-- Take an event. -/
def emit (s : σ) (e : LogEvent) : Treatment ε × σ :=
  if e.level < h.level then (.dropped, s)
  else
    match h.handle p leafWrite s e with
    | (.ok r, s) => (.written r, s)
    | (.error (.sink fault), s) =>
      (if w.isError fault then w.report e (.sink fault) else .interrupted fault, s)
    | (.error fault, s) => (w.report e fault, s)

/-- Take events one after the other. -/
def emitAll (s : σ) : List LogEvent → List (Treatment ε) × σ
  | [] => ([], s)
  | e :: rest =>
    let first := h.emit p w leafWrite s e
    let others := emitAll first.2 rest
    (first.1 :: others.1, others.2)

/-- An event below the level has no effect. -/
theorem emit_below (s : σ) (e : LogEvent) (hl : e.level < h.level) :
    h.emit p w leafWrite s e = (.dropped, s) := by
  simp [emit, hl]

/-- Events are treated one after the other. -/
theorem emitAll_append (s : σ) (xs ys : List LogEvent) :
    h.emitAll p w leafWrite s (xs ++ ys) =
      ((h.emitAll p w leafWrite s xs).1 ++
          (h.emitAll p w leafWrite (h.emitAll p w leafWrite s xs).2 ys).1,
        (h.emitAll p w leafWrite (h.emitAll p w leafWrite s xs).2 ys).2) := by
  induction xs generalizing s with
  | nil => rfl
  | cons e xs ih => simp [emitAll, ih]

end

end Handler

end Logwire
