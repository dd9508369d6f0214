import Logwire.Failure.Basic
import Logwire.Index.Basic
import Logwire.Sink.LogFile
import Logwire.Sink.Memory
import Logwire.Sink.Remote
import Logwire.Sink.Syslogd
import Logwire.Sink.Tree

/-!
# Logwire.Sink.Basic

The sinks that records go to, and the site where they work.

A site has a network, a file tree and indices, and the sinks themselves, each
known by its number.  A write or a close at a sink may change any of these.

* `sinks_length_write`, `sinks_length_close` — sinks neither come nor go.
-/

namespace Logwire

/-! ## Sinks -/

/-- A sink that posts records to an index of the site, under a type and an id. -/
structure IndexSink where
  index : Option Nat
  type : String := ""
  id : String := ""
  deriving DecidableEq, Repr

/-- A sink that does nothing but fail as it is told. -/
structure ScriptedSink where
  onWrite : Option Failure := none
  onClose : Option Failure := none

/-- A sink. -/
inductive Sink where
  | memory (sink : MemorySink)
  | stream (sink : StreamSink)
  | file (sink : LogFile)
  | index (sink : IndexSink)
  | syslogd (sink : Syslogd)
  | remote (sink : RemoteSink)
  | scripted (sink : ScriptedSink)

/-- Why a sink does not do what is asked of it. -/
inductive SinkFault where
  /-- There is no sink of this number. -/
  | absent (sink : Nat)
  | file (fault : LogFile.Fault)
  | stream (fault : StreamSink.Fault)
  | noIndex
  | index (fault : Index.Fault)
  | syslogd (fault : Syslogd.Fault)
  | remote (fault : RemoteSink.Fault)
  | scripted (failure : Failure)

/-- The wording of a fault; some faults of files have none. -/
def SinkFault.message? : SinkFault → Option String
  | .absent _ => none
  | .file .noPath => some "file writer has no path"
  | .file (.line e) => some e.message
  | .file (.file e) => e.message?
  | .stream .noStream => some "stream writer has no stream"
  | .stream (.line e) => some e.message
  | .stream .closed => some StreamSink.closedMessage
  | .noIndex => some "index writer needs an index and a type"
  | .index e => some e.message
  | .syslogd e => some e.message
  | .remote e => some e.message
  | .scripted f => some f.message

/-- Whether a fault is an error. -/
def SinkFault.isError : SinkFault → Bool
  | .scripted f => f.isError
  | _ => true

/-! ## Site -/

/-- What a scripted sink is asked to do. -/
inductive ScriptNote where
  | wrote (text : String)
  | closed
  deriving DecidableEq, Repr

/-- The place where sinks work. -/
structure Site where
  http : Http := {}
  sockets : Sockets := {}
  files : FileTree := {}
  indices : List Index := []
  /-- The number of ids that indices have given out. -/
  lastId : Nat := 0
  sinks : List Sink := []
  notes : List ScriptNote := []

namespace Site

def setSink (s : Site) (k : Nat) (sink : Sink) : Site := { s with sinks := s.sinks.set k sink }

def note (s : Site) (n : ScriptNote) : Site := { s with notes := s.notes ++ [n] }

/-! ## Indices -/

/-- The index of a sink, if it can be used. -/
def indexOf? (s : Site) (w : IndexSink) : Option (Nat × Index) :=
  if w.type = "" then none
  else
    match w.index with
    | none => none
    | some n => (s.indices[n]?).map fun x => (n, x)

/-- Post a value to an index of the site. -/
def postTo (s : Site) (n : Nat) (x : Index) (type id : String) (v : Json) :
    Except Index.Fault Index.PostAnswer × Site :=
  let (answer, x, last) := x.post s.lastId type id v
  (answer, { s with indices := s.indices.set n x, lastId := last })

/-- Post a record to the index of a sink. -/
def post (s : Site) (w : IndexSink) (r : Record) : Except SinkFault Index.PostAnswer × Site :=
  match s.indexOf? w with
  | none => (.error .noIndex, s)
  | some (n, x) =>
    match s.postTo n x w.type w.id r.toJson with
    | (.ok a, s) => (.ok a, s)
    | (.error e, s) => (.error (.index e), s)

/-! ## Writing and closing -/

/-- The outcome of a scripted step. -/
def scripted : Option Failure → Except SinkFault Unit
  | some f => .error (.scripted f)
  | none => .ok ()

/-- Write a record to the sink of a number. -/
def writeSink (r : Record) (k : Nat) (s : Site) : Except SinkFault Unit × Site :=
  match s.sinks[k]? with
  | none => (.error (.absent k), s)
  | some (.memory m) => (.ok (), s.setSink k (.memory (m.write r)))
  | some (.stream w) =>
    match w.write r with
    | (.ok (), w) => (.ok (), s.setSink k (.stream w))
    | (.error e, _) => (.error (.stream e), s)
  | some (.file f) =>
    match f.write s.files r with
    | (.ok (), f, files) => (.ok (), { s with files := files }.setSink k (.file f))
    | (.error e, _, files) => (.error (.file e), { s with files := files })
  | some (.index w) =>
    match s.post w r with
    | (.ok _, s) => (.ok (), s)
    | (.error e, s) => (.error e, s)
  | some (.syslogd w) =>
    match w.write s.sockets r with
    | (.ok (), w, n) => (.ok (), { s with sockets := n }.setSink k (.syslogd w))
    | (.error e, w, n) => (.error (.syslogd e), { s with sockets := n }.setSink k (.syslogd w))
  | some (.remote w) =>
    match w.write s.http r with
    | (.ok (), h) => (.ok (), { s with http := h })
    | (.error e, h) => (.error (.remote e), { s with http := h })
  | some (.scripted w) => (scripted w.onWrite, s.note (.wrote r.message))

def closeSink (k : Nat) (s : Site) : Except SinkFault Unit × Site :=
  match s.sinks[k]? with
  | none => (.error (.absent k), s)
  | some (.file f) => (.ok (), s.setSink k (.file f.close))
  | some (.syslogd w) =>
    let (w, n) := w.close s.sockets
    (.ok (), { s with sockets := n }.setSink k (.syslogd w))
  | some (.scripted w) => (scripted w.onClose, s.note .closed)
  | some _ => (.ok (), s)

/-- Write a record to a tree of sinks. -/
def write (s : Site) (t : SinkTree) (r : Record) : Except SinkFault Unit × Site :=
  t.write (writeSink r) s

def close (s : Site) (t : SinkTree) : Except SinkFault Unit × Site := t.close closeSink s

/-! ## Laws -/

@[simp] theorem length_setSink (s : Site) (k : Nat) (sink : Sink) :
    (s.setSink k sink).sinks.length = s.sinks.length := by
  simp [setSink]

theorem sinks_postTo (s : Site) (n : Nat) (x : Index) (type id : String) (v : Json) :
    (s.postTo n x type id v).2.sinks = s.sinks := rfl

/-- A post changes an index and no sink. -/
theorem sinks_post (s : Site) (w : IndexSink) (r : Record) : (s.post w r).2.sinks = s.sinks := by
  unfold post
  split
  · rfl
  · rename_i n x _
    have := s.sinks_postTo n x w.type w.id r.toJson
    split <;> simp_all

/-- A write leaves the number of sinks as it is. -/
theorem sinks_length_write (r : Record) (k : Nat) (s : Site) :
    (writeSink r k s).2.sinks.length = s.sinks.length := by
  unfold writeSink
  split
  · rfl
  · simp
  · split <;> simp
  · split <;> simp [setSink]
  · rename_i w _
    have := s.sinks_post w r
    split <;> simp_all
  · split <;> simp [setSink]
  · split <;> rfl
  · rfl

/-- A close leaves the number of sinks as it is. -/
theorem sinks_length_close (k : Nat) (s : Site) :
    (closeSink k s).2.sinks.length = s.sinks.length := by
  unfold closeSink
  split
  · rfl
  · simp
  · simp [setSink]
  · rfl
  · rfl

end Site

end Logwire
