import Logwire.Line.Writer
import Logwire.Storage.FileTree

/-!
# Logwire.Sink.LogFile

Sinks that write lines to files and to text streams.

A file is opened by the first record, and again by the first record after a
close.  A stream belongs to someone else, who may close it.  A record without a
line changes neither.
-/

namespace Logwire

def endLine (line : String) : String := line ++ "\n"

/-! ## Files -/

/-- A sink that adds lines to the file at a path; when it is open it holds the place. -/
structure LogFile where
  path : String
  opened : Option Place := none
  deriving DecidableEq, Repr

namespace LogFile

/-- Why a file takes no line. -/
inductive Fault where
  | noPath
  | line (fault : Line.WriteFault)
  | file (fault : FileFault)
  deriving DecidableEq, Repr

/-- The permissions that are asked for a new file. -/
def fileMode : Nat := 0o777

/-- The place of the file, which is opened if it is not open. -/
def ensureOpen (f : LogFile) (t : FileTree) : Except FileFault Place × FileTree :=
  match f.opened with
  | some place => (.ok place, t)
  | none => t.openFile f.path fileMode

def write (f : LogFile) (t : FileTree) (r : Record) : Except Fault Unit × LogFile × FileTree :=
  if f.path = "" then (.error .noPath, f, t)
  else
    match r.written with
    | .error e => (.error (.line e), f, t)
    | .ok line =>
      match f.ensureOpen t with
      | (.error e, t) => (.error (.file e), f, t)
      | (.ok place, t) => (.ok (), { f with opened := some place }, t.append place (endLine line))

def close (f : LogFile) : LogFile := { f with opened := none }

@[simp] theorem close_close (f : LogFile) : f.close.close = f.close := rfl

end LogFile

/-! ## Streams -/

/-- A text stream that lines are added to. -/
structure TextStream where
  text : String := ""
  closed : Bool := false
  deriving DecidableEq, Repr

/-- A sink that adds lines to a stream, if it has one. -/
structure StreamSink where
  stream : Option TextStream
  deriving DecidableEq, Repr

namespace StreamSink

/-- Why a stream takes no line. -/
inductive Fault where
  | noStream
  | line (fault : Line.WriteFault)
  | closed
  deriving DecidableEq, Repr

/-- The wording for a stream that is closed. -/
def closedMessage : String := "I/O operation on closed file"

def write (w : StreamSink) (r : Record) : Except Fault Unit × StreamSink :=
  match w.stream with
  | none => (.error .noStream, w)
  | some s =>
    match r.written with
    | .error e => (.error (.line e), w)
    | .ok line =>
      if s.closed then (.error .closed, w)
      else (.ok (), ⟨some { s with text := s.text ++ endLine line }⟩)

/-- The stream is closed by its owner. -/
def closeStream (w : StreamSink) : StreamSink :=
  ⟨w.stream.map fun s => { s with closed := true }⟩

end StreamSink

end Logwire
