import Logwire.Json.Basic
import Logwire.Line.Escape
import Logwire.Record.Basic

/-!
# Logwire.Line.StructuredData

The structured data of a line: elements in brackets, each with a name and
parameters.

```
element   = "[" name *( " " name "=" quote value quote ) "]"
```

A name is not empty and holds no space, equals sign, double quote or closing
bracket.  Elements follow each other directly; one of this library's own may
have a space in front when it is not the first.

Each reader below consumes a front part of the text, and the `length_lt` lemma
beside it says that something was consumed.
-/

namespace Logwire.Line

/-- An element of structured data, its parameters by name. -/
structure Element where
  id : String
  params : Members String
  deriving DecidableEq, Repr

/-! ## Writing -/

/-- A parameter with the space in front of it. -/
def writeParam (p : String × String) : List Char :=
  ' ' :: p.1.toList ++ '=' :: '"' :: escape p.2.toList ++ ['"']

def Element.write (e : Element) : List Char :=
  '[' :: e.id.toList ++ e.params.flatMap writeParam ++ [']']

/-! ## Reading -/

/-- Why a text is no structured data. -/
inductive ScanFault where
  | noId
  | unterminated (id : String)
  | malformed (id : String)
  | parameter (id : String)
  | value
  deriving DecidableEq, Repr

def ScanFault.message : ScanFault → String
  | .noId => "structured data element has no SD-ID"
  | .unterminated id => "unterminated structured data element: " ++ id
  | .malformed id => "malformed structured data element: " ++ id
  | .parameter id => "malformed structured data parameter in " ++ id
  | .value => "unterminated structured data parameter value"

/-- A character that ends a name. -/
def isNameEnd (c : Char) : Bool := c == ' ' || c == '=' || c == '"' || c == ']'

/-- The name at the front, perhaps empty, and the rest. -/
def scanName (s : List Char) : List Char × List Char :=
  (s.takeWhile fun c => !isNameEnd c, s.dropWhile fun c => !isNameEnd c)

/-- A name and the rest make up the text. -/
theorem scanName_append (s : List Char) : (scanName s).1 ++ (scanName s).2 = s :=
  List.takeWhile_append_dropWhile

theorem length_scanName_le (s : List Char) : (scanName s).2.length ≤ s.length := by
  have := congrArg List.length (scanName_append s)
  rw [List.length_append] at this
  omega

/-- Reads a parameter after its space. -/
def scanParam (id : String) (s : List Char) :
    Except ScanFault ((String × String) × List Char) :=
  if (scanName s).1.isEmpty then .error (.parameter id)
  else
    match (scanName s).2 with
    | '=' :: '"' :: r =>
      match scanValue r with
      | none => .error .value
      | some (v, rest) => .ok ((String.ofList (scanName s).1, String.ofList v), rest)
    | _ => .error (.parameter id)

theorem length_lt_of_scanParam {id : String} {s rest : List Char} {p : String × String}
    (h : scanParam id s = .ok (p, rest)) : rest.length < s.length := by
  unfold scanParam at h
  split at h
  · simp at h
  · split at h
    · rename_i r hn
      split at h
      · simp at h
      · rename_i v rest' hv
        obtain ⟨-, rfl⟩ := by simpa using h
        have h1 := length_lt_of_scanValue hv
        have h2 := length_scanName_le s
        rw [hn] at h2
        simp only [List.length_cons] at h2
        omega
    · simp at h

/-- Reads parameters up to and over the closing bracket, adding them to those that came before.
Of two with one name the last value counts. -/
def scanParams (id : String) (before : Members String) (s : List Char) :
    Except ScanFault (Members String × List Char) :=
  match s with
  | [] => .error (.unterminated id)
  | ']' :: r => .ok (before, r)
  | ' ' :: r =>
    match _h : scanParam id r with
    | .error e => .error e
    | .ok (p, rest) => scanParams id (Members.insert before p.1 p.2) rest
  | _ => .error (.malformed id)
  termination_by s.length
  decreasing_by
    have := length_lt_of_scanParam _h
    simp only [List.length_cons]
    omega

theorem length_lt_of_scanParams {id : String} {before params : Members String}
    {s rest : List Char} (h : scanParams id before s = .ok (params, rest)) :
    rest.length < s.length := by
  fun_induction scanParams id before s with
  | case1 => simp at h
  | case2 before r =>
    obtain ⟨-, rfl⟩ := by simpa using h
    simp
  | case3 => simp at h
  | case4 before r p t hp ih =>
    have h1 := length_lt_of_scanParam hp
    have h2 := ih h
    simp only [List.length_cons]
    omega
  | case5 => simp at h

/-- Reads an element after its opening bracket. -/
def scanElement (s : List Char) : Except ScanFault (Element × List Char) :=
  if (scanName s).1.isEmpty then .error .noId
  else
    let id := String.ofList (scanName s).1
    match scanParams id [] (scanName s).2 with
    | .error e => .error e
    | .ok (params, rest) => .ok (⟨id, params⟩, rest)

/-- An element takes characters off the text, so reading elements comes to an end. -/
theorem length_lt_of_scanElement {s rest : List Char} {e : Element}
    (h : scanElement s = .ok (e, rest)) : rest.length < s.length := by
  unfold scanElement at h
  split at h
  · simp at h
  · simp only at h
    split at h
    · simp at h
    · rename_i params rest' hp
      obtain ⟨-, rfl⟩ := by simpa using h
      have h1 := length_lt_of_scanParams hp
      have h2 := length_scanName_le s
      omega

/-- The beginnings of the library's own elements, after the opening bracket. -/
def ownStarts : List (List Char) := [(auditId ++ " ").toList, (metricId ++ " ").toList]

/-- Whether the text after an opening bracket begins an element of the library's own. -/
def startsOwn (s : List Char) : Bool := ownStarts.any fun start => start.isPrefixOf s

/-- What follows the opening bracket of the next element, if there is one.  A space may stand in
front of an element of the library's own, once an element has been `found`. -/
def opening? (found : Bool) (s : List Char) : Option (List Char) :=
  match s with
  | '[' :: r => some r
  | ' ' :: '[' :: r => if found && startsOwn r then some r else none
  | _ => none

theorem length_lt_of_opening? {found : Bool} {s r : List Char} (h : opening? found s = some r) :
    r.length < s.length := by
  unfold opening? at h
  split at h
  · obtain rfl := by simpa using h
    simp
  · split at h
    · obtain rfl := by simpa using h
      simp only [List.length_cons]
      omega
    · simp at h
  · simp at h

/-- Reads elements as long as there are any. -/
def scanElements (found : Bool) (s : List Char) : Except ScanFault (List Element × List Char) :=
  match _ho : opening? found s with
  | none => .ok ([], s)
  | some r =>
    match _he : scanElement r with
    | .error e => .error e
    | .ok (e, t) =>
      match scanElements true t with
      | .error e => .error e
      | .ok (es, rest) => .ok (e :: es, rest)
  termination_by s.length
  decreasing_by
    have h1 := length_lt_of_opening? _ho
    have h2 := length_lt_of_scanElement _he
    omega

/-- The elements at the front of a text and what follows them. -/
def scanData (s : List Char) : Except ScanFault (List Element × List Char) := scanElements false s

end Logwire.Line
