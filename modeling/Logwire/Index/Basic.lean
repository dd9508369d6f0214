import Logwire.Envelope.Pagination
import Logwire.Index.Document
import Logwire.Text.Quoted

/-!
# Logwire.Index.Basic

An index of documents under types and ids.

The index has to be created before documents can be posted to it.  A document
without an id gets a fresh one.  Each document has a version, the number of
posts to it since it was last absent.  A listing shows the documents of a type,
or of all types, in the order of their ids, a page at a time.

* `documentAt?_store`, `documentAt?_remove` — what a post and a removal do to the
  documents under all types and ids.
-/

namespace Logwire

/-! ## State -/

/-- A place in an index: a type and an id. -/
structure DocumentKey where
  type : String
  id : String
  deriving DecidableEq, Repr

/-- An index: its types with their documents, and the versions of the documents. -/
structure Index where
  name : String
  created : Bool := false
  types : Members (Members Document) := []
  versions : List (DocumentKey × Nat) := []

namespace Index

/-- Why an index refuses. -/
inductive Fault where
  | notCreated (index : String)
  | notFound (id : String)
  | document (fault : DocumentValueFault)
  deriving DecidableEq, Repr

def Fault.message : Fault → String
  | .notCreated index => "Index does not exist: " ++ index
  | .notFound id => "GetById: not found: " ++ id
  | .document e => e.message

/-! ## Looking up -/

def documentsOf (x : Index) (type : String) : Members Document :=
  (Members.find? x.types type).getD []

def documentAt? (x : Index) (k : DocumentKey) : Option Document :=
  Members.find? (x.documentsOf k.type) k.id

/-- The version of the document at a place, zero when there is none. -/
def versionAt (x : Index) (k : DocumentKey) : Nat :=
  ((x.versions.find? fun v => v.1 = k).map Prod.snd).getD 0

def hasType (x : Index) (type : String) : Bool := Members.has x.types type

/-- Whether there is a document at a place. -/
def hasDocument (x : Index) (k : DocumentKey) : Bool := (x.documentAt? k).isSome

def get (x : Index) (k : DocumentKey) : Except Fault Document :=
  match x.documentAt? k with
  | some d => .ok d
  | none => .error (.notFound k.id)

/-! ## Changing -/

def create (x : Index) : Index := { x with created := true }

/-- Delete the index with all its documents. -/
def delete (x : Index) : Index := { x with created := false, types := [], versions := [] }

/-- Take up a type. -/
def openType (x : Index) (type : String) : Index :=
  { x with types := Members.insert x.types type (x.documentsOf type) }

/-- Set the version of the document at a place. -/
def setVersion (x : Index) (k : DocumentKey) (version : Nat) : Index :=
  { x with versions := (k, version) :: x.versions.filter fun v => v.1 ≠ k }

/-- Put a document in its place and count the post. -/
def store (x : Index) (k : DocumentKey) (d : Document) : Index :=
  { x with types := Members.insert x.types k.type (Members.insert (x.documentsOf k.type) k.id d) }
    |>.setVersion k (x.versionAt k + 1)

/-- The answer to a post. -/
structure PostAnswer where
  created : Bool
  id : String
  index : String
  type : String
  version : Nat
  deriving DecidableEq, Repr

def freshId (n : Nat) : String := String.ofList (Text.hexFixed 32 n)

/-- Post a value as a document.  An empty id is replaced by the next fresh one, of which `last`
have been given out.  The type is taken up even when the value is no document. -/
def post (x : Index) (last : Nat) (type id : String) (v : Json) :
    Except Fault PostAnswer × Index × Nat :=
  if !x.created then (.error (.notCreated x.name), x, last)
  else
    let count := if id = "" then last + 1 else last
    let k : DocumentKey := ⟨type, if id = "" then freshId count else id⟩
    let opened := x.openType type
    match Document.ofJson v with
    | .error e => (.error (.document e), opened, count)
    | .ok d =>
      let stored := opened.store k d
      (.ok ⟨!x.hasDocument k, k.id, x.name, type, stored.versionAt k⟩, stored, count)

def remove (x : Index) (k : DocumentKey) : Bool × Index :=
  if x.hasDocument k then
    (true,
      { x with
        types := Members.insert x.types k.type (Members.erase (x.documentsOf k.type) k.id)
        versions := x.versions.filter fun v => v.1 ≠ k })
  else (false, x)

/-! ## Listing -/

/-- A document in a listing. -/
structure Hit where
  key : DocumentKey
  document : Document

def hitsOf (type : String) (documents : Members Document) : List Hit :=
  documents.map fun d => ⟨⟨type, d.1⟩, d.2⟩

/-- The documents of a type, or of all types when it is empty. -/
def matching (x : Index) (type : String) : List Hit :=
  if type = "" then x.types.flatMap fun t => hitsOf t.1 t.2 else hitsOf type (x.documentsOf type)

/-- The order of a listing: by id, then by type. -/
def keyLe (a b : DocumentKey) : Bool :=
  if a.id = b.id then decide (a.type ≤ b.type) else decide (a.id ≤ b.id)

def sorted (order : SortOrder) (hits : List Hit) : List Hit :=
  let ascending := hits.mergeSort fun a b => keyLe a.key b.key
  match order with
  | .ascending => ascending
  | .descending => ascending.reverse

/-- A bound of a window over `length` items.  A negative one counts from the end. -/
def clampBound (length : Nat) (bound : Int) : Nat :=
  if bound < 0 then (bound + length).toNat else min bound.toNat length

/-- The items of a list between two bounds. -/
def window {α : Type} (xs : List α) (start stop : Int) : List α :=
  let first := clampBound xs.length start
  (xs.drop first).take (clampBound xs.length stop - first)

/-- A page of a listing and the length of the whole. -/
structure Listing where
  total : Nat
  hits : List Hit

/-- A page of the documents of a type. -/
def list (x : Index) (type : String) (p : Pagination) : Listing :=
  let hits := sorted p.order (x.matching type)
  ⟨hits.length, window hits p.startIndex p.endIndex⟩

/-! ## Laws -/

/-- Putting documents under a type leaves those of other types alone. -/
theorem documentsOf_insert (x : Index) (type other : String) (ds : Members Document) :
    ({ x with types := Members.insert x.types type ds } : Index).documentsOf other
      = if other = type then ds else x.documentsOf other := by
  unfold documentsOf
  rw [Members.find?_insert]
  split <;> rfl

/-- What a post does to the documents at all places. -/
theorem documentAt?_store (x : Index) (k k' : DocumentKey) (d : Document) :
    (x.store k d).documentAt? k' = if k' = k then some d else x.documentAt? k' := by
  have h : (x.store k d).documentsOf k'.type
      = if k'.type = k.type then Members.insert (x.documentsOf k.type) k.id d
        else x.documentsOf k'.type := documentsOf_insert x _ _ _
  unfold documentAt?
  rw [h]
  obtain ⟨t, i⟩ := k
  obtain ⟨t', i'⟩ := k'
  by_cases ht : t' = t
  · subst ht
    simp [Members.find?_insert]
  · simp [ht]

/-- What a removal does to the documents at all places. -/
theorem documentAt?_remove (x : Index) (k k' : DocumentKey) :
    (x.remove k).2.documentAt? k' = if k' = k then none else x.documentAt? k' := by
  unfold remove
  by_cases hd : x.hasDocument k = true
  · simp only [hd, if_true]
    have h := documentsOf_insert x k.type k'.type (Members.erase (x.documentsOf k.type) k.id)
    unfold documentAt?
    simp only [documentsOf] at h ⊢
    rw [h]
    obtain ⟨t, i⟩ := k
    obtain ⟨t', i'⟩ := k'
    by_cases ht : t' = t
    · subst ht
      by_cases hi : i' = i
      · subst hi
        simp [Members.find?_erase_self]
      · simp [hi, Members.find?_erase_of_ne _ hi]
    · simp [ht]
  · simp only [hd]
    have hn : x.documentAt? k = none := by simpa [hasDocument] using hd
    by_cases hk : k' = k
    · subst hk
      simpa using hn
    · simp [hk]

end Index

end Logwire
