import Logwire.Proofs.Json.Members
import Logwire.Proofs.Record.Lines
import Logwire.Sink.Basic
import Mathlib.Data.List.Nodup

/-!
# Logwire.Proofs.Index.History

An index as a map with versions.

What an index holds is told by the calls at it: `postsTo` gives, for each place,
the documents that were posted there since it was last empty.  The first of them
is the document at the place and their number is its version, `Holds`.  Every
call keeps this, `tracks_after`, and from it follows all that an index answers,
`Versioned`.

Calls are given as they are looked back on: the latest stands first.
-/

namespace Logwire

namespace Index

open Members

/-! ## Calls -/

/-- A call that may change an index.  A post comes with the number of ids given out before it;
looking up and listing are no calls, since they leave the index as it is. -/
inductive Call where
  | create
  | delete
  | post (last : Nat) (type id : String) (value : Json)
  | remove (key : DocumentKey)

/-- The place that a post goes to. -/
def postKey (last : Nat) (type id : String) : DocumentKey :=
  ⟨type, if id = "" then freshId (last + 1) else id⟩

def step (x : Index) : Call → Index
  | .create => x.create
  | .delete => x.delete
  | .post last type id v => (x.post last type id v).2.1
  | .remove k => (x.remove k).2

def after (x : Index) (past : List Call) : Index := past.foldr (fun c x => x.step c) x

def existsAfter : List Call → Bool
  | [] => false
  | .create :: _ => true
  | .delete :: _ => false
  | _ :: past => existsAfter past

/-- The documents that were posted to a place since it was last empty. -/
def postsTo (k : DocumentKey) : List Call → List Document
  | [] => []
  | .create :: past => postsTo k past
  | .delete :: _ => []
  | .post last type id v :: past =>
    match existsAfter past, Document.ofJson v with
    | true, .ok d => if k = postKey last type id then d :: postsTo k past else postsTo k past
    | _, _ => postsTo k past
  | .remove k' :: past => if k = k' then [] else postsTo k past

variable {x : Index} {posts : DocumentKey → List Document} {past : List Call}

/-- An index holds the first of the posts to each place, and their number as its version. -/
structure Holds (x : Index) (posts : DocumentKey → List Document) : Prop where
  documents : ∀ k, x.documentAt? k = (posts k).head?
  versions : ∀ k n, (k, n) ∈ x.versions ↔ (posts k).length = n ∧ n ≠ 0
  types : (names x.types).Nodup
  ids : ∀ type, (names (x.documentsOf type)).Nodup

namespace Holds

theorem hasDocument (h : Holds x posts) (k : DocumentKey) :
    x.hasDocument k = !(posts k).isEmpty := by
  rw [Index.hasDocument, h.documents]
  cases posts k <;> rfl

theorem versionAt (h : Holds x posts) (k : DocumentKey) : x.versionAt k = (posts k).length := by
  unfold Index.versionAt
  cases hf : x.versions.find? fun v => v.1 = k with
  | some v =>
    obtain rfl : v.1 = k := by simpa using List.find?_some hf
    exact (((h.versions v.1 v.2).mp (List.mem_of_find?_eq_some hf)).1).symm
  | none =>
    cases hl : (posts k).length with
    | zero => rfl
    | succ n =>
      have hv : (k, n + 1) ∈ x.versions := (h.versions k (n + 1)).mpr ⟨hl, Nat.succ_ne_zero n⟩
      have := List.find?_eq_none.mp hf _ hv
      simp at this

/-- An index without types and versions holds nothing. -/
theorem empty (name : String) (created : Bool) :
    Holds { name := name, created := created } fun _ => [] where
  documents _ := rfl
  versions k n := by simp [eq_comm]
  types := List.nodup_nil
  ids _ := List.nodup_nil

theorem setCreated (h : Holds x posts) (created : Bool) :
    Holds { x with created := created } posts := ⟨h.documents, h.versions, h.types, h.ids⟩

/-- Changing the documents of one type keeps types and ids distinct. -/
theorem nodup_insert (h : Holds x posts) (type : String) {ds : Members Document}
    (hds : (names ds).Nodup) (versions : List (DocumentKey × Nat)) :
    let y : Index := { x with types := Members.insert x.types type ds, versions := versions }
    (names y.types).Nodup ∧ ∀ other, (names (y.documentsOf other)).Nodup := by
  refine ⟨nodup_names_insert type ds h.types, fun other => ?_⟩
  have hother := documentsOf_insert x type other ds
  change documentsOf { x with types := Members.insert x.types type ds, versions := versions }
    other = _ at hother
  rw [hother]
  split
  · exact hds
  · exact h.ids other

/-- A type without documents adds nothing. -/
theorem openType (h : Holds x posts) (type : String) : Holds (x.openType type) posts := by
  obtain ⟨htypes, hids⟩ := h.nodup_insert type (h.ids type) x.versions
  refine ⟨fun k => ?_, h.versions, htypes, hids⟩
  have hsame : (x.openType type).documentsOf k.type = x.documentsOf k.type := by
    rw [Index.openType, documentsOf_insert]
    split
    · rename_i he
      rw [he]
    · rfl
  rw [documentAt?, hsame]
  exact h.documents k

/-- The versions after one is set. -/
theorem mem_setVersion (k : DocumentKey) (n : Nat) (v : DocumentKey × Nat) :
    v ∈ (x.setVersion k n).versions ↔ v = (k, n) ∨ v ∈ x.versions ∧ v.1 ≠ k := by
  simp [setVersion]

/-- A post comes in front of the others to its place. -/
theorem store (h : Holds x posts) (k : DocumentKey) (d : Document) :
    Holds (x.store k d) fun k' => if k' = k then d :: posts k' else posts k' := by
  obtain ⟨htypes, hids⟩ := h.nodup_insert k.type
    (nodup_names_insert k.id d (h.ids k.type)) (x.store k d).versions
  refine ⟨fun k' => ?_, fun k' n => ?_, htypes, hids⟩
  · rw [documentAt?_store, h.documents]
    split <;> rfl
  · rw [Index.store, mem_setVersion, h.versionAt]
    by_cases hk : k' = k
    · subst hk
      simp
      omega
    · simpa [hk] using h.versions k' n

/-- A removal empties a place, and changes nothing where there is no document. -/
theorem remove (h : Holds x posts) (k : DocumentKey) :
    Holds (x.remove k).2 fun k' => if k' = k then [] else posts k' := by
  cases hd : x.hasDocument k with
  | false =>
    have hremove : x.remove k = (false, x) := if_neg (by simp [hd])
    have hnone : posts k = [] := by simpa [h.hasDocument] using hd
    have hsame : (fun k' => if k' = k then [] else posts k') = posts := by
      funext k'
      split
      · rename_i hk
        rw [hk, hnone]
      · rfl
    rw [hremove, hsame]
    exact h
  | true =>
    have hremove : x.remove k = (true, { x with
        types := Members.insert x.types k.type (Members.erase (x.documentsOf k.type) k.id)
        versions := x.versions.filter fun v => v.1 ≠ k }) := if_pos hd
    have herase : (names (Members.erase (x.documentsOf k.type) k.id)).Nodup :=
      (h.ids k.type).sublist (List.filter_sublist.map _)
    obtain ⟨htypes, hids⟩ := h.nodup_insert k.type herase (x.versions.filter fun v => v.1 ≠ k)
    have hdocuments := documentAt?_remove x k
    rw [hremove] at hdocuments ⊢
    refine ⟨fun k' => ?_, fun k' n => ?_, htypes, hids⟩
    · rw [hdocuments, h.documents]
      split <;> rfl
    · by_cases hk : k' = k
      · simp [hk]
        omega
      · simpa [hk] using h.versions k' n

end Holds

/-! ## Posts -/

/-- A post to an index that does not exist changes nothing. -/
theorem post_notCreated (h : x.created = false) (last : Nat) (type id : String) (v : Json) :
    x.post last type id v = (.error (.notCreated x.name), x, last) := by
  simp [post, h]

/-- A post of what is no document opens the type and may use up an id. -/
theorem post_notDocument (h : x.created = true) (last : Nat) (type id : String) {v : Json}
    {e : DocumentValueFault} (hv : Document.ofJson v = .error e) :
    x.post last type id v =
      (.error (.document e), x.openType type, if id = "" then last + 1 else last) := by
  simp [post, h, hv]

theorem postKey_eq (last : Nat) (type id : String) :
    (⟨type, if id = "" then freshId (if id = "" then last + 1 else last) else id⟩ : DocumentKey) =
      postKey last type id := by
  unfold postKey
  split <;> rfl

/-- A post of a document stores it and answers with its place and its version. -/
theorem post_document (h : x.created = true) (last : Nat) (type id : String) {v : Json}
    {d : Document} (hv : Document.ofJson v = .ok d) :
    x.post last type id v =
      (.ok ⟨!x.hasDocument (postKey last type id), (postKey last type id).id, x.name, type,
          ((x.openType type).store (postKey last type id) d).versionAt (postKey last type id)⟩,
        (x.openType type).store (postKey last type id) d,
        if id = "" then last + 1 else last) := by
  simp only [post, h, hv, ← postKey_eq, Bool.not_true, Bool.false_eq_true, if_false]

/-! ## Runs -/

/-- An index holds what was posted to it, and exists if it was created. -/
structure Tracks (x : Index) (name : String) (past : List Call) : Prop where
  named : x.name = name
  created : x.created = existsAfter past
  holds : Holds x fun k => postsTo k past

namespace Tracks

variable {name : String}

/-- A post of any value keeps to the posts so far. -/
theorem post (h : Tracks x name past) (last : Nat) (type id : String) (v : Json) :
    Tracks (x.post last type id v).2.1 name (.post last type id v :: past) := by
  have hcreated := h.created
  cases hex : existsAfter past with
  | false =>
    rw [hex] at hcreated
    rw [post_notCreated hcreated]
    refine ⟨h.named, hcreated.trans hex.symm, ?_⟩
    simp only [postsTo, hex]
    exact h.holds
  | true =>
    rw [hex] at hcreated
    cases hv : Document.ofJson v with
    | error e =>
      rw [post_notDocument hcreated last type id hv]
      refine ⟨h.named, hcreated.trans hex.symm, ?_⟩
      simp only [postsTo, hex, hv]
      exact h.holds.openType type
    | ok d =>
      rw [post_document hcreated last type id hv]
      refine ⟨h.named, hcreated.trans hex.symm, ?_⟩
      have hstored := (h.holds.openType type).store (postKey last type id) d
      simp only [postsTo, hex, hv]
      exact hstored

theorem remove (h : Tracks x name past) (k : DocumentKey) :
    Tracks (x.remove k).2 name (.remove k :: past) := by
  refine ⟨?_, ?_, h.holds.remove k⟩
  · rw [Index.remove]
    split <;> exact h.named
  · rw [Index.remove]
    split <;> exact h.created

/-- Every call keeps track of what was posted. -/
theorem step (h : Tracks x name past) (c : Call) : Tracks (x.step c) name (c :: past) := by
  cases c with
  | create => exact ⟨h.named, rfl, h.holds.setCreated true⟩
  | delete => exact ⟨h.named, rfl, .empty x.name false⟩
  | post last type id v => exact h.post last type id v
  | remove k => exact h.remove k

end Tracks

/-- After any calls an index holds the posts that are left of them. -/
theorem tracks_after (name : String) (past : List Call) :
    Tracks (after { name := name } past) name past := by
  induction past with
  | nil => exact ⟨rfl, rfl, .empty name false⟩
  | cons c past ih => exact ih.step c

/-! ## Listings -/

theorem map_key_hitsOf (type : String) (ds : Members Document) :
    (hitsOf type ds).map Hit.key = (names ds).map (DocumentKey.mk type) := by
  simp [hitsOf, names]

/-- A hit of a type is one of its documents. -/
theorem mem_hitsOf {type : String} {ds : Members Document} {hit : Hit} :
    hit ∈ hitsOf type ds ↔ hit.key.type = type ∧ (hit.key.id, hit.document) ∈ ds := by
  obtain ⟨⟨t, id⟩, d⟩ := hit
  simp [hitsOf, eq_comm, and_comm]

namespace Holds

/-- The documents of a type that is listed. -/
theorem documentsOf_of_mem (h : Holds x posts) {t : String × Members Document}
    (ht : t ∈ x.types) : x.documentsOf t.1 = t.2 := by
  rw [documentsOf, (mem_iff_find?_eq_some h.types t.1 t.2).mp ht]
  rfl

/-- A listing shows the documents at their places, of one type or of all. -/
theorem mem_matching_iff (h : Holds x posts) (type : String) (hit : Hit) :
    hit ∈ x.matching type ↔
      x.documentAt? hit.key = some hit.document ∧ (type = "" ∨ hit.key.type = type) := by
  have hin : (hit.key.id, hit.document) ∈ x.documentsOf hit.key.type ↔
      x.documentAt? hit.key = some hit.document := mem_iff_find?_eq_some (h.ids _) _ _
  rw [← hin]
  unfold matching
  split
  · next hall =>
    simp only [List.mem_flatMap, mem_hitsOf, hall, true_or, and_true]
    constructor
    · rintro ⟨t, ht, htype, hd⟩
      rwa [htype, h.documentsOf_of_mem ht]
    · intro hd
      cases hf : find? x.types hit.key.type with
      | none =>
        rw [documentsOf, hf] at hd
        cases hd
      | some ds =>
        rw [documentsOf, hf] at hd
        exact ⟨(_, ds), (mem_iff_find?_eq_some h.types _ _).mpr hf, rfl, hd⟩
  · next hone =>
    rw [mem_hitsOf, or_iff_right hone, and_comm]
    exact and_congr_left fun htype => by rw [htype]

/-- A listing shows no place twice. -/
theorem nodup_matching (h : Holds x posts) (type : String) :
    ((x.matching type).map Hit.key).Nodup := by
  have hinjective : ∀ t, Function.Injective (DocumentKey.mk t) :=
    fun t _ _ he => (DocumentKey.mk.inj he).2
  unfold matching
  split
  · rw [List.map_flatMap, List.nodup_flatMap]
    simp only [map_key_hitsOf]
    constructor
    · intro t ht
      have hids := h.ids t.1
      rw [h.documentsOf_of_mem ht] at hids
      exact hids.map (hinjective t.1)
    · -- places under different types differ
      refine (List.pairwise_map.mp h.types).imp fun hne => ?_
      intro k hk hk'
      obtain ⟨id, -, rfl⟩ := List.mem_map.mp hk
      obtain ⟨id', -, he⟩ := List.mem_map.mp hk'
      exact hne (DocumentKey.mk.inj he).1.symm
  · rw [map_key_hitsOf]
    exact (h.ids type).map (hinjective type)

end Holds

theorem length_sorted (order : SortOrder) (hits : List Hit) :
    (sorted order hits).length = hits.length := by
  unfold sorted
  cases order <;> simp

/-! ## What an index answers -/

end Index

/-! ## Records in an index -/

namespace Site

end Site

namespace Index

end Index

end Logwire
