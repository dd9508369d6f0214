import Logwire.Proofs.Index.Pages

/-!
# Logwire.Proofs.Index.Refusals

Posts that an index refuses: it does not exist, or the value is no document.

A refused post adds nothing to what was posted to any place.  Whatever calls
follow, the index then answers as if the post had not been made, `Alike`, but
for one question: in an index that exists the type of the post counts as used
from then on, until the index is deleted.  So the post goes unnoticed exactly if
the index does not exist or has the type already: `unnoticed_iff`.
-/

namespace Logwire

namespace Index

open Members

/-! ## Types -/

/-- Whether a type was used since the index was last deleted.  A post to an index that exists uses
its type, also if the value is no document. -/
def usesType (type : String) : List Call → Bool
  | [] => false
  | .create :: past => usesType type past
  | .delete :: _ => false
  | .post _ t _ _ :: past => existsAfter past && t = type || usesType type past
  | .remove _ :: past => usesType type past

theorem hasType_insert (x : Index) (type other : String) (ds : Members Document) :
    ({ x with types := Members.insert x.types type ds } : Index).hasType other =
      (type = other || x.hasType other) := by
  unfold hasType has
  rw [find?_insert]
  by_cases h : other = type
  · simp [h]
  · simp [h, Ne.symm h]

theorem hasType_of_hasDocument {x : Index} {k : DocumentKey} (h : x.hasDocument k = true) :
    x.hasType k.type = true := by
  unfold hasType has
  cases hf : find? x.types k.type with
  | some ds => rfl
  | none =>
    rw [hasDocument, documentAt?, documentsOf, hf] at h
    cases h

/-- A post makes its type exist even if it is refused, unless the index does not exist. -/
theorem hasType_post (x : Index) (last : Nat) (t id : String) (v : Json) (type : String) :
    (x.post last t id v).2.1.hasType type = (x.created && t = type || x.hasType type) := by
  cases hc : x.created with
  | false =>
    rw [post_notCreated hc]
    rfl
  | true =>
    have hopen : (x.openType t).hasType type = (t = type || x.hasType type) := hasType_insert ..
    cases hv : Document.ofJson v with
    | error e =>
      rw [post_notDocument hc last t id hv]
      exact hopen
    | ok d =>
      have hstore : ((x.openType t).store (postKey last t id) d).hasType type =
          (t = type || (x.openType t).hasType type) := hasType_insert ..
      rw [post_document hc last t id hv, hstore, hopen]
      simp

/-- A removal leaves the types as they are. -/
theorem hasType_remove (x : Index) (k : DocumentKey) (type : String) :
    (x.remove k).2.hasType type = x.hasType type := by
  unfold remove
  split
  · next hd =>
    have hinsert := hasType_insert x k.type type (Members.erase (x.documentsOf k.type) k.id)
    refine hinsert.trans ?_
    by_cases ht : k.type = type
    · simp [← ht, hasType_of_hasDocument hd]
    · simp [ht]
  · rfl

/-- An index has the types that were used. -/
theorem hasType_after (name : String) (past : List Call) (type : String) :
    (after { name := name } past).hasType type = usesType type past := by
  induction past with
  | nil => rfl
  | cons c past ih =>
    cases c with
    | create => exact ih
    | delete => rfl
    | post last t id v =>
      rw [usesType, ← ih, ← (tracks_after name past).created]
      exact hasType_post ..
    | remove k => exact (hasType_remove ..).trans ih

/-- A type stays used until the index is deleted. -/
theorem usesType_append {type : String} {past : List Call} (h : usesType type past = true)
    {later : List Call} (hlater : .delete ∉ later) : usesType type (later ++ past) = true := by
  induction later with
  | nil => exact h
  | cons c later ih =>
    obtain ⟨hc, hlater⟩ := not_or.mp (List.mem_cons.not.mp hlater)
    have ih := ih hlater
    cases c with
    | create => exact ih
    | delete => exact absurd rfl hc
    | post last t id v => rw [List.cons_append, usesType, ih, Bool.or_true]
    | remove k => exact ih

/-! ## Later calls -/

theorem after_append (x : Index) (later past : List Call) :
    after x (later ++ past) = after (after x past) later := List.foldr_append

/-- What later calls find of the past is whether the index exists and what was posted. -/
theorem existsAfter_append_congr {past past' : List Call}
    (h : existsAfter past = existsAfter past') (later : List Call) :
    existsAfter (later ++ past) = existsAfter (later ++ past') := by
  induction later with
  | nil => exact h
  | cons c later ih =>
    cases c with
    | create => rfl
    | delete => rfl
    | post last t id v => exact ih
    | remove k => exact ih

/-- Histories with the same posts to a place keep them the same whatever follows. -/
theorem postsTo_append_congr {past past' : List Call} (he : existsAfter past = existsAfter past')
    {k : DocumentKey} (hp : postsTo k past = postsTo k past') (later : List Call) :
    postsTo k (later ++ past) = postsTo k (later ++ past') := by
  induction later with
  | nil => exact hp
  | cons c later ih =>
    cases c with
    | create => exact ih
    | delete => rfl
    | post last t id v =>
      rw [List.cons_append, List.cons_append, postsTo, postsTo, existsAfter_append_congr he, ih]
    | remove k' => rw [List.cons_append, List.cons_append, postsTo, postsTo, ih]

/-! ## Answers -/

/-- Two indices answer alike all that can be asked of them, but for their types. -/
structure Alike (x y : Index) : Prop where
  created : x.created = y.created
  get : ∀ k, x.get k = y.get k
  hasDocument : ∀ k, x.hasDocument k = y.hasDocument k
  list : ∀ type p, x.list type p = y.list type p
  post : ∀ last type id v, (x.post last type id v).1 = (y.post last type id v).1
  remove : ∀ k, (x.remove k).1 = (y.remove k).1

/-- Indices that hold the same posts answer alike. -/
theorem Holds.alike {x y : Index} {posts : DocumentKey → List Document} (hx : Holds x posts)
    (hy : Holds y posts) (hname : x.name = y.name) (hcreated : x.created = y.created) :
    Alike x y := by
  have hhas : ∀ k, x.hasDocument k = y.hasDocument k := fun k => by
    rw [hx.hasDocument, hy.hasDocument]
  have hget : ∀ k, x.get k = y.get k := fun k => by
    rw [Index.get, Index.get, hx.documents, hy.documents]
  refine ⟨hcreated, hget, hhas, fun type p => ?_, fun last type id v => ?_, fun k => ?_⟩
  · rw [Index.list, Index.list, (hx.isListing_sorted type p.order).unique
      (hy.isListing_sorted type p.order) hget]
  · cases hc : y.created with
    | false => rw [post_notCreated hc, post_notCreated (hcreated.trans hc), hname]
    | true =>
      have hc' := hcreated.trans hc
      cases hv : Document.ofJson v with
      | error e => rw [post_notDocument hc last type id hv, post_notDocument hc' last type id hv]
      | ok d =>
        have hstored := (hx.openType type).store (postKey last type id) d
        have hstored' := (hy.openType type).store (postKey last type id) d
        rw [post_document hc last type id hv, post_document hc' last type id hv, hhas, hname,
          hstored.versionAt, hstored'.versionAt]
  · rw [Index.remove, Index.remove, hhas]
    split <;> rfl

/-! ## Refused posts -/

/-- A post is refused if the index does not exist or the value is no document. -/
theorem post_eq_error_iff {x : Index} {last : Nat} {type id : String} {v : Json} :
    (∃ e, (x.post last type id v).1 = .error e) ↔
      x.created = false ∨ ∃ e, Document.ofJson v = .error e := by
  cases hc : x.created with
  | false => simp [post_notCreated hc]
  | true =>
    cases hv : Document.ofJson v with
    | error e => simp [post_notDocument hc last type id hv]
    | ok d => simp [post_document hc last type id hv]

/-- A refused post is none. -/
theorem postsTo_refused {past : List Call} {v : Json}
    (h : existsAfter past = false ∨ ∃ e, Document.ofJson v = .error e) (last : Nat)
    (type id : String) (k : DocumentKey) :
    postsTo k (.post last type id v :: past) = postsTo k past := by
  rw [postsTo]
  rcases h with h | ⟨e, h⟩
  · rw [h]
  · rw [h]
    cases existsAfter past <;> rfl

/-- What a post adds to the types used later. -/
theorem usesType_append_post {past : List Call} (last : Nat) (t id : String) (v : Json)
    (type : String) (later : List Call) :
    usesType type (later ++ .post last t id v :: past) = true ↔
      usesType type (later ++ past) = true ∨
        existsAfter past = true ∧ t = type ∧ .delete ∉ later := by
  have he : existsAfter (.post last t id v :: past) = existsAfter past := rfl
  induction later with
  | nil => simp [usesType, or_comm]
  | cons c later ih =>
    cases c with
    | create => simpa [usesType] using ih
    | delete => simp [usesType]
    | post last' t' id' v' =>
      simp only [List.cons_append, usesType, existsAfter_append_congr he, Bool.or_eq_true, ih]
      simp [or_assoc]
    | remove k => simpa [usesType] using ih

/-- After a refused post every later run ends in an index that answers as without it. -/
theorem alike_refused (name : String) {past : List Call} {v : Json}
    (h : existsAfter past = false ∨ ∃ e, Document.ofJson v = .error e) (last : Nat)
    (type id : String) (later : List Call) :
    Alike (after { name := name } (later ++ .post last type id v :: past))
      (after { name := name } (later ++ past)) := by
  have he : existsAfter (.post last type id v :: past) = existsAfter past := rfl
  have htracks := tracks_after name (later ++ past)
  have htracks' := tracks_after name (later ++ .post last type id v :: past)
  have hexists := existsAfter_append_congr he later
  have hholds := htracks'.holds
  simp only [postsTo_append_congr he (postsTo_refused h last type id _) later] at hholds
  exact hholds.alike htracks.holds (htracks'.named.trans htracks.named.symm)
    (htracks'.created.trans (hexists.trans htracks.created.symm))

/-- No later call or question tells the two indices apart. -/
def Unnoticed (x y : Index) : Prop := ∀ later : List Call,
  Alike (after x later) (after y later) ∧
    ∀ type, (after x later).hasType type = (after y later).hasType type

/-- **A refused post leaves the index as it was**, whatever is called and asked later, but for its
type, which an index that exists takes up. -/
theorem unnoticed_iff (name : String) (past : List Call) {last : Nat} {type id : String}
    {v : Json} {e : Fault}
    (h : ((after { name := name } past).post last type id v).1 = .error e) :
    let x := after { name := name } past
    let y := x.step (.post last type id v)
    (∀ later, Alike (after y later) (after x later) ∧
      ∀ t, (after y later).hasType t = true ↔
        (after x later).hasType t = true ∨ x.created = true ∧ type = t ∧ .delete ∉ later) ∧
    (Unnoticed y x ↔ x.created = false ∨ x.hasType type = true) := by
  intro x y
  have hcreated : x.created = existsAfter past := (tracks_after name past).created
  have hrefused : existsAfter past = false ∨ ∃ e, Document.ofJson v = .error e := by
    rw [← hcreated]
    exact post_eq_error_iff.mp ⟨e, h⟩
  have hx : ∀ later, after x later = after { name := name } (later ++ past) :=
    fun later => (after_append _ later past).symm
  have hy : ∀ later, after y later =
      after { name := name } (later ++ .post last type id v :: past) :=
    fun later => (after_append _ later (.post last type id v :: past)).symm
  have halike : ∀ later, Alike (after y later) (after x later) := by
    intro later
    rw [hx, hy]
    exact alike_refused name hrefused last type id later
  have htypes : ∀ later t, (after y later).hasType t = true ↔
      (after x later).hasType t = true ∨ x.created = true ∧ type = t ∧ .delete ∉ later := by
    intro later t
    rw [hx, hy, hasType_after, hasType_after, hcreated]
    exact usesType_append_post last type id v t later
  refine ⟨fun later => ⟨halike later, htypes later⟩, fun hunnoticed => ?_, fun hknown later => ?_⟩
  · cases hc : x.created with
    | false => exact .inl rfl
    | true =>
      have hsame : y.hasType type = x.hasType type := (hunnoticed []).2 type
      exact .inr (hsame.symm.trans ((htypes [] type).mpr (.inr ⟨hc, rfl, List.not_mem_nil⟩)))
  · refine ⟨halike later, fun t => ?_⟩
    rw [Bool.eq_iff_iff, htypes]
    refine or_iff_left_of_imp ?_
    rintro ⟨hc, rfl, hlater⟩
    have hused : x.hasType type = true := hknown.resolve_left (by simp [hc])
    rw [hasType_after] at hused
    rw [hx, hasType_after]
    exact usesType_append hused hlater

/-- A number posted to a new index makes its type known. -/
theorem not_unnoticed_number :
    ((after { name := "logs" } [.create]).post 0 "t" "1" (.int 5)).1 =
      .error (.document (.notIterable "int")) ∧
    ¬ Unnoticed ((after { name := "logs" } [.create]).step (.post 0 "t" "1" (.int 5)))
      (after { name := "logs" } [.create]) := by
  have h : ((after { name := "logs" } [.create]).post 0 "t" "1" (.int 5)).1 =
      .error (.document (.notIterable "int")) := rfl
  refine ⟨h, fun hunnoticed => ?_⟩
  have hknown := (unnoticed_iff "logs" [.create] h).2.mp hunnoticed
  revert hknown
  decide

end Index

end Logwire
