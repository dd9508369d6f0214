import Logwire.Proofs.Line.Factorization
import Logwire.Proofs.Line.RoundTrip
import Mathlib.Logic.Relation

/-!
# Logwire.Proofs.Line.ForeignElements

What may be changed in the structured data of a line without a trace.

A line with elements is taken apart down to its pieces, `Dissection`, in one way
only.  Its pieces are `Retouched` when a foreign element is put in front of the
first or behind any of them, or when the space in front of an own element is put
or taken away.  The line of the new pieces has a dissection again, and is read
as the same record: `ofLine_retouched`.
-/

namespace Logwire

open Line Text

namespace Line

/-! ## Foreign elements -/

/-- An element that is none of the library's own, in its form. -/
structure ElementText.IsForeign (e : ElementText) : Prop where
  formed : e.Formed
  name : e.element.id ≠ auditId ∧ e.element.id ≠ metricId

namespace Known

/-- A foreign element leaves what is known as it is. -/
theorem add_of_foreign {e : Element} (he : e.id ≠ auditId ∧ e.id ≠ metricId) (k : Known) :
    k.add e = .ok k := by
  rw [add, if_neg he.1, if_neg he.2]

/-- An element that is none of the own may stand anywhere in a row. -/
theorem ofElements_insert {e : Element} (he : e.id ≠ auditId ∧ e.id ≠ metricId) (k : Known)
    (front behind : List Element) :
    ofElements k (front ++ e :: behind) = ofElements k (front ++ behind) := by
  induction front generalizing k with
  | nil =>
    rw [List.nil_append, ofElements, add_of_foreign he]
    rfl
  | cons a front ih =>
    rw [List.cons_append, List.cons_append, ofElements, ofElements]
    cases k.add a with
    | error f => rfl
    | ok k' => exact ih k'

end Known

/-- An own element with a parameter begins like one, so that a space may stand in front of it. -/
theorem ElementText.beginsOwn_chars {e : ElementText}
    (hname : e.element.id = auditId ∨ e.element.id = metricId) (hparams : e.params ≠ []) :
    beginsOwn e.chars = true := by
  obtain ⟨p, ps, hps⟩ := List.exists_cons_of_ne_nil hparams
  have hchars : ∃ t, e.chars = '[' :: (e.name ++ ' ' :: t) := by
    rw [chars, hps, List.flatMap_cons, ParamText.chars]
    exact ⟨_, rfl⟩
  obtain ⟨t, ht⟩ := hchars
  have hmem : e.name ++ [' '] ∈ ownStarts := by
    unfold ownStarts
    rcases hname with h | h
    · have hname : e.name = auditId.toList := by rw [← h, element, String.toList_ofList]
      simp [hname]
    · have hname : e.name = metricId.toList := by rw [← h, element, String.toList_ofList]
      simp [hname]
  unfold beginsOwn
  rw [List.any_eq_true]
  refine ⟨_, hmem, ?_⟩
  rw [List.isPrefixOf_iff_prefix, ht]
  exact ⟨t, by simp⟩

/-! ## Retouching -/

/-- A change of the pieces of structured data that leaves no trace. -/
inductive Retouched : List Piece → List Piece → Prop where
  /-- A foreign element is put in front of the first piece or behind any. -/
  | insert (front behind : List Piece) {e : ElementText} (he : e.IsForeign) :
    Retouched (front ++ behind) (front ++ ⟨false, e⟩ :: behind)
  /-- The space in front of an own element with a parameter, which is not the first, is put or
  taken away. -/
  | space {front : List Piece} (behind : List Piece) {p : Piece} (hfront : front ≠ [])
    (hname : p.text.element.id = auditId ∨ p.text.element.id = metricId)
    (hparams : p.text.params ≠ []) :
    Retouched (front ++ p :: behind) (front ++ { p with spaced := !p.spaced } :: behind)

namespace Retouched

variable {ps ps' : List Piece}

theorem ne_nil (h : Retouched ps ps') : ps' ≠ [] := by
  cases h <;> simp

/-- The library's own elements are the same. -/
theorem ofElements_eq (h : Retouched ps ps') (rest : List Char) (k : Known) :
    Known.ofElements k (Factors.mk ps' rest).elements =
      Known.ofElements k (Factors.mk ps rest).elements := by
  unfold Factors.elements
  cases h with
  | insert front behind he =>
    rw [List.map_append, List.map_append, List.map_cons]
    exact Known.ofElements_insert he.name k _ _
  | space behind hfront hname hparams =>
    rw [List.map_append, List.map_append, List.map_cons, List.map_cons]

/-- The new pieces are those of their text. -/
theorem isOf (h : Retouched ps ps') {rest s : List Char} (hne : ps ≠ [])
    (hf : Factors.IsOf false ⟨ps, rest⟩ s) :
    Factors.IsOf false ⟨ps', rest⟩ (Factors.mk ps' rest).chars := by
  obtain ⟨-, hformed, hfirst, hspaced, hrest, hrestSpaced⟩ := hf
  cases h with
  | @insert front behind e he =>
    rw [List.forall_mem_append] at hformed hspaced
    have hfirst : ∀ p ∈ (front ++ ⟨false, e⟩ :: behind).head?, p.spaced = false := by
      cases front with
      | nil => simp
      | cons a front => exact hfirst rfl
    exact {
      chars := rfl
      formed := List.forall_mem_append.mpr ⟨hformed.1,
        List.forall_mem_cons.mpr ⟨he.formed, hformed.2⟩⟩
      first := fun _ => hfirst
      spaced := List.forall_mem_append.mpr ⟨hspaced.1,
        List.forall_mem_cons.mpr ⟨fun hsp => absurd hsp Bool.false_ne_true, hspaced.2⟩⟩
      rest := hrest
      restSpaced := fun _ => hrestSpaced (.inr hne) }
  | @space front behind p hfront hname hparams =>
    rw [List.forall_mem_append, List.forall_mem_cons] at hformed hspaced
    have hfirst : ∀ q ∈ (front ++ { p with spaced := !p.spaced } :: behind).head?,
        q.spaced = false := by
      cases front with
      | nil => contradiction
      | cons a front => exact hfirst rfl
    exact {
      chars := rfl
      formed := List.forall_mem_append.mpr ⟨hformed.1, List.forall_mem_cons.mpr hformed.2⟩
      first := fun _ => hfirst
      spaced := List.forall_mem_append.mpr ⟨hspaced.1, List.forall_mem_cons.mpr
        ⟨fun _ => ElementText.beginsOwn_chars hname hparams, hspaced.2.2⟩⟩
      rest := hrest
      restSpaced := fun _ => hrestSpaced (.inr hne) }

end Retouched

/-! ## Pieces of structured data -/

/-- Structured data with elements is read piece by piece. -/
theorem dataAt_iff {s tail : List Char} {es : List Element} (hes : es ≠ []) :
    DataAt s es tail ↔ ∃ f : Factors, f.IsOf false s ∧ f.elements = es ∧ f.rest = tail := by
  rw [← scanElements_eq_ok_iff]
  constructor
  · intro h
    cases h with
    | nil => contradiction
    | elements hs => exact hs
  · intro h
    obtain ⟨f, hf, rfl, -⟩ := scanElements_eq_ok_iff.mp h
    obtain ⟨pieces, rest⟩ := f
    -- the first piece has no space in front of it
    cases pieces with
    | nil => exact absurd rfl hes
    | cons p ps =>
      obtain ⟨-, hspaced, t, rfl, -⟩ := Factors.isOf_cons_iff.mp hf
      have hunspaced : p.spaced = false := by
        by_contra hsp
        exact absurd (hspaced (by simpa using hsp)).1 Bool.false_ne_true
      have hchars : p.chars ++ t = '[' :: (p.text.name ++ (p.text.params.flatMap ParamText.chars ++
          ']' :: t)) := by
        rw [Piece.chars, hunspaced, ← ElementText.chars_append]
        rfl
      rw [hchars] at h ⊢
      exact .elements h

/-- A text has one reading as data. -/
theorem DataAt.unique {s tail tail' : List Char} {es es' : List Element} (h : DataAt s es tail)
    (h' : DataAt s es' tail') : es = es' ∧ tail = tail' := by
  cases h with
  | nil => cases h' with
    | nil => exact ⟨rfl, rfl⟩
  | elements hs => cases h' with
    | elements hs' => exact Prod.mk.inj (Except.ok.inj (hs.symm.trans hs'))

/-- A line with pieces ends like what follows them, or with the bracket of the last one. -/
theorem Factors.getLast?_chars {f : Factors} (h : f.pieces ≠ []) :
    f.chars.getLast? = some (f.rest.getLast?.getD ']') := by
  have hpiece : ∀ p : Piece, p.chars.getLast? = some ']' := by
    intro p
    have htext : p.text.chars.getLast? = some ']' := by
      simp [ElementText.chars, ← List.append_assoc, List.getLast?_cons]
    unfold Piece.chars
    split
    · rw [List.getLast?_cons, htext]
      rfl
    · exact htext
  obtain ⟨ps, p, hps⟩ := List.eq_nil_or_concat f.pieces |>.resolve_left h
  rw [Factors.chars, hps, List.concat_eq_append, List.flatMap_append, List.getLast?_append,
    List.getLast?_append]
  simp only [List.flatMap_cons, List.flatMap_nil, List.append_nil, hpiece]
  cases f.rest.getLast? <;> rfl

/-! ## Dissections -/

/-- A line taken apart down to the pieces of its structured data: the header, the pieces with what
follows them, and the line breaks at the end. -/
structure Dissection where
  header : Header
  data : Factors
  ending : List Char

namespace Dissection

def text (d : Dissection) : String := String.ofList (d.header.chars ++ d.ending)

def withPieces (d : Dissection) (pieces : List Piece) : Dissection where
  header := { d.header with rest := (Factors.mk pieces d.data.rest).chars }
  data := ⟨pieces, d.data.rest⟩
  ending := d.ending

/-- The dissection is that of a line with elements. -/
structure IsOf (d : Dissection) (whole : String) : Prop where
  text : whole = d.text
  line : lineOf whole = d.header.chars
  formed : d.header.Formed
  data : d.data.IsOf false d.header.rest
  pieces : d.data.pieces ≠ []

variable {d d' : Dissection} {whole : String} {ps : List Piece}

/-- A line has one dissection at most. -/
theorem IsOf.unique (h : d.IsOf whole) (h' : d'.IsOf whole) : d = d' := by
  obtain ⟨header, data, ending⟩ := d
  obtain ⟨header', data', ending'⟩ := d'
  obtain rfl : header = header' :=
    Header.eq_of_chars_eq h.formed h'.formed (h.line.symm.trans h'.line)
  obtain rfl : data = data' := h.data.unique h'.data
  have hending : header.chars ++ ending = header.chars ++ ending' :=
    String.ofList_inj.mp (h.text.symm.trans h'.text)
  rw [List.append_cancel_left hending]

/-- A line with elements has a dissection. -/
theorem exists_isOf {l : Layout} (hl : l.IsOf (lineOf whole)) (hne : l.elements ≠ []) :
    ∃ d : Dissection, d.IsOf whole ∧ d.header = l.header ∧ d.data.elements = l.elements := by
  obtain ⟨ending, hending, -, -⟩ := exists_trimEnd_append isLineBreak whole.toList
  obtain ⟨data, hdata, helements, -⟩ := (dataAt_iff hne).mp hl.data
  refine ⟨⟨l.header, data, ending⟩, ⟨?_, hl.chars, hl.formed, hdata, ?_⟩, rfl, helements⟩
  · rw [Dissection.text, ← hl.chars, lineOf, ← hending, String.ofList_toList]
  · rintro hnil
    rw [← helements, Factors.elements, hnil] at hne
    exact hne rfl

theorem withPieces_self (h : d.header.rest = d.data.chars) : d.withPieces d.data.pieces = d := by
  have hrest : (Factors.mk d.data.pieces d.data.rest).chars = d.header.rest := h.symm
  rw [withPieces, hrest]

/-- The last character of a line with elements. -/
theorem getLast?_chars (hdata : d.header.rest = d.data.chars) (hps : d.data.pieces ≠ []) :
    d.header.chars.getLast? = some (d.data.rest.getLast?.getD ']') := by
  have hrest := Factors.getLast?_chars hps
  rw [← hdata] at hrest
  simp [Header.chars, List.getLast?_cons, hrest]

/-- With other pieces the line ends as before, so that the same line breaks are trimmed. -/
theorem IsOf.line_withPieces (h : d.IsOf whole) (hps : ps ≠ []) :
    lineOf (d.withPieces ps).text = (d.withPieces ps).header.chars := by
  obtain ⟨ending, hending, hbreaks, hlast⟩ := exists_trimEnd_append isLineBreak whole.toList
  have hline : trimEnd isLineBreak whole.toList = d.header.chars := h.line
  rw [hline] at hending hlast
  obtain rfl : d.ending = ending := by
    have hwhole := h.text
    rw [Dissection.text, ← String.toList_inj, String.toList_ofList] at hwhole
    exact List.append_cancel_left (hwhole.symm.trans hending)
  rw [getLast?_chars h.data.chars h.pieces] at hlast
  rw [lineOf, Dissection.text, String.toList_ofList]
  refine trimEnd_append_of_forall hbreaks ?_
  rw [getLast?_chars (d := d.withPieces ps) rfl hps]
  exact hlast

/-- **A retouched line is read as before.** -/
theorem IsOf.ofLine_withPieces (h : d.IsOf whole) (hps : Retouched d.data.pieces ps) {r : Record}
    (hr : Record.ofLine whole = .ok r) :
    (d.withPieces ps).IsOf (d.withPieces ps).text ∧
      Record.ofLine (d.withPieces ps).text = .ok r := by
  have hdata := hps.isOf h.pieces h.data
  have hline := h.line_withPieces hps.ne_nil
  have hformed : (d.withPieces ps).header.Formed := ⟨h.formed.priority, h.formed.version,
    h.formed.timestamp, h.formed.hostName, h.formed.application, h.formed.process,
    h.formed.messageId⟩
  refine ⟨⟨rfl, hline, hformed, hdata, hps.ne_nil⟩, ?_⟩
  obtain ⟨⟨header, es, tail⟩, k, hl, hk, rfl⟩ := Record.ofLine_eq_ok_iff.mp hr
  have helements : ∀ qs : List Piece, qs ≠ [] → (Factors.mk qs d.data.rest).elements ≠ [] :=
    fun qs hqs => by simpa [Factors.elements] using hqs
  obtain rfl : header = d.header :=
    Header.eq_of_chars_eq hl.formed h.formed (hl.chars.symm.trans h.line)
  have hold := (dataAt_iff (helements _ h.pieces)).mpr ⟨d.data, h.data, rfl, rfl⟩
  obtain ⟨rfl, rfl⟩ := hl.data.unique hold
  have hnew := (dataAt_iff (helements _ hps.ne_nil)).mpr ⟨_, hdata, rfl, rfl⟩
  have hknown := (hps.ofElements_eq d.data.rest {}).trans hk
  refine Record.ofLine_eq_ok_iff.mpr ⟨⟨(d.withPieces ps).header, _, _⟩, k, ?_, hknown, rfl⟩
  exact ⟨hline, hformed, hl.priority, hl.timestamp, hnew, exists_ofElements_iff.mp ⟨k, hknown⟩,
    hl.tail⟩

end Dissection

end Line

namespace Record

/-- **Foreign elements and spaces leave no trace.**  A line with elements has one dissection, and
however often its pieces are retouched, their line is read as the same record. -/
theorem ofLine_retouched {whole : String} {r : Record} {l : Layout} (hr : ofLine whole = .ok r)
    (hl : l.IsOf (lineOf whole)) (hne : l.elements ≠ []) :
    ∃ d : Dissection, d.IsOf whole ∧ (∀ d' : Dissection, d'.IsOf whole → d' = d) ∧
      d.header = l.header ∧ d.data.elements = l.elements ∧
      ∀ ps, Relation.ReflTransGen Retouched d.data.pieces ps →
        ofLine (d.withPieces ps).text = .ok r := by
  obtain ⟨d, hd, hheader, helements⟩ := Dissection.exists_isOf hl hne
  refine ⟨d, hd, fun d' hd' => hd'.unique hd, hheader, helements, fun ps hps => ?_⟩
  have hread : (d.withPieces ps).IsOf (d.withPieces ps).text ∧
      ofLine (d.withPieces ps).text = .ok r := by
    induction hps with
    | refl =>
      rw [Dissection.withPieces_self hd.data.chars, ← hd.text]
      exact ⟨hd, hr⟩
    | tail _ hstep ih => exact ih.1.ofLine_withPieces hstep ih.2
  exact hread.2

/-- A foreign element whose value is a closing bracket. -/
def bracketElement : ElementText := ⟨"y@2".toList, [⟨['k'], ['\\', ']', '"'], [']']⟩]⟩

theorem isForeign_bracketElement : bracketElement.IsForeign where
  formed := by
    have hvalue : Spells ['\\', ']', '"'] [']'] := .pair rfl .close
    refine ⟨by decide, ?_⟩
    simp only [bracketElement, List.forall_mem_singleton]
    exact ⟨by decide, hvalue⟩
  name := by decide

/-- A foreign element in front of the others leaves the record as it was. -/
theorem ofLine_retouched_foreignLine : ∃ r, ofLine foreignLine = .ok r ∧
    foreignLayout.IsOf (lineOf foreignLine) ∧ foreignLayout.elements ≠ [] ∧
    ∃ d : Dissection, d.IsOf foreignLine ∧
      ofLine (d.withPieces (⟨false, bracketElement⟩ :: d.data.pieces)).text = .ok r ∧
      ofLine (d.withPieces (d.data.pieces ++ [⟨false, bracketElement⟩])).text = .ok r := by
  have hl := isOf_foreignLayout
  have hr := ofLine_eq_ok_iff.mpr ⟨_, _, hl, known_foreignElements, rfl⟩
  have hne : foreignLayout.elements ≠ [] := by decide
  obtain ⟨d, hd, -, -, -, hread⟩ := ofLine_retouched hr hl hne
  have hfront : Retouched d.data.pieces (⟨false, bracketElement⟩ :: d.data.pieces) :=
    .insert [] d.data.pieces isForeign_bracketElement
  have hbehind : Retouched d.data.pieces (d.data.pieces ++ [⟨false, bracketElement⟩]) := by
    have := Retouched.insert d.data.pieces [] isForeign_bracketElement
    rwa [List.append_nil] at this
  exact ⟨_, hr, hl, hne, d, hd, hread _ (.single hfront), hread _ (.single hbehind)⟩

end Record

end Logwire
