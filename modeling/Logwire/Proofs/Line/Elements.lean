import Logwire.Proofs.Line.Header
import Logwire.Proofs.Line.Quotes

/-!
# Logwire.Proofs.Line.Elements

Structured data that was written is read back, whatever follows it.

Reading consumes one written piece at a time, so every statement here has an
arbitrary rest behind the piece: a parameter (`scanParam_append`), a row of
parameters (`scanParams_append`), an element (`scanElements_write`), a row of
elements with a space between (`scanElements_join`).  What the rest may do is
left to the reader of the rest: after the last element reading goes on exactly
as `opening?` says.

Folding line breaks replaces the carriage returns and then the line feeds
(`foldBreaks_eq_replacements`).  It changes the texts in an element and nothing
of its form (`foldBreaks_write`).
-/

namespace Logwire.Line

open Text

/-! ## Names -/

/-- A name of an element or a parameter. -/
def IsName (s : List Char) : Prop := s ≠ [] ∧ ∀ c ∈ s, isNameEnd c = false

instance (s : List Char) : Decidable (IsName s) :=
  decidable_of_iff (s ≠ [] ∧ s.all (fun c => !isNameEnd c) = true) (by simp [IsName])

/-- A name is read up to the first character that ends it. -/
theorem scanName_append_cons {name : List Char} (h : IsName name) {stop : Char}
    (hstop : isNameEnd stop = true) (rest : List Char) :
    scanName (name ++ stop :: rest) = (name, stop :: rest) := by
  have hin : ∀ c ∈ name, (!isNameEnd c) = true := fun c hc => by simp [h.2 c hc]
  obtain ⟨htake, hdrop⟩ := (span_eq_iff (p := fun c => !isNameEnd c)).mpr
    ⟨rfl, hin, (by simp [hstop] : (!isNameEnd stop) = false)⟩
  unfold scanName
  rw [htake, hdrop]

/-! ## Parameters -/

/-- A parameter is read back after its space. -/
theorem scanParam_append {id name value : String} (hn : IsName name.toList) (rest : List Char) :
    scanParam id (name.toList ++ '=' :: '"' :: (escape value.toList ++ '"' :: rest))
      = .ok ((name, value), rest) := by
  have hne : name.toList.isEmpty = false := by simpa using hn.1
  unfold scanParam
  rw [scanName_append_cons hn (by decide)]
  simp only [hne, Bool.false_eq_true, if_false, scanValue_escape, String.ofList_toList]

/-- Parameters with names of their own. -/
def WellNamed (ps : Members String) : Prop :=
  (∀ p ∈ ps, IsName p.1.toList) ∧ (Members.names ps).Nodup

/-- A row of parameters is read back up to its bracket. -/
theorem scanParams_append {id : String} {before ps : Members String} (rest : List Char)
    (hn : ∀ p ∈ ps, IsName p.1.toList) (hd : (Members.names (before ++ ps)).Nodup) :
    scanParams id before (ps.flatMap writeParam ++ ']' :: rest) = .ok (before ++ ps, rest) := by
  induction ps generalizing before with
  | nil =>
    rw [List.flatMap_nil, List.nil_append, List.append_nil, scanParams]
  | cons p ps ih =>
    obtain ⟨name, value⟩ := p
    have hfresh : name ∉ Members.names before := by
      intro hm
      simp only [Members.names, List.map_append, List.map_cons, List.nodup_append] at hd
      exact hd.2.2 name hm name List.mem_cons_self rfl
    have hinsert : Members.insert before name value = before ++ [(name, value)] :=
      Members.insert_of_not_mem hfresh
    have htext : (((name, value) :: ps).flatMap writeParam ++ ']' :: rest)
        = ' ' :: (name.toList ++ '=' :: '"' :: (escape value.toList ++
          '"' :: (ps.flatMap writeParam ++ ']' :: rest))) := by
      simp [writeParam]
    rw [htext, scanParams, scanParam_append (hn _ List.mem_cons_self)]
    simp only [hinsert]
    rw [ih (fun p hp => hn p (List.mem_cons_of_mem _ hp)) (by simpa using hd)]
    simp

/-! ## Elements -/

/-- An element that can be read back: a name, and parameters with names of their own. -/
structure Element.Readable (e : Element) : Prop where
  id : IsName e.id.toList
  params : WellNamed e.params

/-- What of an element follows its opening bracket. -/
def Element.body (e : Element) : List Char := e.id.toList ++ e.params.flatMap writeParam ++ [']']

theorem Element.write_eq (e : Element) : e.write = '[' :: e.body := rfl

/-- An element is read back, whatever follows it. -/
theorem scanElement_body {e : Element} (h : e.Readable) (rest : List Char) :
    scanElement (e.body ++ rest) = .ok (e, rest) := by
  have hne : e.id.toList.isEmpty = false := by simpa using h.id.1
  have htext : e.body ++ rest = e.id.toList ++ (e.params.flatMap writeParam ++ ']' :: rest) := by
    simp [Element.body]
  have hname : scanName (e.id.toList ++ (e.params.flatMap writeParam ++ ']' :: rest))
      = (e.id.toList, e.params.flatMap writeParam ++ ']' :: rest) := by
    cases e.params with
    | nil => exact scanName_append_cons h.id (by decide) rest
    | cons p ps =>
      simp only [List.flatMap_cons, writeParam, List.cons_append]
      exact scanName_append_cons h.id (by decide) _
  have hparams : scanParams e.id [] (e.params.flatMap writeParam ++ ']' :: rest)
      = .ok ([] ++ e.params, rest) := scanParams_append rest h.params.1 h.params.2
  unfold scanElement
  rw [htext, hname]
  simp only [hne, Bool.false_eq_true, if_false, String.ofList_toList, hparams, List.nil_append]

/-- An element in front of those that were read, and of what follows them. -/
def consElement (e : Element) (p : List Element × List Char) : List Element × List Char :=
  (e :: p.1, p.2)

/-- Where an element opens it is read, and reading goes on behind it. -/
theorem scanElements_of_some {found : Bool} {s r : List Char} (ho : opening? found s = some r) :
    scanElements found s
      = (scanElement r).bind fun p => (scanElements true p.2).map (consElement p.1) := by
  rw [scanElements]
  split
  · next hnone => rw [ho] at hnone; contradiction
  · next r' hr =>
    obtain rfl := Option.some.inj (ho.symm.trans hr)
    split
    · next f hf =>
      rw [hf]
      rfl
    · next e t he =>
      rw [he]
      show _ = (scanElements true t).map (consElement e)
      cases scanElements true t with
      | error f => rfl
      | ok p => rfl

/-- Where none opens reading ends. -/
theorem scanElements_of_none {found : Bool} {s : List Char} (ho : opening? found s = none) :
    scanElements found s = .ok ([], s) := by
  rw [scanElements]
  split
  · rfl
  · next hr => rw [ho] at hr; contradiction

/-- Reading ends where no element opens. -/
theorem opening?_of_scanElements {found : Bool} {s rest : List Char} {es : List Element}
    (h : scanElements found s = .ok (es, rest)) :
    opening? (found || !es.isEmpty) rest = none := by
  fun_induction scanElements found s generalizing es rest with
  | case1 found s ho =>
    obtain ⟨rfl, rfl⟩ := Prod.mk.inj (Except.ok.inj h)
    simpa using ho
  | case2 => contradiction
  | case3 => contradiction
  | case4 found s r ho e t he es' rest' hs ih =>
    obtain ⟨rfl, rfl⟩ := Prod.mk.inj (Except.ok.inj h)
    have := ih hs
    simpa using this

/-- An element that was written is read back, whatever follows it. -/
theorem scanElements_write {e : Element} (h : e.Readable) (found : Bool) (rest : List Char) :
    scanElements found (e.write ++ rest) = (scanElements true rest).map (consElement e) := by
  have ho : opening? found (e.write ++ rest) = some (e.body ++ rest) := rfl
  rw [scanElements_of_some ho, scanElement_body h rest]
  rfl

/-- So is a row of elements side by side. -/
theorem scanElements_flatMap {es : List Element} (hes : ∀ e ∈ es, e.Readable) (hne : es ≠ [])
    (found : Bool) (rest : List Char) :
    scanElements found (es.flatMap Element.write ++ rest)
      = (scanElements true rest).map fun p => (es ++ p.1, p.2) := by
  induction es generalizing found with
  | nil => contradiction
  | cons e es ih =>
    have he := hes e List.mem_cons_self
    rw [List.flatMap_cons, List.append_assoc, scanElements_write he]
    cases es with
    | nil => rfl
    | cons e' es =>
      rw [ih (fun d hd => hes d (List.mem_cons_of_mem _ hd)) (List.cons_ne_nil _ _)]
      cases scanElements true rest with
      | error f => rfl
      | ok p => rfl

/-! ## The library's own elements -/

/-- An element of the library's own that has parameters. -/
structure Element.Own (e : Element) : Prop extends e.Readable where
  own : e.id = auditId ∨ e.id = metricId
  params_ne : e.params ≠ []

/-- Such an element is recognised by its beginning. -/
theorem startsOwn_body {e : Element} (h : e.Own) (rest : List Char) :
    startsOwn (e.body ++ rest) = true := by
  obtain ⟨p, ps, hps⟩ := List.exists_cons_of_ne_nil h.params_ne
  have hbody : ∃ t, e.body ++ rest = (e.id ++ " ").toList ++ t := by
    unfold Element.body
    rw [hps, String.toList_append]
    exact ⟨_, by simp [writeParam]; rfl⟩
  obtain ⟨t, ht⟩ := hbody
  unfold startsOwn ownStarts
  rw [ht]
  cases h.own with
  | inl hid =>
    simp [hid]
  | inr hid =>
    simp [hid]

/-- The text of a row of elements. -/
def join (es : List Element) : List Char := [' '].intercalate (es.map Element.write)

theorem join_singleton (e : Element) : join [e] = e.write := by simp [join]

theorem join_cons_cons (e e' : Element) (es : List Element) :
    join (e :: e' :: es) = e.write ++ ' ' :: join (e' :: es) := by
  simp [join, List.intercalate]

/-- A row begins with its first element. -/
theorem join_eq_append (e : Element) (es : List Element) : ∃ t, join (e :: es) = e.write ++ t := by
  cases es with
  | nil => exact ⟨[], by rw [join_singleton, List.append_nil]⟩
  | cons e' es => exact ⟨_, join_cons_cons e e' es⟩

/-- A space in front of one of the library's own elements does not count. -/
theorem scanElements_space {e : Element} (h : e.Own) (rest : List Char) :
    scanElements true (' ' :: (e.write ++ rest)) = scanElements true (e.write ++ rest) := by
  have ho : opening? true (e.write ++ rest) = some (e.body ++ rest) := rfl
  have hspace : opening? true (' ' :: (e.write ++ rest)) = some (e.body ++ rest) := by
    show (if true && startsOwn (e.body ++ rest) then some (e.body ++ rest) else none) = _
    rw [startsOwn_body h rest]
    rfl
  rw [scanElements_of_some ho, scanElements_of_some hspace]

/-- A row of the library's own elements is read back, a space between each two of them. -/
theorem scanElements_join {es : List Element} (hes : ∀ e ∈ es, e.Own) (hne : es ≠ [])
    (found : Bool) (rest : List Char) :
    scanElements found (join es ++ rest)
      = (scanElements true rest).map fun p => (es ++ p.1, p.2) := by
  induction es generalizing found with
  | nil => contradiction
  | cons e es ih =>
    have he := hes e List.mem_cons_self
    cases es with
    | nil =>
      rw [join_singleton, scanElements_write he.toReadable]
      rfl
    | cons e' es =>
      have hown' : ∀ e ∈ e' :: es, e.Own := fun d hd => hes d (List.mem_cons_of_mem _ hd)
      obtain ⟨t, ht⟩ := join_eq_append e' es
      have hspace : scanElements true (' ' :: (join (e' :: es) ++ rest))
          = scanElements true (join (e' :: es) ++ rest) := by
        rw [ht, List.append_assoc]
        exact scanElements_space (hown' e' List.mem_cons_self) (t ++ rest)
      rw [join_cons_cons, List.append_assoc, List.cons_append, scanElements_write he.toReadable,
        hspace, ih hown' (List.cons_ne_nil _ _)]
      cases scanElements true rest with
      | error f => rfl
      | ok p => rfl

/-! ## Line breaks -/

/-- A text with `#015` for each carriage return, and then `#012` for each line feed. -/
def foldText (s : String) : String :=
  String.ofList (replaceChar '\n' "#012".toList (replaceChar '\r' "#015".toList s.toList))

/-- An element with its texts folded. -/
def Element.folded (e : Element) : Element :=
  ⟨foldText e.id, e.params.map fun p => (foldText p.1, foldText p.2)⟩

/-- A line is folded by the same replacements, all at once. -/
theorem foldBreaks_eq_replacements (s : List Char) :
    foldBreaks s = replaceChar '\n' "#012".toList (replaceChar '\r' "#015".toList s) := by
  induction s with
  | nil => rfl
  | cons c s ih =>
    have hchar : foldChar c =
        replaceChar '\n' "#012".toList (replaceChar '\r' "#015".toList [c]) := by
      by_cases hr : c = '\r'
      · subst hr; rfl
      by_cases hn : c = '\n'
      · subst hn; rfl
      simp [foldChar, replaceChar, hr, hn]
    rw [replaceChar_cons, replaceChar_append, ← ih, ← hchar]
    rfl

/-- So the text that is folded by itself is folded like the line it stands in. -/
theorem toList_foldText (s : String) : (foldText s).toList = foldBreaks s.toList := by
  rw [foldText, String.toList_ofList, foldBreaks_eq_replacements]

/-- A text on one line stays as it is. -/
theorem foldText_of_noBreak {s : String} (h : hasLineBreak s = false) : foldText s = s := by
  rw [foldText, ← foldBreaks_eq_replacements, foldBreaks_of_noBreak h, String.ofList_toList]

theorem foldBreaks_cons (c : Char) (s : List Char) :
    foldBreaks (c :: s) = foldChar c ++ foldBreaks s := List.flatMap_cons

theorem foldChar_of_not_isLineBreak {c : Char} (h : isLineBreak c = false) : foldChar c = [c] := by
  have hr : c ≠ '\r' := by rintro rfl; exact absurd h (by decide)
  have hn : c ≠ '\n' := by rintro rfl; exact absurd h (by decide)
  unfold foldChar
  rw [if_neg hr, if_neg hn]

/-- What a line break is replaced by needs no escape, and what is escaped is no line break. -/
theorem foldBreaks_escapeChar (c : Char) : foldBreaks (escapeChar c) = escape (foldChar c) := by
  by_cases hb : isLineBreak c = true
  · rcases eq_of_isLineBreak hb with rfl | rfl
    · decide
    · decide
  · have hslash : isLineBreak '\\' = false := by decide
    have hc : (escapeChar c).any isLineBreak = false := by
      unfold escapeChar
      split
      · simp [hb, hslash]
      · simp [hb]
    rw [foldChar_of_not_isLineBreak (by simpa using hb), foldBreaks_of_noBreak hc]
    simp [escape]

/-- Folding and escaping may change places. -/
theorem foldBreaks_escape (v : List Char) : foldBreaks (escape v) = escape (foldBreaks v) := by
  induction v with
  | nil => rfl
  | cons c v ih =>
    have happend : ∀ s t, escape (s ++ t) = escape s ++ escape t := fun s t => by simp [escape]
    have hcons : escape (c :: v) = escapeChar c ++ escape v := by simp [escape]
    rw [hcons, foldBreaks_append, ih, foldBreaks_escapeChar, foldBreaks_cons, happend]

/-- A parameter is folded by folding its texts. -/
theorem foldBreaks_writeParam (p : String × String) :
    foldBreaks (writeParam p) = writeParam (foldText p.1, foldText p.2) := by
  have hs : foldChar ' ' = [' '] := by decide
  have he : foldChar '=' = ['='] := by decide
  have hq : foldChar '"' = ['"'] := by decide
  have hnil : foldBreaks [] = [] := rfl
  unfold writeParam
  simp [toList_foldText, foldBreaks_cons, foldBreaks_append, foldBreaks_escape, hs, he, hq, hnil]

theorem foldBreaks_flatMap_writeParam (ps : Members String) :
    foldBreaks (ps.flatMap writeParam)
      = (ps.map fun p => (foldText p.1, foldText p.2)).flatMap writeParam := by
  induction ps with
  | nil => rfl
  | cons p ps ih =>
    rw [List.flatMap_cons, foldBreaks_append, foldBreaks_writeParam, ih, List.map_cons,
      List.flatMap_cons]

/-- Folding leaves the form of an element alone. -/
theorem foldBreaks_write (e : Element) : foldBreaks e.write = e.folded.write := by
  have ho : foldChar '[' = ['['] := by decide
  have hc : foldBreaks [']'] = [']'] := by decide
  unfold Element.write Element.folded
  rw [foldBreaks_append, foldBreaks_append, foldBreaks_cons, foldBreaks_flatMap_writeParam, ho, hc]
  simp [toList_foldText]

/-- A row of elements is folded element by element. -/
theorem foldBreaks_join (es : List Element) :
    foldBreaks (join es) = join (es.map Element.folded) := by
  have hs : foldChar ' ' = [' '] := by decide
  induction es with
  | nil => rfl
  | cons e es ih =>
    cases es with
    | nil => rw [List.map_cons, List.map_nil, join_singleton, join_singleton, foldBreaks_write]
    | cons e' es =>
      rw [join_cons_cons, foldBreaks_append, foldBreaks_cons, foldBreaks_write, hs, ih]
      simp [join_cons_cons]

end Logwire.Line
