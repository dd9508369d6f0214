import Logwire.Proofs.Json.Members
import Logwire.Proofs.Line.Written

/-!
# Logwire.Proofs.Line.Factorization

Structured data as a form of text.

```
data    = [ element *( [ " " ] element ) ] rest
element = "[" name *( " " name "=" quote value quote ) "]"
```

A value is spelled by units: an escape pair, or one character that is no quote
and begins no pair.  A space in front of an element is allowed from the second
on, and only for the library's own.  The rest is what no further element opens.

The form is stated without the reader.  A text has one factorization at most,
and reading gives its elements and its rest: `scanData_eq_ok_iff`.  Each layer
below is one `iff` between the reader of a piece and the form of the piece, and
one lemma that a text begins with at most one such piece.
-/

namespace Logwire.Line

open Members

/-! ## Values -/

/-- The text of a value up to and over its closing quote, and the value that it spells. -/
inductive Spells : List Char → List Char → Prop where
  | close : Spells ['"'] []
  /-- A backslash in front of a special character makes it stand for itself. -/
  | pair {c : Char} {w v : List Char} (hc : isSpecial c = true) (h : Spells w v) :
    Spells ('\\' :: c :: w) (c :: v)
  /-- Any other character stands for itself, a backslash in front of no special one too. -/
  | single {c : Char} {w v : List Char} (hq : c ≠ '"')
    (hb : c = '\\' → ∀ d ∈ w.head?, isSpecial d = false) (h : Spells w v) :
    Spells (c :: w) (c :: v)

/-- What spells a value is read as the value, up to the closing quote. -/
theorem scanValue_append {w v : List Char} (h : Spells w v) (rest : List Char) :
    scanValue (w ++ rest) = some (v, rest) := by
  induction h with
  | close => rfl
  | pair hc _ ih =>
    rw [List.cons_append, List.cons_append, scanValue, if_pos hc, ih]
  | @single c w v hq hb h ih =>
    by_cases hc : c = '\\'
    · -- the closing quote at the latest stands behind the backslash
      obtain ⟨d, t, rfl⟩ : ∃ d t, w = d :: t := by
        cases h with
        | close => exact ⟨_, _, rfl⟩
        | pair => exact ⟨_, _, rfl⟩
        | single => exact ⟨_, _, rfl⟩
      have hd : ¬ isSpecial d = true := by simp [hb hc d rfl]
      rw [List.cons_append] at ih
      rw [hc, List.cons_append, List.cons_append, scanValue, if_neg hd, ih]
    · rw [List.cons_append, scanValue.eq_4 c _ hq fun _ _ e _ => hc e, ih]

/-- What is read as a value spells it. -/
theorem spells_of_scanValue {s v rest : List Char} (h : scanValue s = some (v, rest)) :
    ∃ w, Spells w v ∧ s = w ++ rest := by
  fun_induction scanValue s generalizing v rest with
  | case1 => contradiction
  | case2 r =>
    obtain ⟨rfl, rfl⟩ := Prod.mk.inj (Option.some.inj h)
    exact ⟨_, .close, rfl⟩
  | case3 c r hc v' rest' hr ih =>
    obtain ⟨rfl, rfl⟩ := Prod.mk.inj (Option.some.inj h)
    obtain ⟨w, hw, rfl⟩ := ih hr
    exact ⟨_, .pair hc hw, rfl⟩
  | case4 => contradiction
  | case5 c r hc v' rest' hr ih =>
    obtain ⟨rfl, rfl⟩ := Prod.mk.inj (Option.some.inj h)
    obtain ⟨w, hw, hcr⟩ := ih hr
    have hhead : ∀ d ∈ w.head?, isSpecial d = false := by
      intro d hd
      obtain ⟨t, rfl⟩ := List.head?_eq_some_iff.mp hd
      obtain ⟨rfl, -⟩ := List.cons.inj hcr
      simpa using hc
    exact ⟨_, .single (by decide) (fun _ => hhead) hw, by rw [hcr, List.cons_append]⟩
  | case6 => contradiction
  | case7 c r hq hb v' rest' hr ih =>
    obtain ⟨rfl, rfl⟩ := Prod.mk.inj (Option.some.inj h)
    obtain ⟨w, hw, rfl⟩ := ih hr
    have hne : c ≠ '\\' := by
      rintro rfl
      cases w with
      | nil => cases hw
      | cons d t => exact hb d (t ++ rest') rfl rfl
    exact ⟨_, .single hq (fun e => absurd e hne) hw, rfl⟩
  | case8 => contradiction

/-! ## Parameters -/

/-- A parameter as it stands in a text: its name, the text of its value with the closing quote, and
the value. -/
structure ParamText where
  name : List Char
  spelling : List Char
  value : List Char

namespace ParamText

/-- The characters of a parameter, with the space in front of it. -/
def chars (p : ParamText) : List Char := ' ' :: (p.name ++ '=' :: '"' :: p.spelling)

/-- A name, and a value that is spelled as the text has it. -/
structure Formed (p : ParamText) : Prop where
  name : IsName p.name
  value : Spells p.spelling p.value

/-- The name and the value of a parameter. -/
def entry (p : ParamText) : String × String := (String.ofList p.name, String.ofList p.value)

end ParamText

theorem isName_scanName {s : List Char} (h : (scanName s).1.isEmpty = false) :
    IsName (scanName s).1 :=
  ⟨by simpa using h, fun c hc => by simpa using List.mem_takeWhile_imp hc⟩

/-- A parameter is read exactly where the text of one stands. -/
theorem scanParam_eq_ok_iff {id : String} {s rest : List Char} {e : String × String} :
    scanParam id s = .ok (e, rest) ↔
      ∃ p : ParamText, p.Formed ∧ ' ' :: s = p.chars ++ rest ∧ e = p.entry := by
  constructor
  · intro h
    unfold scanParam at h
    split at h
    · contradiction
    · next hne =>
      split at h
      · next r hr =>
        split at h
        · contradiction
        · next v rest' hv =>
          obtain ⟨rfl, rfl⟩ := Prod.mk.inj (Except.ok.inj h)
          obtain ⟨w, hw, rfl⟩ := spells_of_scanValue hv
          have hname := isName_scanName (Bool.eq_false_iff.mpr hne)
          refine ⟨⟨(scanName s).1, w, v⟩, ⟨hname, hw⟩, ?_, rfl⟩
          have happend := scanName_append s
          rw [hr] at happend
          simp only [ParamText.chars, List.cons_append, List.append_assoc]
          exact congrArg (' ' :: ·) happend.symm
      · contradiction
  · rintro ⟨p, hp, hs, rfl⟩
    have hs' : s = p.name ++ '=' :: ('"' :: (p.spelling ++ rest)) := by
      simpa [ParamText.chars] using hs
    have hne : ¬ p.name.isEmpty = true := by simpa using hp.name.1
    unfold scanParam
    rw [hs', scanName_append_cons hp.name (by decide), if_neg hne]
    simp only [scanValue_append hp.value]
    rfl

/-- A text begins with one parameter at most. -/
theorem ParamText.eq_of_append_eq {p p' : ParamText} {t t' : List Char} (hp : p.Formed)
    (hp' : p'.Formed) (h : p.chars ++ t = p'.chars ++ t') : p = p' ∧ t = t' := by
  have hread : scanParam "" (p.name ++ '=' :: '"' :: p.spelling ++ t) = .ok (p.entry, t) :=
    scanParam_eq_ok_iff.mpr ⟨p, hp, rfl, rfl⟩
  have hread' : scanParam "" (p.name ++ '=' :: '"' :: p.spelling ++ t) = .ok (p'.entry, t') :=
    scanParam_eq_ok_iff.mpr ⟨p', hp', h, rfl⟩
  obtain ⟨hentry, rfl⟩ := Prod.mk.inj (Except.ok.inj (hread.symm.trans hread'))
  obtain ⟨hname, hvalue⟩ := Prod.mk.inj hentry
  have hchars : p.chars = p'.chars := List.append_cancel_right h
  obtain ⟨name, spelling, value⟩ := p
  obtain ⟨name', spelling', value'⟩ := p'
  obtain rfl : name = name' := String.ofList_inj.mp hname
  obtain rfl : value = value' := String.ofList_inj.mp hvalue
  obtain rfl : spelling = spelling' := by simpa [chars] using hchars
  exact ⟨rfl, rfl⟩

/-- Parameters are read exactly where their texts stand, up to a closing bracket. -/
theorem scanParams_eq_ok_iff {id : String} {before params : Members String} {s rest : List Char} :
    scanParams id before s = .ok (params, rest) ↔
      ∃ ps : List ParamText, (∀ p ∈ ps, p.Formed) ∧
        s = ps.flatMap ParamText.chars ++ ']' :: rest ∧
        params = insertAll before (ps.map ParamText.entry) := by
  constructor
  · intro h
    fun_induction scanParams id before s with
    | case1 => contradiction
    | case2 before r =>
      obtain ⟨rfl, rfl⟩ := Prod.mk.inj (Except.ok.inj h)
      exact ⟨[], fun _ hp => absurd hp List.not_mem_nil, rfl, rfl⟩
    | case3 => contradiction
    | case4 before r e t he ih =>
      obtain ⟨p, hp, htext, rfl⟩ := scanParam_eq_ok_iff.mp he
      obtain ⟨ps, hps, rfl, rfl⟩ := ih h
      refine ⟨p :: ps, List.forall_mem_cons.mpr ⟨hp, hps⟩, ?_, rfl⟩
      rw [htext, List.flatMap_cons, List.append_assoc]
    | case5 => contradiction
  · rintro ⟨ps, hps, rfl, rfl⟩
    induction ps generalizing before with
    | nil =>
      rw [List.flatMap_nil, List.nil_append, scanParams]
      rfl
    | cons p ps ih =>
      obtain ⟨hp, hps⟩ := List.forall_mem_cons.mp hps
      have hread : scanParam id (p.name ++ '=' :: '"' :: p.spelling ++
          (ps.flatMap ParamText.chars ++ ']' :: rest))
          = .ok (p.entry, ps.flatMap ParamText.chars ++ ']' :: rest) :=
        scanParam_eq_ok_iff.mpr ⟨p, hp, rfl, rfl⟩
      have htext : (p :: ps).flatMap ParamText.chars ++ ']' :: rest
          = ' ' :: (p.name ++ '=' :: '"' :: p.spelling ++
            (ps.flatMap ParamText.chars ++ ']' :: rest)) := by
        rw [List.flatMap_cons, List.append_assoc]
        rfl
      rw [htext, scanParams, hread]
      exact ih hps

/-- A text begins with one row of parameters and a bracket at most. -/
theorem params_eq_of_append_eq {ps ps' : List ParamText} {t t' : List Char}
    (hps : ∀ p ∈ ps, p.Formed) (hps' : ∀ p ∈ ps', p.Formed)
    (h : ps.flatMap ParamText.chars ++ ']' :: t = ps'.flatMap ParamText.chars ++ ']' :: t') :
    ps = ps' ∧ t = t' := by
  induction ps generalizing ps' with
  | nil =>
    cases ps' with
    | nil => exact ⟨rfl, (List.cons.inj h).2⟩
    | cons p' ps' => exact absurd (List.cons.inj h).1 (by decide)
  | cons p ps ih =>
    cases ps' with
    | nil => exact absurd (List.cons.inj h).1 (by decide)
    | cons p' ps' =>
      obtain ⟨hp, hps⟩ := List.forall_mem_cons.mp hps
      obtain ⟨hp', hps'⟩ := List.forall_mem_cons.mp hps'
      rw [List.flatMap_cons, List.flatMap_cons, List.append_assoc, List.append_assoc] at h
      obtain ⟨hpp, htail⟩ := ParamText.eq_of_append_eq hp hp' h
      obtain ⟨hrest, ht⟩ := ih hps hps' htail
      exact ⟨by rw [hpp, hrest], ht⟩

/-! ## Elements -/

/-- An element as it stands in a text. -/
structure ElementText where
  name : List Char
  params : List ParamText

namespace ElementText

def chars (e : ElementText) : List Char :=
  '[' :: (e.name ++ (e.params.flatMap ParamText.chars ++ [']']))

/-- A name, and formed parameters. -/
structure Formed (e : ElementText) : Prop where
  name : IsName e.name
  params : ∀ p ∈ e.params, p.Formed

/-- The element: of a name that is repeated among its parameters the last value counts. -/
def element (e : ElementText) : Element :=
  ⟨String.ofList e.name, lastValues (e.params.map ParamText.entry)⟩

/-- What of an element follows its name, in front of a rest. -/
theorem scanName_chars {e : ElementText} (h : e.Formed) (rest : List Char) :
    scanName (e.name ++ (e.params.flatMap ParamText.chars ++ ']' :: rest))
      = (e.name, e.params.flatMap ParamText.chars ++ ']' :: rest) := by
  cases e.params with
  | nil => exact scanName_append_cons h.name (by decide) rest
  | cons p ps =>
    simp only [List.flatMap_cons, ParamText.chars, List.cons_append]
    exact scanName_append_cons h.name (by decide) _

theorem chars_append (e : ElementText) (rest : List Char) :
    e.chars ++ rest = '[' :: (e.name ++ (e.params.flatMap ParamText.chars ++ ']' :: rest)) := by
  simp [chars]

/-- A text begins with one element at most. -/
theorem eq_of_append_eq {e e' : ElementText} {t t' : List Char} (he : e.Formed) (he' : e'.Formed)
    (h : e.chars ++ t = e'.chars ++ t') : e = e' ∧ t = t' := by
  rw [chars_append, chars_append] at h
  have hname := scanName_chars he t
  rw [(List.cons.inj h).2, scanName_chars he' t'] at hname
  obtain ⟨hn, hparams⟩ := Prod.mk.inj hname
  obtain ⟨hp, rfl⟩ := params_eq_of_append_eq he'.params he.params hparams
  obtain ⟨name, params⟩ := e
  obtain ⟨name', params'⟩ := e'
  obtain rfl : name' = name := hn
  obtain rfl : params' = params := hp
  exact ⟨rfl, rfl⟩

end ElementText

/-- An element is read exactly where the text of one stands. -/
theorem scanElement_eq_ok_iff {s rest : List Char} {e : Element} :
    scanElement s = .ok (e, rest) ↔
      ∃ t : ElementText, t.Formed ∧ '[' :: s = t.chars ++ rest ∧ e = t.element := by
  constructor
  · intro h
    unfold scanElement at h
    split at h
    · contradiction
    · next hne =>
      dsimp only at h
      split at h
      · contradiction
      · next params rest' hp =>
        obtain ⟨rfl, rfl⟩ := Prod.mk.inj (Except.ok.inj h)
        obtain ⟨ps, hps, htext, rfl⟩ := scanParams_eq_ok_iff.mp hp
        have hname := isName_scanName (Bool.eq_false_iff.mpr hne)
        refine ⟨⟨(scanName s).1, ps⟩, ⟨hname, hps⟩, ?_, ?_⟩
        · rw [ElementText.chars_append, ← htext, scanName_append]
        · rw [insertAll_eq_lastValues]
          rfl
  · rintro ⟨t, ht, hs, rfl⟩
    have hs' : s = t.name ++ (t.params.flatMap ParamText.chars ++ ']' :: rest) := by
      rw [ElementText.chars_append] at hs
      exact (List.cons.inj hs).2
    have hne : ¬ t.name.isEmpty = true := by simpa using ht.name.1
    have hparams : scanParams (String.ofList t.name) []
        (t.params.flatMap ParamText.chars ++ ']' :: rest)
        = .ok (insertAll [] (t.params.map ParamText.entry), rest) :=
      scanParams_eq_ok_iff.mpr ⟨t.params, ht.params, rfl, rfl⟩
    unfold scanElement
    rw [hs', ElementText.scanName_chars ht, if_neg hne]
    simp only [hparams, insertAll_eq_lastValues]
    rfl

/-! ## Factorizations -/

/-- An element, and whether a space stands in front of it. -/
structure Piece where
  spaced : Bool
  text : ElementText

def Piece.chars (p : Piece) : List Char := if p.spaced then ' ' :: p.text.chars else p.text.chars

/-- A space is told by the first character. -/
theorem Piece.eq_of_chars_eq {p p' : Piece} (ht : p.text = p'.text) (h : p.chars = p'.chars) :
    p = p' := by
  obtain ⟨spaced, text⟩ := p
  obtain ⟨spaced', text'⟩ := p'
  obtain rfl : text = text' := ht
  cases spaced with
  | false =>
    cases spaced' with
    | false => rfl
    | true => exact absurd (List.cons.inj h).1 (by decide)
  | true =>
    cases spaced' with
    | false => exact absurd (List.cons.inj h).1 (by decide)
    | true => rfl

/-- Elements at the front of a text, and the rest. -/
structure Factors where
  pieces : List Piece
  rest : List Char

namespace Factors

def chars (f : Factors) : List Char := f.pieces.flatMap Piece.chars ++ f.rest

def elements (f : Factors) : List Element := f.pieces.map fun p => p.text.element

/-- The factors are those of a text.  `found` tells whether another element stands in front of the
text, so that its first element may have a space. -/
structure IsOf (found : Bool) (f : Factors) (s : List Char) : Prop where
  chars : s = f.chars
  formed : ∀ p ∈ f.pieces, p.text.Formed
  first : found = false → ∀ p ∈ f.pieces.head?, p.spaced = false
  spaced : ∀ p ∈ f.pieces, p.spaced = true → beginsOwn p.text.chars = true
  rest : f.rest.head? ≠ some '['
  restSpaced : found = true ∨ f.pieces ≠ [] → ∀ t, f.rest = ' ' :: t → beginsOwn t = false

end Factors

/-- The bracket that ends an element ends each beginning that has none. -/
theorem isPrefixOf_chars_append {start : List Char} (hstart : ']' ∉ start) (e : ElementText)
    (rest : List Char) : start.isPrefixOf (e.chars ++ rest) = start.isPrefixOf e.chars := by
  have hmem : ']' ∈ e.chars := by simp [ElementText.chars]
  rw [Bool.eq_iff_iff, List.isPrefixOf_iff_prefix, List.isPrefixOf_iff_prefix]
  constructor
  · intro h
    rcases List.prefix_or_prefix_of_prefix h (List.prefix_append e.chars rest) with h' | h'
    · exact h'
    · exact absurd (h'.subset hmem) hstart
  · exact fun h => h.trans (List.prefix_append _ _)

/-- An element is told to be one of the library's own by itself. -/
theorem beginsOwn_chars_append (e : ElementText) (rest : List Char) :
    beginsOwn (e.chars ++ rest) = beginsOwn e.chars := by
  have hstarts : ∀ start ∈ ownStarts, ']' ∉ '[' :: start := by decide
  unfold beginsOwn
  rw [Bool.eq_iff_iff, List.any_eq_true, List.any_eq_true]
  exact exists_congr fun start => and_congr_right fun hs => by
    rw [isPrefixOf_chars_append (hstarts start hs)]

/-- What the reader looks for behind a bracket is the beginning of an own element. -/
theorem startsOwn_eq_beginsOwn (s : List Char) : startsOwn s = beginsOwn ('[' :: s) := by
  simp [startsOwn, beginsOwn]

/-- Where an element opens, with a space or without. -/
theorem opening?_eq_some_iff {found : Bool} {s r : List Char} :
    opening? found s = some r ↔
      s = '[' :: r ∨ found = true ∧ s = ' ' :: '[' :: r ∧ beginsOwn ('[' :: r) = true := by
  rw [← startsOwn_eq_beginsOwn]
  unfold opening?
  split
  · simp
  · next r' =>
    rw [Option.ite_none_right_eq_some, Option.some.injEq, Bool.and_eq_true]
    constructor
    · rintro ⟨⟨hf, hs⟩, rfl⟩
      exact .inr ⟨hf, rfl, hs⟩
    · rintro (h | ⟨hf, h, hs⟩)
      · exact absurd (List.cons.inj h).1 (by decide)
      · obtain rfl := (List.cons.inj (List.cons.inj h).2).2
        exact ⟨⟨hf, hs⟩, rfl⟩
  · next h1 h2 =>
    refine iff_of_false (by simp) ?_
    rintro (rfl | ⟨-, rfl, -⟩)
    · exact h1 _ rfl
    · exact h2 _ rfl

theorem beginsOwn_eq_true {s : List Char} (h : beginsOwn s = true) : ∃ r, s = '[' :: r := by
  cases s with
  | nil => exact absurd h (by decide)
  | cons c r =>
    unfold beginsOwn at h
    obtain ⟨start, -, hs⟩ := List.any_eq_true.mp h
    rw [List.isPrefixOf_cons_cons, Bool.and_eq_true, beq_iff_eq] at hs
    exact ⟨r, by rw [hs.1]⟩

/-- Where none opens. -/
theorem opening?_eq_none_iff {found : Bool} {s : List Char} :
    opening? found s = none ↔
      s.head? ≠ some '[' ∧ (found = true → ∀ t, s = ' ' :: t → beginsOwn t = false) := by
  rw [Option.eq_none_iff_forall_ne_some]
  simp only [Ne, opening?_eq_some_iff, not_or, forall_and]
  refine and_congr ?_ ?_
  · rw [List.head?_eq_some_iff, not_exists]
  · constructor
    · intro h hf t ht
      by_contra hb
      rw [Bool.not_eq_false] at hb
      obtain ⟨r, rfl⟩ := beginsOwn_eq_true hb
      exact h r ⟨hf, ht, hb⟩
    · rintro h r ⟨hf, hs, hb⟩
      rw [h hf _ hs] at hb
      contradiction

namespace Factors

variable {found : Bool} {s rest : List Char}

/-- Without pieces nothing opens, and all is left. -/
theorem isOf_nil_iff : IsOf found ⟨[], rest⟩ s ↔ s = rest ∧ opening? found s = none := by
  rw [opening?_eq_none_iff]
  constructor
  · rintro ⟨rfl, -, -, -, hr, hrs⟩
    exact ⟨rfl, hr, fun hf => hrs (.inl hf)⟩
  · rintro ⟨rfl, hr, hrs⟩
    exact {
      chars := rfl
      formed := fun _ h => absurd h List.not_mem_nil
      first := fun _ _ h => absurd h (by simp)
      spaced := fun _ h => absurd h List.not_mem_nil
      rest := hr
      restSpaced := fun hf => hrs (hf.resolve_right fun h => h rfl) }

/-- A factorization is told piece by piece; behind the first an element has been found. -/
theorem isOf_cons_iff {p : Piece} {ps : List Piece} :
    IsOf found ⟨p :: ps, rest⟩ s ↔ p.text.Formed ∧
      (p.spaced = true → found = true ∧ beginsOwn p.text.chars = true) ∧
      ∃ t, s = p.chars ++ t ∧ IsOf true ⟨ps, rest⟩ t := by
  constructor
  · rintro ⟨rfl, hformed, hfirst, hspaced, hr, hrs⟩
    obtain ⟨hp, hps⟩ := List.forall_mem_cons.mp hformed
    obtain ⟨hown, howns⟩ := List.forall_mem_cons.mp hspaced
    have hfound : p.spaced = true → found = true := by
      intro hsp
      by_contra hf
      have := hfirst (by simpa using hf) p rfl
      rw [hsp] at this
      contradiction
    refine ⟨hp, fun hsp => ⟨hfound hsp, hown hsp⟩, ps.flatMap Piece.chars ++ rest, ?_, ?_⟩
    · simp [Factors.chars]
    · exact {
        chars := rfl
        formed := hps
        first := fun h => absurd h (by decide)
        spaced := howns
        rest := hr
        restSpaced := fun _ => hrs (.inr (List.cons_ne_nil _ _)) }
  · rintro ⟨hp, hown, t, rfl, ⟨rfl, hps, -, howns, hr, hrs⟩⟩
    have hfirst : found = false → ∀ q ∈ (p :: ps).head?, q.spaced = false := by
      intro hf q hq
      obtain rfl := Option.some.inj hq
      by_contra hsp
      have := (hown (by simpa using hsp)).1
      rw [hf] at this
      contradiction
    exact {
      chars := by simp [Factors.chars]
      formed := List.forall_mem_cons.mpr ⟨hp, hps⟩
      first := hfirst
      spaced := List.forall_mem_cons.mpr ⟨fun h => (hown h).2, howns⟩
      rest := hr
      restSpaced := fun _ => hrs (.inl rfl) }

/-- Where a piece stands an element opens, and its text begins there. -/
theorem opening?_of_piece {p : Piece} {t : List Char}
    (hown : p.spaced = true → found = true ∧ beginsOwn p.text.chars = true) :
    ∃ r, opening? found (p.chars ++ t) = some r ∧ '[' :: r = p.text.chars ++ t := by
  refine ⟨p.text.name ++ (p.text.params.flatMap ParamText.chars ++ ']' :: t), ?_,
    (p.text.chars_append t).symm⟩
  rw [opening?_eq_some_iff, ← p.text.chars_append]
  unfold Piece.chars
  by_cases hsp : p.spaced = true
  · obtain ⟨hf, hb⟩ := hown hsp
    rw [if_pos hsp, beginsOwn_chars_append]
    exact .inr ⟨hf, by rw [List.cons_append, p.text.chars_append], hb⟩
  · rw [if_neg hsp]
    exact .inl rfl

/-- A text has one factorization at most. -/
theorem IsOf.unique {f f' : Factors} (h : f.IsOf found s) (h' : f'.IsOf found s) : f = f' := by
  obtain ⟨pieces, rest⟩ := f
  obtain ⟨pieces', rest'⟩ := f'
  -- both go on or both end, since what opens at the front is told by the text alone
  induction pieces generalizing found s pieces' with
  | nil =>
    obtain ⟨rfl, hnone⟩ := isOf_nil_iff.mp h
    cases pieces' with
    | nil =>
      obtain ⟨rfl, -⟩ := isOf_nil_iff.mp h'
      rfl
    | cons p' ps' =>
      obtain ⟨-, hown', t', rfl, -⟩ := isOf_cons_iff.mp h'
      obtain ⟨r, hr, -⟩ := opening?_of_piece (t := t') hown'
      rw [hnone] at hr
      contradiction
  | cons p ps ih =>
    obtain ⟨hp, hown, t, rfl, ht⟩ := isOf_cons_iff.mp h
    obtain ⟨r, hr, htext⟩ := opening?_of_piece (t := t) hown
    cases pieces' with
    | nil =>
      obtain ⟨-, hnone⟩ := isOf_nil_iff.mp h'
      rw [hnone] at hr
      contradiction
    | cons p' ps' =>
      obtain ⟨hp', hown', t', hs, ht'⟩ := isOf_cons_iff.mp h'
      obtain ⟨r', hr', htext'⟩ := opening?_of_piece (t := t') hown'
      rw [hs, hr', Option.some.injEq] at hr
      rw [← hr, htext'] at htext
      obtain ⟨htexts, rfl⟩ := ElementText.eq_of_append_eq hp' hp htext
      have hpiece : p = p' := Piece.eq_of_chars_eq htexts.symm (List.append_cancel_right hs)
      have htail := ih ht ps' ht'
      rw [Factors.mk.injEq] at htail
      rw [hpiece, htail.1, htail.2]

end Factors

/-- Elements are read exactly from a text that has a factorization into them. -/
theorem scanElements_eq_ok_iff {found : Bool} {s rest : List Char} {es : List Element} :
    scanElements found s = .ok (es, rest) ↔
      ∃ f : Factors, f.IsOf found s ∧ f.elements = es ∧ f.rest = rest := by
  constructor
  · intro h
    fun_induction scanElements found s generalizing es rest with
    | case1 found s ho =>
      obtain ⟨rfl, rfl⟩ := Prod.mk.inj (Except.ok.inj h)
      exact ⟨⟨[], s⟩, Factors.isOf_nil_iff.mpr ⟨rfl, ho⟩, rfl, rfl⟩
    | case2 => contradiction
    | case3 => contradiction
    | case4 found s r ho e t he es' rest' hs ih =>
      obtain ⟨rfl, rfl⟩ := Prod.mk.inj (Except.ok.inj h)
      obtain ⟨text, htext, hr, rfl⟩ := scanElement_eq_ok_iff.mp he
      obtain ⟨⟨ps, rest⟩, hf, rfl, rfl⟩ := ih hs
      rcases opening?_eq_some_iff.mp ho with hopen | ⟨hfound, hopen, hown⟩
      · have hcons : Factors.IsOf found ⟨⟨false, text⟩ :: ps, rest⟩ s :=
          Factors.isOf_cons_iff.mpr ⟨htext, fun hsp => absurd hsp (by simp), t,
            by rw [hopen, hr]; rfl, hf⟩
        exact ⟨_, hcons, rfl, rfl⟩
      · rw [hr, beginsOwn_chars_append] at hown
        have hcons : Factors.IsOf found ⟨⟨true, text⟩ :: ps, rest⟩ s :=
          Factors.isOf_cons_iff.mpr ⟨htext, fun _ => ⟨hfound, hown⟩, t, by rw [hopen, hr]; rfl, hf⟩
        exact ⟨_, hcons, rfl, rfl⟩
  · rintro ⟨⟨pieces, rest⟩, hf, rfl, rfl⟩
    induction pieces generalizing found s with
    | nil =>
      obtain ⟨rfl, hnone⟩ := Factors.isOf_nil_iff.mp hf
      exact scanElements_of_none hnone
    | cons p ps ih =>
      obtain ⟨hp, hown, t, rfl, ht⟩ := Factors.isOf_cons_iff.mp hf
      obtain ⟨r, hr, htext⟩ := Factors.opening?_of_piece (t := t) hown
      have hread : scanElement r = .ok (p.text.element, t) :=
        scanElement_eq_ok_iff.mpr ⟨p.text, hp, htext, rfl⟩
      rw [scanElements_of_some hr, hread]
      show (scanElements true t).map (consElement p.text.element) = _
      rw [ih ht]
      rfl

/-- **Structured data is read exactly from the texts that have a factorization**, which is the only
one of its text: reading gives its elements, and its rest unread. -/
theorem scanData_eq_ok_iff (s : List Char) (es : List Element) (rest : List Char) :
    scanData s = .ok (es, rest) ↔
      ∃ f : Factors, f.IsOf false s ∧ (∀ f' : Factors, f'.IsOf false s → f' = f) ∧
        f.elements = es ∧ f.rest = rest := by
  unfold scanData
  rw [scanElements_eq_ok_iff]
  constructor
  · rintro ⟨f, hf, hes, hrest⟩
    exact ⟨f, hf, fun f' hf' => hf'.unique hf, hes, hrest⟩
  · rintro ⟨f, hf, -, hes, hrest⟩
    exact ⟨f, hf, hes, hrest⟩

/-- A repeated name, a backslash that begins no pair, and a space that ends the data. -/
example : scanData "[x@1 a=\"1\" b=\"\\q\\]\" a=\"2\"] [pzaudit@48851 Actor=\"\"] [x@1]".toList
    = .ok ([⟨"x@1", [("a", "2"), ("b", "\\q]")]⟩, ⟨auditId, [("Actor", "")]⟩],
      " [x@1]".toList) := by
  decide +kernel

end Logwire.Line
