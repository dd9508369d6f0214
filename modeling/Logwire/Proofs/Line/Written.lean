import Logwire.Proofs.Line.Elements
import Logwire.Proofs.Line.Grammar
import Logwire.Proofs.Number.Digits

/-!
# Logwire.Proofs.Line.Written

The line of a record, read back.

A record `HasHeader` when its numbers are in range and its fields are single
tokens.  Its line then has the header that was written, the elements that were
written with their line breaks folded, and behind them a space and the text.
Where the text begins decides whether reading ends there:

* `scanData_dataText` — behind written elements reading goes on in the text;
* `comesBackAs_received` — a text that does not begin like one of the library's
  own elements, or follows nil data, stays a text, and the record comes back as
  `received`.
-/

namespace Logwire

open Line Number Text Time

namespace Line

/-! ## Fields -/

/-- A text without blanks, perhaps empty. -/
def IsToken (s : String) : Prop := ∀ c ∈ s.toList, isBlank c = false

instance (s : String) : Decidable (IsToken s) :=
  decidable_of_iff (s.toList.all (fun c => !isBlank c) = true) (by simp [IsToken])

/-- A token is written as a field. -/
theorem isField_orNil {s : String} (h : IsToken s) : IsField (orNil s).toList := by
  unfold orNil
  split
  · decide
  · next hne => exact ⟨by simpa using hne, h⟩

/-- A field is read back unless it is the text that stands for an absent one. -/
theorem unNil_orNil {s : String} (h : s ≠ nilText) : unNil (orNil s).toList = s := by
  have hl : s.toList ≠ nilText.toList := fun e => h (String.toList_inj.mp e)
  unfold orNil
  split
  · next he => rw [he]; decide
  · unfold unNil
    rw [if_neg hl, String.ofList_toList]

/-- What goes on the wire for a timestamp is nil or in the narrow form. -/
theorem wireTimestamp_eq_or (text : String) :
    wireTimestamp text = nilText ∨ isSyslogTimestamp (wireTimestamp text) = true := by
  unfold wireTimestamp
  by_cases hs : isSyslogTimestamp text = true
  · rw [if_pos hs]
    exact .inr hs
  · rw [if_neg hs]
    cases hp : parseRfc3339 text with
    | error e => exact .inl rfl
    | ok m => exact .inr (isSyslogTimestamp_format (readable_of_parseRfc3339 hp))

theorem isField_wireTimestamp {text : String} (h : hasLineBreak (wireTimestamp text) = false) :
    IsField (wireTimestamp text).toList := by
  cases wireTimestamp_eq_or text with
  | inl hw =>
    rw [hw]
    decide
  | inr hw =>
    obtain ⟨hblank, hlen⟩ := isBlank_of_isSyslogTimestamp hw h
    exact ⟨List.ne_nil_of_length_pos (by omega), hblank⟩

/-- What is on the wire can be read. -/
theorem readable_wireTimestamp (text : String) : (wireTimestamp text).toList = ['-'] ∨
    isRfc3339 (String.ofList (wireTimestamp text).toList) = true := by
  cases wireTimestamp_eq_or text with
  | inl hw =>
    rw [hw]
    exact .inl rfl
  | inr hw =>
    obtain ⟨-, -, hr⟩ := scan?_of_isSyslogTimestamp hw
    rw [String.ofList_toList]
    exact .inr hr

/-- A timestamp in the narrow form is kept as it is. -/
theorem fieldTimestamp_of_isSyslogTimestamp {text : String} (h : isSyslogTimestamp text = true) :
    fieldTimestamp (wireTimestamp text).toList = text := by
  have hw : wireTimestamp text = text := if_pos h
  have hne : text.toList ≠ ['-'] := by
    intro e
    have : text = nilText := String.toList_inj.mp e
    rw [this] at h
    exact absurd h (by decide)
  unfold fieldTimestamp
  rw [hw, if_neg hne, String.ofList_toList, hw]

theorem fieldTimestamp_empty : fieldTimestamp (wireTimestamp "").toList = "" := by
  decide

end Line

/-! ## Headers -/

theorem Line.IsNumber.noBreak {most : Nat} {s : List Char} (h : IsNumber most s) :
    s.any isLineBreak = false :=
  any_isLineBreak_of_isBlank fun c hc => isBlank_of_isDecimal (h.1 c hc)

theorem Line.IsField.noBreak {s : List Char} (h : IsField s) : s.any isLineBreak = false :=
  any_isLineBreak_of_isBlank h.2

/-- A header brings no line break of its own. -/
theorem Line.Header.Formed.noBreak {h : Header} (hf : h.Formed)
    (hr : h.rest.any isLineBreak = false) : h.chars.any isLineBreak = false := by
  have hlt : isLineBreak '<' = false := by decide
  have hgt : isLineBreak '>' = false := by decide
  have hsp : isLineBreak ' ' = false := by decide
  unfold Header.chars
  simp only [List.any_cons, List.any_append, hf.priority.noBreak, hf.version.noBreak,
    hf.timestamp.noBreak, hf.hostName.noBreak, hf.application.noBreak, hf.process.noBreak,
    hf.messageId.noBreak, hr, hlt, hgt, hsp, Bool.or_self]

namespace Record

/-- The numbers of the header are in range and its fields are single tokens. -/
structure HasHeader (r : Record) : Prop where
  severity : 0 ≤ r.severity ∧ r.severity ≤ 7
  facility : 0 ≤ r.facility ∧ r.facility ≤ 23
  version : 0 ≤ r.version ∧ r.version ≤ 99
  timestamp : hasLineBreak (wireTimestamp r.timestamp) = false
  hostName : IsToken r.hostName
  application : IsToken r.application
  process : IsToken r.process
  messageId : IsToken r.messageId

/-- The header of the record's line, in front of the given rest. -/
def header (r : Record) (rest : List Char) : Header where
  priority := digitsOf r.priority.toNat
  version := digitsOf r.version.toNat
  timestamp := (wireTimestamp r.timestamp).toList
  hostName := (orNil r.hostName).toList
  application := (orNil r.application).toList
  process := (orNil r.process).toList
  messageId := (orNil r.messageId).toList
  rest := rest

/-- The numbers of the header are in range. -/
structure InRange (r : Record) : Prop where
  severity : 0 ≤ r.severity ∧ r.severity ≤ 7
  facility : 0 ≤ r.facility ∧ r.facility ≤ 23
  version : 0 ≤ r.version ∧ r.version ≤ 99

theorem HasHeader.inRange {r : Record} (h : r.HasHeader) : r.InRange :=
  ⟨h.severity, h.facility, h.version⟩

/-- The priority of such a record is the number that is written, and at most 191. -/
theorem toNat_priority {r : Record} (h : r.InRange) :
    (r.priority.toNat : Int) = r.facility * 8 + r.severity ∧ r.priority.toNat ≤ 191 := by
  have hs := h.severity
  have hf := h.facility
  unfold priority
  omega

/-- The header of a record is written part by part. -/
theorem chars_header {r : Record} (h : r.InRange) (rest : List Char) :
    r.headerChars ++ ' ' :: rest = (r.header rest).chars := by
  have hp : intDigits r.priority = digitsOf r.priority.toNat := by
    rw [← intDigits_natCast, (toNat_priority h).1]
    rfl
  have hv : intDigits r.version = digitsOf r.version.toNat := by
    have := h.version
    rw [← intDigits_natCast, Int.toNat_of_nonneg this.1]
  unfold headerChars Header.chars header
  rw [hp, hv]
  simp

theorem formed_header {r : Record} (h : r.HasHeader) (rest : List Char) :
    (r.header rest).Formed := by
  have hv := h.version
  have hdecimal : ∀ n, ∀ c ∈ digitsOf n, isDecimal c = true := fun n c hc =>
    isDecimal_of_isDigit (isDigit_of_mem_digitsOf hc)
  exact {
    priority := ⟨hdecimal _, length_digitsOf_pos _,
      length_digitsOf_le (by decide) (Nat.lt_of_le_of_lt (toNat_priority h.inRange).2 (by decide))⟩
    version := ⟨hdecimal _, length_digitsOf_pos _,
      length_digitsOf_le (by decide) (by change r.version.toNat < 100; omega)⟩
    timestamp := isField_wireTimestamp h.timestamp
    hostName := isField_orNil h.hostName
    application := isField_orNil h.application
    process := isField_orNil h.process
    messageId := isField_orNil h.messageId }

/-- The numbers of such a header can be written. -/
theorem hasLine_of_hasHeader {r : Record} (h : r.HasHeader) : r.hasLine = true := by
  have hpow : 10 ^ 3 ≤ 10 ^ maxDigits := Nat.pow_le_pow_right (by decide) (by decide)
  have hsmall : ∀ i : Int, i.natAbs < 1000 → isWritable i = true := fun i hi =>
    isWritable_iff.mpr (Nat.lt_of_lt_of_le hi hpow)
  have hp := toNat_priority h.inRange
  have hv := h.version
  have hs := h.severity
  have hf := h.facility
  unfold hasLine
  rw [hsmall r.version (by omega), hsmall r.priority (by unfold priority; omega), Bool.and_self]

/-- A header that a line shows as it is: the timestamp is empty, or in the narrow form and on one
line. -/
structure HasPlainHeader (r : Record) : Prop where
  severity : 0 ≤ r.severity ∧ r.severity ≤ 7
  facility : 0 ≤ r.facility ∧ r.facility ≤ 23
  version : 0 ≤ r.version ∧ r.version ≤ 99
  timestamp : r.timestamp = "" ∨
    isSyslogTimestamp r.timestamp = true ∧ hasLineBreak r.timestamp = false
  fields : ∀ s ∈ [r.hostName, r.application, r.process, r.messageId], IsToken s

theorem HasPlainHeader.hasHeader {r : Record} (h : r.HasPlainHeader) : r.HasHeader := by
  have hstamp : hasLineBreak (wireTimestamp r.timestamp) = false := by
    cases h.timestamp with
    | inl ht => rw [ht]; decide
    | inr ht => rw [show wireTimestamp r.timestamp = r.timestamp from if_pos ht.1, ht.2]
  have hf := h.fields
  simp only [List.forall_mem_cons] at hf
  obtain ⟨h1, h2, h3, h4, -⟩ := hf
  exact ⟨h.severity, h.facility, h.version, hstamp, h1, h2, h3, h4⟩

/-! ## Structured data -/

/-- The elements of the record, as its line shows them. -/
def shownElements (r : Record) : List Element := r.elements.map Element.folded

theorem elements_eq_nil_iff {r : Record} : r.elements = [] ↔ r.audit = none ∧ r.metric = none := by
  unfold elements
  cases r.audit <;> cases r.metric <;> simp

/-- The structured data of the record, as its line shows it. -/
def dataText (r : Record) : List Char := foldBreaks r.dataChars

theorem dataText_of_nil {r : Record} (h : r.elements = []) : r.dataText = ['-'] := by
  unfold dataText dataChars
  rw [h]
  decide

theorem dataText_of_ne {r : Record} (h : r.elements ≠ []) : r.dataText = join r.shownElements := by
  unfold dataText dataChars shownElements
  rw [← foldBreaks_join]
  split
  · contradiction
  · rfl

/-- What a line shows: the header as it is, and data and text with their line breaks folded. -/
theorem lineChars_eq {r : Record} (h : r.HasHeader) :
    r.lineChars = (r.header (r.dataText ++ ' ' :: foldBreaks r.message.toList)).chars := by
  have hsp : foldChar ' ' = [' '] := by decide
  have hnil : (r.headerChars ++ ' ' :: []).any isLineBreak = false := by
    rw [chars_header h.inRange]
    exact (formed_header h []).noBreak rfl
  have hhead : foldBreaks r.headerChars = r.headerChars := by
    rw [List.any_append, Bool.or_eq_false_iff] at hnil
    exact foldBreaks_of_noBreak hnil.1
  rw [← chars_header h.inRange]
  unfold lineChars dataText
  rw [foldBreaks_append, foldBreaks_append, foldBreaks_cons, foldBreaks_cons, hhead, hsp]
  simp

end Record

/-! ## Elements -/

namespace Line

/-- A metric value as it comes back from a line. -/
def wireValue (x : Binary64) : Binary64 := (readBinary64 (valueText x).toList).getD x

/-- A metric value is read back from its text, whatever it is. -/
theorem readBinary64_valueText_eq (x : Binary64) :
    readBinary64 (valueText x).toList = some (wireValue x) := by
  obtain ⟨y, hy⟩ := readBinary64_valueText x
  unfold wireValue
  rw [hy, Option.getD_some]

end Line

/-- An audit element as it comes back from a line. -/
def AuditElement.relayed (a : AuditElement) : AuditElement :=
  ⟨foldText a.actor, foldText a.action, foldText a.actee⟩

/-- A metric element as it comes back from a line. -/
def MetricElement.relayed (m : MetricElement) : MetricElement :=
  ⟨foldText m.name, wireValue m.value, foldText m.object⟩

/-- The audit element that a line shows. -/
theorem folded_audit (a : AuditElement) : a.element.folded = ⟨auditId,
    [("Actor", foldText a.actor), ("Action", foldText a.action), ("Actee", foldText a.actee)]⟩ := by
  have hid : foldText auditId = auditId := foldText_of_noBreak (by decide)
  have h1 : foldText "Actor" = "Actor" := foldText_of_noBreak (by decide)
  have h2 : foldText "Action" = "Action" := foldText_of_noBreak (by decide)
  have h3 : foldText "Actee" = "Actee" := foldText_of_noBreak (by decide)
  simp [AuditElement.element, Element.folded, hid, h1, h2, h3]

/-- The metric element that a line shows. -/
theorem folded_metric (m : MetricElement) : m.element.folded = ⟨metricId,
    [("Name", foldText m.name), ("Value", valueText m.value), ("Object", foldText m.object)]⟩ := by
  have hid : foldText metricId = metricId := foldText_of_noBreak (by decide)
  have h1 : foldText "Name" = "Name" := foldText_of_noBreak (by decide)
  have h2 : foldText "Value" = "Value" := foldText_of_noBreak (by decide)
  have h3 : foldText "Object" = "Object" := foldText_of_noBreak (by decide)
  have hv : foldText (valueText m.value) = valueText m.value :=
    foldText_of_noBreak (any_isLineBreak_of_isBlank (isBlank_of_mem_valueText m.value))
  simp [MetricElement.element, Element.folded, hid, h1, h2, h3, hv]

theorem own_folded_audit (a : AuditElement) : a.element.folded.Own := by
  have hid : IsName auditId.toList := by decide
  have hnames : ∀ name ∈ ["Actor", "Action", "Actee"], IsName name.toList := by decide
  have hnodup : ["Actor", "Action", "Actee"].Nodup := by decide
  rw [folded_audit]
  exact {
    id := hid
    params := ⟨fun p hp => hnames p.1 (List.mem_map_of_mem hp), hnodup⟩
    own := .inl rfl
    params_ne := List.cons_ne_nil _ _ }

theorem own_folded_metric (m : MetricElement) : m.element.folded.Own := by
  have hid : IsName metricId.toList := by decide
  have hnames : ∀ name ∈ ["Name", "Value", "Object"], IsName name.toList := by decide
  have hnodup : ["Name", "Value", "Object"].Nodup := by decide
  rw [folded_metric]
  exact {
    id := hid
    params := ⟨fun p hp => hnames p.1 (List.mem_map_of_mem hp), hnodup⟩
    own := .inr rfl
    params_ne := List.cons_ne_nil _ _ }

/-- A shown audit element is taken note of. -/
theorem add_folded_audit (k : Known) (a : AuditElement) :
    k.add a.element.folded = .ok { k with audit := some a.relayed } := by
  rw [folded_audit]
  rfl

/-- A shown metric element is taken note of. -/
theorem add_folded_metric (k : Known) (m : MetricElement) :
    k.add m.element.folded = .ok { k with metric := some m.relayed } := by
  have hne : metricId ≠ auditId := by decide
  have hvalue : paramText [("Name", foldText m.name), ("Value", valueText m.value),
      ("Object", foldText m.object)] "Value" "0" = valueText m.value := rfl
  rw [folded_metric]
  unfold Known.add metricOfParams
  rw [if_neg hne, if_pos rfl]
  simp only [hvalue, readBinary64_valueText_eq]
  rfl

namespace Record

/-- The elements of a record are the library's own. -/
theorem own_of_mem_shownElements {r : Record} : ∀ e ∈ r.shownElements, e.Own := by
  intro e he
  obtain ⟨d, hd, rfl⟩ := List.mem_map.mp he
  cases List.mem_append.mp hd with
  | inl hd =>
    obtain ⟨a, -, rfl⟩ := Option.map_eq_some_iff.mp (Option.mem_toList.mp hd)
    exact own_folded_audit a
  | inr hd =>
    obtain ⟨m, -, rfl⟩ := Option.map_eq_some_iff.mp (Option.mem_toList.mp hd)
    exact own_folded_metric m

/-- What is known from the elements that a line shows. -/
def known (r : Record) : Known :=
  ⟨r.audit.map AuditElement.relayed, r.metric.map MetricElement.relayed⟩

/-- What the elements of a line make known is what the record carried. -/
theorem ofElements_shownElements (r : Record) :
    Known.ofElements {} r.shownElements = .ok r.known := by
  unfold shownElements elements known
  cases r.audit with
  | none =>
    cases r.metric with
    | none => rfl
    | some m => simp [Known.ofElements, add_folded_metric]
  | some a =>
    cases r.metric with
    | none => simp [Known.ofElements, add_folded_audit]
    | some m => simp [Known.ofElements, add_folded_audit, add_folded_metric]

/-- Written elements begin with a bracket, so that what is read there is elements. -/
theorem dataAt_dataText_iff {r : Record} (h : r.elements ≠ []) {s tail : List Char}
    {es : List Element} :
    DataAt (r.dataText ++ s) es tail ↔ scanData (r.dataText ++ s) = .ok (es, tail) := by
  have hne : r.shownElements ≠ [] := by simpa [shownElements] using h
  obtain ⟨e, es', hes⟩ := List.exists_cons_of_ne_nil hne
  obtain ⟨t, ht⟩ := join_eq_append e es'
  have hopen : r.dataText ++ s = '[' :: (e.body ++ t ++ s) := by
    rw [dataText_of_ne h, hes, ht, Element.write_eq]
    simp
  rw [hopen]
  constructor
  · intro hd
    cases hd with
    | elements hs => exact hs
  · exact .elements

/-- Behind the written elements reading goes on. -/
theorem scanData_dataText {r : Record} (h : r.elements ≠ []) (s : List Char) :
    scanData (r.dataText ++ s)
      = (scanElements true s).map fun p => (r.shownElements ++ p.1, p.2) := by
  have hne : r.shownElements ≠ [] := by simpa [shownElements] using h
  rw [dataText_of_ne h]
  exact scanElements_join (fun e he => own_of_mem_shownElements e he) hne false s

end Record

/-! ## Texts -/

namespace Line

/-- A text that begins like one of the library's own elements. -/
def beginsOwn (s : List Char) : Bool := ownStarts.any fun start => ('[' :: start).isPrefixOf s

/-- Behind an element and a space such a text is taken for an element, and no other is. -/
theorem opening?_space_eq_none_iff {s : List Char} :
    opening? true (' ' :: s) = none ↔ beginsOwn s = false := by
  cases s with
  | nil => exact iff_of_true rfl (by decide)
  | cons c r =>
    by_cases hc : c = '['
    · subst hc
      show (if true && startsOwn r then some r else none) = none ↔ startsOwn r = false
      cases startsOwn r <;> simp
    · have hbegin : beginsOwn (c :: r) = false := by
        unfold beginsOwn
        rw [List.any_eq_false]
        intro start _
        rw [List.isPrefixOf_cons_cons, beq_false_of_ne (Ne.symm hc)]
        simp
      rw [hbegin]
      exact iff_of_true (by unfold opening?; simp [hc]) rfl

/-- Folding does not make or unmake a beginning without line breaks. -/
theorem isPrefixOf_foldBreaks {front : List Char}
    (hf : ∀ c ∈ front, c ≠ '#' ∧ isLineBreak c = false) (s : List Char) :
    front.isPrefixOf (foldBreaks s) = front.isPrefixOf s := by
  induction front generalizing s with
  | nil => simp
  | cons c front ih =>
    obtain ⟨hsharp, hbreak⟩ := hf c List.mem_cons_self
    cases s with
    | nil => rfl
    | cons d s =>
      rw [foldBreaks_cons]
      by_cases hd : isLineBreak d = true
      · have hne : c ≠ d := by
          rintro rfl
          rw [hbreak] at hd
          contradiction
        have hfold : ∃ t, foldChar d = '#' :: t := by
          rcases eq_of_isLineBreak hd with rfl | rfl
          · exact ⟨"015".toList, by decide⟩
          · exact ⟨"012".toList, by decide⟩
        obtain ⟨t, ht⟩ := hfold
        rw [ht, List.cons_append, List.isPrefixOf_cons_cons, List.isPrefixOf_cons_cons]
        rw [beq_false_of_ne hsharp, beq_false_of_ne hne, Bool.false_and, Bool.false_and]
      · rw [foldChar_of_not_isLineBreak (by simpa using hd), List.singleton_append,
          List.isPrefixOf_cons_cons, List.isPrefixOf_cons_cons,
          ih fun c hc => hf c (List.mem_cons_of_mem _ hc)]

/-- Folding does not make a text begin like an own element, or cease to. -/
theorem beginsOwn_foldBreaks (s : List Char) : beginsOwn (foldBreaks s) = beginsOwn s := by
  have hplain : ∀ start ∈ ownStarts,
      ('[' :: start).all (fun c => decide (c ≠ '#' ∧ isLineBreak c = false)) = true := by decide
  unfold beginsOwn
  rw [Bool.eq_iff_iff, List.any_eq_true, List.any_eq_true]
  exact exists_congr fun start => and_congr_right fun hs => by
    rw [isPrefixOf_foldBreaks (forall_mem_of_all (hplain start hs))]

end Line

namespace Record

def layout (r : Record) : Layout where
  header := r.header (r.dataText ++ ' ' :: foldBreaks r.message.toList)
  elements := r.shownElements
  tail := ' ' :: foldBreaks r.message.toList

/-- The record as it comes back from its line. -/
def received (r : Record) : Record where
  facility := r.facility
  severity := r.severity
  version := r.version
  timestamp := fieldTimestamp (wireTimestamp r.timestamp).toList
  hostName := unNil (orNil r.hostName).toList
  application := unNil (orNil r.application).toList
  process := unNil (orNil r.process).toList
  messageId := unNil (orNil r.messageId).toList
  audit := r.audit.map AuditElement.relayed
  metric := r.metric.map MetricElement.relayed
  message := String.ofList (dropMark (foldBreaks r.message.toList))

/-- A text stays a text behind nil data, and if it does not begin like an element. -/
def HasText (r : Record) : Prop := r.elements = [] ∨ beginsOwn r.message.toList = false

/-- The data stands where the layout says. -/
theorem dataAt_layout {r : Record} (h : r.HasText) :
    DataAt r.layout.header.rest r.layout.elements r.layout.tail := by
  show DataAt (r.dataText ++ ' ' :: foldBreaks r.message.toList) r.shownElements
    (' ' :: foldBreaks r.message.toList)
  by_cases he : r.elements = []
  · have hnil : r.shownElements = [] := by simp [shownElements, he]
    rw [dataText_of_nil he, hnil]
    exact .nil _
  · have htext : beginsOwn (foldBreaks r.message.toList) = false := by
      rw [beginsOwn_foldBreaks]
      exact h.resolve_left he
    have hscan : scanData (r.dataText ++ ' ' :: foldBreaks r.message.toList)
        = .ok (r.shownElements, ' ' :: foldBreaks r.message.toList) := by
      rw [scanData_dataText he, scanElements_of_none (opening?_space_eq_none_iff.mpr htext)]
      simp [Except.map]
    exact (dataAt_dataText_iff he).mpr hscan

/-- The line of a record has its layout. -/
theorem isOf_layout {r : Record} (hh : r.HasHeader) (ht : r.HasText) :
    r.layout.IsOf r.lineChars where
  chars := lineChars_eq hh
  formed := formed_header hh _
  priority := by
    show decimalValue (digitsOf r.priority.toNat) ≤ maxPriority
    rw [decimalValue_digitsOf]
    exact (toNat_priority hh.inRange).2
  timestamp := readable_wireTimestamp r.timestamp
  data := dataAt_layout ht
  values := exists_ofElements_iff.mp ⟨r.known, ofElements_shownElements r⟩
  tail := .inr ⟨_, rfl⟩

/-- Behind the header of a record the header comes back, whatever data and text were read. -/
theorem record_header {r : Record} (h : r.HasHeader) (rest : List Char) (es : List Element)
    (tail : List Char) (k : Known) : (Layout.mk (r.header rest) es tail).record k =
      { r.received with
        audit := k.audit, metric := k.metric, message := String.ofList (dropMark (tail.drop 1)) } := by
  have hs := h.severity
  have hp := toNat_priority h.inRange
  have hv := h.version
  have hversion : ((decimalValue (digitsOf r.version.toNat) : Nat) : Int) = r.version := by
    rw [decimalValue_digitsOf]
    omega
  have hfacility : ((decimalValue (digitsOf r.priority.toNat) / 8 : Nat) : Int) = r.facility := by
    rw [decimalValue_digitsOf]
    omega
  have hseverity : ((decimalValue (digitsOf r.priority.toNat) % 8 : Nat) : Int) = r.severity := by
    rw [decimalValue_digitsOf]
    omega
  unfold Layout.record received header
  rw [hversion, hfacility, hseverity]
  rfl

/-- A line has no line break at its end to be taken off. -/
theorem lineOf_line (r : Record) : lineOf r.line = r.lineChars := by
  unfold lineOf line
  rw [String.toList_ofList]
  exact trimEnd_eq_self fun c hc => by
    simpa using List.any_eq_false.mp r.lineChars_noBreak c hc

/-- The line of a record is read back, line breaks folded and values as they were written. -/
theorem ofLine_line {r : Record} (hh : r.HasHeader) (ht : r.HasText) :
    ofLine r.line = .ok r.received := by
  rw [ofLine_eq_ok_iff, lineOf_line]
  exact ⟨r.layout, r.known, isOf_layout hh ht, ofElements_shownElements r,
    (record_header hh _ _ r.layout.tail r.known).symm⟩

/-- The record is written, and its line is read as the other one. -/
def ComesBackAs (r m : Record) : Prop := ∃ line, r.written = .ok line ∧ ofLine line = .ok m

/-- A record with a header and a text comes back as it is received. -/
theorem comesBackAs_received {r : Record} (hh : r.HasHeader) (ht : r.HasText) :
    r.ComesBackAs r.received :=
  ⟨r.line, (written_eq_ok_iff r _).mpr ⟨hasLine_of_hasHeader hh, rfl⟩, ofLine_line hh ht⟩

/-- A record comes back in one way only. -/
theorem ComesBackAs.unique {r m m' : Record} (h : r.ComesBackAs m) (h' : r.ComesBackAs m') :
    m = m' := by
  obtain ⟨line, hw, hl⟩ := h
  obtain ⟨line', hw', hl'⟩ := h'
  obtain rfl := Except.ok.inj (hw.symm.trans hw')
  exact Except.ok.inj (hl.symm.trans hl')

end Record

end Logwire
