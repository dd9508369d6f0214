import Logwire.Proofs.Line.Written

/-!
# Logwire.Proofs.Line.RoundTrip

Records through lines, and lines through records.

A record comes back from its line as `relayed`: the line breaks of its texts
folded and its metric value as it was written.  Two kinds of record come back
so.

* `comesBackAs_self` — a `Transmissible` record, in which nothing is folded,
  comes back as it is;
* `comesBackAs_of_ofLine` — a record that was read from a line, whatever the
  line, goes on to the next line and comes back the same but for folded line
  breaks.
-/

namespace Logwire

open Line Number Text Time

/-! ## What comes back -/

namespace Record

/-- The record with its texts folded and its metric value rounded to the places of a line. -/
def relayed (r : Record) : Record where
  facility := r.facility
  severity := r.severity
  version := r.version
  timestamp := r.timestamp
  hostName := r.hostName
  application := r.application
  process := r.process
  messageId := r.messageId
  audit := r.audit.map AuditElement.relayed
  metric := r.metric.map MetricElement.relayed
  message := foldText r.message

end Record

/-- A text without a byte order mark stays as it is. -/
theorem Line.dropMark_of_head? {s : List Char} (h : s.head? ≠ some byteOrderMark) :
    dropMark s = s := by
  cases s with
  | nil => rfl
  | cons c s =>
    have hc : c ≠ byteOrderMark := fun e => h (by rw [e, List.head?_cons])
    exact if_neg hc

/-- Folding does not bring a byte order mark to the front. -/
theorem Line.head?_foldBreaks_ne {s : List Char} (h : s.head? ≠ some byteOrderMark) :
    (foldBreaks s).head? ≠ some byteOrderMark := by
  have hplain : ∀ c ∈ [byteOrderMark], c ≠ '#' ∧ isLineBreak c = false :=
    forall_mem_of_all (by decide)
  have hiff : ∀ t : List Char, t.head? = some byteOrderMark ↔ [byteOrderMark].isPrefixOf t = true := by
    intro t
    cases t with
    | nil => simp
    | cons c t =>
      rw [List.head?_cons, Option.some.injEq, List.isPrefixOf_cons_cons, List.isPrefixOf_nil_left,
        Bool.and_true, beq_iff_eq]
      exact eq_comm
  rw [Ne, hiff, isPrefixOf_foldBreaks hplain, ← hiff]
  exact h

namespace Record

/-- Without nil among the fields and a mark in front of the text, nothing else changes. -/
theorem received_eq_relayed {r : Record} (hh : r.HasPlainHeader)
    (hf : ∀ s ∈ [r.hostName, r.application, r.process, r.messageId], s ≠ nilText)
    (hm : r.message.toList.head? ≠ some byteOrderMark) : r.received = r.relayed := by
  have hstamp : fieldTimestamp (wireTimestamp r.timestamp).toList = r.timestamp := by
    cases hh.timestamp with
    | inl h => rw [h, fieldTimestamp_empty]
    | inr h => exact fieldTimestamp_of_isSyslogTimestamp h.1
  simp only [List.forall_mem_cons] at hf
  obtain ⟨h1, h2, h3, h4, -⟩ := hf
  unfold received relayed
  rw [hstamp, unNil_orNil h1, unNil_orNil h2, unNil_orNil h3, unNil_orNil h4,
    dropMark_of_head? (head?_foldBreaks_ne hm), ← toList_foldText, String.ofList_toList]

/-- So such a record comes back relayed, if its text stays a text. -/
theorem comesBackAs_relayed {r : Record} (hh : r.HasPlainHeader) (ht : r.HasText)
    (hf : ∀ s ∈ [r.hostName, r.application, r.process, r.messageId], s ≠ nilText)
    (hm : r.message.toList.head? ≠ some byteOrderMark) : r.ComesBackAs r.relayed := by
  have hback := comesBackAs_received hh.hasHeader ht
  rwa [received_eq_relayed hh hf hm] at hback

/-! ## Records on the wire -/

/-- A record that a line can carry as it is. -/
structure Transmissible (r : Record) : Prop extends HasPlainHeader r where
  nil : ∀ s ∈ [r.hostName, r.application, r.process, r.messageId], s ≠ nilText
  audit : ∀ a, r.audit = some a → hasLineBreak a.actor = false ∧ hasLineBreak a.action = false ∧
    hasLineBreak a.actee = false
  metric : ∀ m, r.metric = some m → hasLineBreak m.name = false ∧ hasLineBreak m.object = false ∧
    readBinary64 (valueText m.value).toList = some m.value
  message : hasLineBreak r.message = false
  mark : r.message.toList.head? ≠ some byteOrderMark
  text : r.audit ≠ none ∨ r.metric ≠ none → beginsOwn r.message.toList = false

namespace Transmissible

variable {r : Record}

/-- The message of such a record is not taken for an element. -/
theorem hasText (h : r.Transmissible) : r.HasText := by
  by_cases he : r.elements = []
  · exact .inl he
  · rw [elements_eq_nil_iff, not_and_or] at he
    exact .inr (h.text he)

/-- Nothing in such a record is folded or rounded. -/
theorem relayed_eq (h : r.Transmissible) : r.relayed = r := by
  have haudit : r.audit.map AuditElement.relayed = r.audit := by
    cases hr : r.audit with
    | none => rfl
    | some a =>
      obtain ⟨h1, h2, h3⟩ := h.audit a hr
      rw [Option.map_some, AuditElement.relayed, foldText_of_noBreak h1, foldText_of_noBreak h2,
        foldText_of_noBreak h3]
  have hmetric : r.metric.map MetricElement.relayed = r.metric := by
    cases hr : r.metric with
    | none => rfl
    | some m =>
      obtain ⟨h1, h2, h3⟩ := h.metric m hr
      have hv : wireValue m.value = m.value := by
        rw [readBinary64_valueText_eq] at h3
        exact Option.some.inj h3
      rw [Option.map_some, MetricElement.relayed, foldText_of_noBreak h1, foldText_of_noBreak h2, hv]
  unfold relayed
  rw [haudit, hmetric, foldText_of_noBreak h.message]

end Transmissible

/-- **A transmissible record comes back as itself.** -/
theorem comesBackAs_self (r : Record) (h : r.Transmissible) : r.ComesBackAs r := by
  have hback := comesBackAs_relayed h.toHasPlainHeader h.hasText h.nil h.mark
  rwa [h.relayed_eq] at hback

/-- A record with both elements, and with brackets, quotes and backslashes in its texts. -/
def bracketed : Record where
  facility := 23
  severity := 7
  version := 99
  timestamp := "2024-02-29T23:59:59.123456+05:30"
  hostName := "node-1"
  application := ""
  process := "4711"
  messageId := "ID[47]"
  audit := some ⟨"a \"quoted\" name", "C:\\logs\\", "[pzmetric@48851 Value=\"1\"]"⟩
  metric := some ⟨"", .ofBits 0xc004000000000000, "\\\"]"⟩
  message := " [pzaudit@48851 Actor=\"x\"] and more"

theorem comesBackAs_bracketed : bracketed.Transmissible ∧ bracketed.ComesBackAs bracketed := by
  have h : bracketed.Transmissible := {
    severity := by decide
    facility := by decide
    version := by decide
    timestamp := by decide
    fields := by decide
    nil := by decide
    audit := by rintro a ⟨⟩; decide
    metric := by rintro m ⟨⟩; decide
    message := by decide
    mark := by decide
    text := by decide }
  exact ⟨h, comesBackAs_self bracketed h⟩

end Record

/-! ## Lines that were read -/

namespace Line

/-- No field is read as nil. -/
theorem unNil_ne_nilText (field : List Char) : unNil field ≠ nilText := by
  unfold unNil
  split
  · decide
  · next h => exact fun e => h (by rw [← e, String.toList_ofList])

/-- A field is read as a token. -/
theorem isToken_unNil {field : List Char} (h : IsField field) : IsToken (unNil field) := by
  unfold unNil IsToken
  split
  · exact fun _ hc => nomatch hc
  · rw [String.toList_ofList]
    exact h.2

/-- A timestamp without blanks is written on one line. -/
theorem hasLineBreak_wireTimestamp {text : String} (h : ∀ c ∈ text.toList, isBlank c = false) :
    hasLineBreak (wireTimestamp text) = false := by
  have hnil : hasLineBreak nilText = false := by decide
  unfold wireTimestamp
  by_cases hs : isSyslogTimestamp text = true
  · rw [if_pos hs]
    exact any_isLineBreak_of_isBlank h
  · rw [if_neg hs]
    cases hp : parseRfc3339 text with
    | error e => exact hnil
    | ok m => exact hasLineBreak_format (readable_of_parseRfc3339 hp)

/-- A timestamp that was read is kept in the form in which it goes on the wire. -/
theorem fieldTimestamp_eq_or {field : List Char} (hf : IsField field)
    (h : field = ['-'] ∨ isRfc3339 (String.ofList field) = true) :
    fieldTimestamp field = "" ∨
      isSyslogTimestamp (fieldTimestamp field) = true ∧ hasLineBreak (fieldTimestamp field) = false := by
  unfold fieldTimestamp
  by_cases hnil : field = ['-']
  · exact .inl (if_pos hnil)
  · have hread := h.resolve_left hnil
    rw [← wireTimestamp_ne_nilText_iff] at hread
    have hblank : ∀ c ∈ (String.ofList field).toList, isBlank c = false := by
      rw [String.toList_ofList]
      exact hf.2
    rw [if_neg hnil]
    exact .inr ⟨(wireTimestamp_eq_or _).resolve_left hread, hasLineBreak_wireTimestamp hblank⟩

/-- No element opens behind elements that were read. -/
theorem DataAt.opening?_eq_none {s tail : List Char} {es : List Element} (h : DataAt s es tail)
    (hes : es ≠ []) : opening? true tail = none := by
  cases h with
  | nil => contradiction
  | elements hs =>
    have ho := opening?_of_scanElements hs
    have hne : es.isEmpty = false := by simpa using hes
    rwa [hne] at ho

namespace Layout

variable {l : Layout} {s : List Char} {k : Known}

/-- The header of a record that was read can be shown as it is. -/
theorem hasPlainHeader_record (hl : l.IsOf s) : (l.record k).HasPlainHeader := by
  have hf := hl.formed
  have hp : decimalValue l.header.priority ≤ 191 := hl.priority
  have hv : decimalValue l.header.version < 10 ^ 2 :=
    Nat.lt_of_lt_of_le (decimalValue_lt _) (Nat.pow_le_pow_right (by decide) hf.version.2.2)
  have hfields : ∀ s ∈ [unNil l.header.hostName, unNil l.header.application,
      unNil l.header.process, unNil l.header.messageId], IsToken s := by
    simp only [List.forall_mem_cons]
    exact ⟨isToken_unNil hf.hostName, isToken_unNil hf.application, isToken_unNil hf.process,
      isToken_unNil hf.messageId, fun _ h => nomatch h⟩
  exact {
    severity := by simp only [record]; omega
    facility := by simp only [record]; omega
    version := by simp only [record]; omega
    timestamp := fieldTimestamp_eq_or hf.timestamp hl.timestamp
    fields := hfields }

/-- A text that was read stays a text. -/
theorem hasText_record (hl : l.IsOf s) (hk : Known.ofElements {} l.elements = .ok k)
    (hmark : l.text.head? ≠ some byteOrderMark) : (l.record k).HasText := by
  by_cases hes : l.elements = []
  · rw [hes] at hk
    obtain rfl := Except.ok.inj hk
    exact .inl rfl
  · have ho := hl.data.opening?_eq_none hes
    have hmessage : (l.record k).message.toList = l.text := by
      show (String.ofList (dropMark l.text)).toList = l.text
      rw [String.toList_ofList, dropMark_of_head? hmark]
    refine .inr ?_
    rw [hmessage]
    unfold text
    rcases hl.tail with htail | ⟨t, htail⟩
    · rw [htail]
      rfl
    · rw [htail] at ho ⊢
      exact opening?_space_eq_none_iff.mp ho

end Layout

end Line

namespace Record

/-- **A record that was read** from any line comes back the same, but that its texts have `#015` for
each carriage return and `#012` for each line feed, and that the value of its metric element is the
one that was written. -/
theorem comesBackAs_of_ofLine {text : String} {m : Record} {l : Layout} (hm : ofLine text = .ok m)
    (hl : l.IsOf (lineOf text)) (hmark : l.text.head? ≠ some byteOrderMark) :
    m.ComesBackAs m.relayed := by
  obtain ⟨k, hk⟩ := hl.exists_known
  have hrecord : ofLine text = .ok (l.record k) := ofLine_eq_ok_iff.mpr ⟨l, k, hl, hk, rfl⟩
  obtain rfl : m = l.record k := Except.ok.inj (hm.symm.trans hrecord)
  have hnil : ∀ s ∈ [unNil l.header.hostName, unNil l.header.application,
      unNil l.header.process, unNil l.header.messageId], s ≠ nilText := by
    simp only [List.forall_mem_cons]
    exact ⟨unNil_ne_nilText _, unNil_ne_nilText _, unNil_ne_nilText _, unNil_ne_nilText _,
      fun _ h => nomatch h⟩
  have hfront : (l.record k).message.toList.head? ≠ some byteOrderMark := by
    show (String.ofList (dropMark l.text)).toList.head? ≠ some byteOrderMark
    rw [String.toList_ofList, dropMark_of_head? hmark]
    exact hmark
  exact comesBackAs_relayed (Layout.hasPlainHeader_record hl)
    (Layout.hasText_record hl hk hmark) hnil hfront

/-- A line from elsewhere: digits too many, an unknown element, elements side by side, line breaks. -/
def foreignLine : String :=
  "<007>01 2024-02-29t23:59:59.1234567z - app - - [x@1][pzmetric@48851 Value=\"1e3\"]" ++
    "[pzaudit@48851 Action=\"two\nlines\"] [x@1] text\r\n"

def foreignElements : List Element :=
  [⟨"x@1", []⟩, ⟨metricId, [("Value", "1e3")]⟩, ⟨auditId, [("Action", "two\nlines")]⟩]

def foreignLayout : Layout where
  header := {
    priority := "007".toList
    version := "01".toList
    timestamp := "2024-02-29t23:59:59.1234567z".toList
    hostName := ['-']
    application := "app".toList
    process := ['-']
    messageId := ['-']
    rest := foreignElements.flatMap Element.write ++ " [x@1] text".toList }
  elements := foreignElements
  tail := " [x@1] text".toList

theorem known_foreignElements : Known.ofElements {} foreignElements = .ok
    ⟨some ⟨"", "two\nlines", ""⟩, some ⟨"", .ofBits 0x408f400000000000, ""⟩⟩ := by
  decide

theorem isOf_foreignLayout : foreignLayout.IsOf (lineOf foreignLine) := by
  have hnames : ∀ e ∈ foreignElements, IsName e.id.toList ∧ (∀ p ∈ e.params, IsName p.1.toList) ∧
      (Members.names e.params).Nodup := by decide
  have hdata : scanData foreignLayout.header.rest = .ok (foreignElements, foreignLayout.tail) := by
    have hrest := scanElements_flatMap (fun e he => ⟨(hnames e he).1, (hnames e he).2⟩)
      (List.cons_ne_nil _ _) false " [x@1] text".toList
    rw [scanElements_of_none (by rfl : opening? true " [x@1] text".toList = none)] at hrest
    exact hrest
  exact {
    chars := by decide +kernel
    formed := ⟨by decide, by decide, by decide, by decide, by decide, by decide, by decide⟩
    priority := by decide
    timestamp := .inr (by decide)
    data := .elements hdata
    values := exists_ofElements_iff.mp ⟨_, known_foreignElements⟩
    tail := .inr ⟨_, rfl⟩ }

theorem comesBackAs_of_foreignLine : ∃ m, ofLine foreignLine = .ok m ∧
    foreignLayout.IsOf (lineOf foreignLine) ∧ foreignLayout.text.head? ≠ some byteOrderMark ∧
    m.ComesBackAs m.relayed := by
  have hl := isOf_foreignLayout
  have hmark : foreignLayout.text.head? ≠ some byteOrderMark := by decide
  have hm := ofLine_eq_ok_iff.mpr ⟨_, _, hl, known_foreignElements, rfl⟩
  exact ⟨_, hm, hl, hmark, comesBackAs_of_ofLine hm hl hmark⟩

end Record

end Logwire
