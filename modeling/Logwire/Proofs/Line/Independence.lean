import Logwire.Proofs.Line.Written

/-!
# Logwire.Proofs.Line.Independence

Which texts leave the rest of a record alone.

Two texts `ReadAlike` when no record that carries an element tells them apart:
written with the one or with the other it is read back with the same header and
the same elements.  Behind an element a text that begins like one of the
library's own is taken for an element, and what is read of it replaces what was
written.  So a text reads like an ordinary one exactly if it does not begin so:
`readAlike_iff`.  The header comes back in any case:
`ComesBackAs.exists_elements`.
-/

namespace Logwire

open Line Number Text Time

/-! ## What was known before -/

namespace Line.Known

variable {k k' k₁ k₁' : Known}

/-- An element replaces what was known of its kind, and nothing else. -/
theorem add_congr {e : Element} (h : k.add e = .ok k₁) (h' : k'.add e = .ok k₁') :
    (k.audit = k'.audit ∨ e.id = auditId → k₁.audit = k₁'.audit) ∧
      (k.metric = k'.metric ∨ e.id = metricId → k₁.metric = k₁'.metric) := by
  have hne : auditId ≠ metricId := by decide
  unfold add at h h'
  by_cases ha : e.id = auditId
  · rw [if_pos ha] at h h'
    obtain rfl := Except.ok.inj h
    obtain rfl := Except.ok.inj h'
    exact ⟨fun _ => rfl, fun hm => hm.resolve_right fun e => hne (ha.symm.trans e)⟩
  · rw [if_neg ha] at h h'
    by_cases hm : e.id = metricId
    · rw [if_pos hm] at h h'
      cases hp : metricOfParams e.params with
      | error f => rw [hp] at h; cases h
      | ok m =>
        rw [hp] at h h'
        obtain rfl := Except.ok.inj h
        obtain rfl := Except.ok.inj h'
        exact ⟨fun hk => hk.resolve_right ha, fun _ => rfl⟩
    · rw [if_neg hm] at h h'
      obtain rfl := Except.ok.inj h
      obtain rfl := Except.ok.inj h'
      exact ⟨fun hk => hk.resolve_right ha, fun hk => hk.resolve_right hm⟩

/-- A row of elements makes what was known of a kind irrelevant if it has one of that kind. -/
theorem ofElements_congr {es : List Element} (h : ofElements k es = .ok k₁)
    (h' : ofElements k' es = .ok k₁') :
    (k.audit = k'.audit ∨ (∃ e ∈ es, e.id = auditId) → k₁.audit = k₁'.audit) ∧
      (k.metric = k'.metric ∨ (∃ e ∈ es, e.id = metricId) → k₁.metric = k₁'.metric) := by
  induction es generalizing k k' with
  | nil =>
    obtain rfl := Except.ok.inj h
    obtain rfl := Except.ok.inj h'
    simp
  | cons e es ih =>
    obtain ⟨j, hj, hes⟩ := ofElements_cons.mp h
    obtain ⟨j', hj', hes'⟩ := ofElements_cons.mp h'
    obtain ⟨haudit, hmetric⟩ := add_congr hj hj'
    obtain ⟨ihaudit, ihmetric⟩ := ih hes hes'
    simp only [List.exists_mem_cons_iff, ← or_assoc]
    exact ⟨fun hk => ihaudit (hk.imp_left haudit), fun hk => ihmetric (hk.imp_left hmetric)⟩

/-- Elements behind others are added to what those have made known. -/
theorem ofElements_append {es es' : List Element} (h : ofElements k es = .ok k₁) :
    ofElements k (es ++ es') = ofElements k₁ es' := by
  induction es generalizing k with
  | nil => rw [Except.ok.inj h, List.nil_append]
  | cons e es ih =>
    obtain ⟨j, hj, hes⟩ := ofElements_cons.mp h
    rw [List.cons_append, ofElements, hj]
    exact ih hes

end Line.Known

/-! ## Texts that are taken for elements -/

namespace Line

theorem id_of_scanElement {s rest : List Char} {e : Element} (h : scanElement s = .ok (e, rest)) :
    e.id = String.ofList (scanName s).1 := by
  unfold scanElement at h
  split at h
  · contradiction
  · dsimp only at h
    split at h
    · contradiction
    · obtain ⟨rfl, -⟩ := Prod.mk.inj (Except.ok.inj h)
      rfl

/-- A text that begins like an own element is read as a row with one. -/
theorem exists_own_of_beginsOwn {s rest : List Char} {es : List Element}
    (hb : beginsOwn s = true) (h : scanElements true (' ' :: s) = .ok (es, rest)) :
    ∃ e ∈ es, e.id = auditId ∨ e.id = metricId := by
  have hname : ∀ id ∈ [auditId, metricId], IsName id.toList := by decide
  obtain ⟨id, hid, t, rfl⟩ : ∃ id ∈ [auditId, metricId], ∃ t, s = '[' :: (id.toList ++ ' ' :: t) := by
    unfold beginsOwn ownStarts at hb
    simp only [List.any_cons, List.any_nil, Bool.or_false, Bool.or_eq_true,
      List.isPrefixOf_iff_prefix] at hb
    rcases hb with ⟨t, ht⟩ | ⟨t, ht⟩
    · exact ⟨auditId, by simp, t, by rw [← ht]; simp⟩
    · exact ⟨metricId, by simp, t, by rw [← ht]; simp⟩
  have ho : opening? true (' ' :: '[' :: (id.toList ++ ' ' :: t)) = some (id.toList ++ ' ' :: t) := by
    cases hr : opening? true (' ' :: '[' :: (id.toList ++ ' ' :: t)) with
    | none =>
      rw [opening?_space_eq_none_iff, hb] at hr
      contradiction
    | some r =>
      unfold opening? at hr
      exact (Option.ite_none_right_eq_some.mp hr).2.symm
  rw [scanElements_of_some ho] at h
  cases he : scanElement (id.toList ++ ' ' :: t) with
  | error f => rw [he] at h; contradiction
  | ok p =>
    obtain ⟨e, u⟩ := p
    have heid : e.id = id := by
      rw [id_of_scanElement he, scanName_append_cons (hname id hid) (by decide), String.ofList_toList]
    rw [he] at h
    change (scanElements true u).map (consElement e) = _ at h
    cases hu : scanElements true u with
    | error f => rw [hu] at h; contradiction
    | ok q =>
      rw [hu] at h
      obtain ⟨rfl, -⟩ := Prod.mk.inj (Except.ok.inj h)
      exact ⟨e, List.mem_cons_self, by simpa [heid] using hid⟩

end Line

namespace Record

/-- Of data that begins with the elements of a record the rest is read after them. -/
theorem eq_shownElements_append {r : Record} (h : r.elements ≠ []) {s tail : List Char}
    {es : List Element} (hd : DataAt (r.dataText ++ s) es tail) :
    ∃ es', es = r.shownElements ++ es' ∧ scanElements true s = .ok (es', tail) := by
  rw [dataAt_dataText_iff h, scanData_dataText h] at hd
  cases hs : scanElements true s with
  | error f => rw [hs] at hd; contradiction
  | ok p =>
    rw [hs] at hd
    obtain ⟨rfl, rfl⟩ := Prod.mk.inj (Except.ok.inj hd)
    exact ⟨p.1, rfl, rfl⟩

/-- **What comes back of a record**, whatever its text: the header, and the elements that were
written with those that are read in the text after them. -/
theorem ComesBackAs.exists_elements {r m : Record} (hm : r.ComesBackAs m) (hh : r.HasHeader)
    (he : r.elements ≠ []) : ∃ es rest k,
      scanElements true (' ' :: foldBreaks r.message.toList) = .ok (es, rest) ∧
        Known.ofElements r.known es = .ok k ∧ m = { r.received with
          audit := k.audit, metric := k.metric, message := String.ofList (dropMark (rest.drop 1)) } := by
  obtain ⟨line, hw, hm⟩ := hm
  obtain ⟨-, rfl⟩ := (written_eq_ok_iff _ _).mp hw
  obtain ⟨⟨header, elements, tail⟩, k, hl, hk, rfl⟩ := ofLine_eq_ok_iff.mp hm
  -- a line has one header, so the data begins where it was written
  have hheader : header = r.header (r.dataText ++ ' ' :: foldBreaks r.message.toList) := by
    have hchars := hl.chars
    rw [lineOf_line, lineChars_eq hh] at hchars
    exact Header.eq_of_chars_eq hl.formed (formed_header hh _) hchars.symm
  subst hheader
  obtain ⟨es, rfl, hes⟩ := eq_shownElements_append he hl.data
  rw [Known.ofElements_append (ofElements_shownElements r)] at hk
  exact ⟨es, tail, k, hes, hk, record_header hh _ _ tail k⟩

/-! ## Texts that are told apart -/

/-- A record with plain header, timestamp and at least one element. -/
structure CarriesData (r : Record) : Prop extends HasPlainHeader r where
  stamped : r.timestamp ≠ ""
  data : r.audit ≠ none ∨ r.metric ≠ none

/-- The record with another text. -/
def withMessage (r : Record) (text : String) : Record := { r with message := text }

/-- No record with an element tells the two texts apart in what comes back beside the text. -/
def ReadAlike (text other : String) : Prop := ∀ r : Record, r.CarriesData → ∃ m m',
  (r.withMessage text).ComesBackAs m ∧ (r.withMessage other).ComesBackAs m' ∧
    m.withMessage "" = m'.withMessage "" ∧ m.isSecurityAudit = m'.isSecurityAudit

/-- The text of a record is no part of its header. -/
theorem hasHeader_withMessage {r : Record} (h : r.HasHeader) (text : String) :
    (r.withMessage text).HasHeader :=
  ⟨h.severity, h.facility, h.version, h.timestamp, h.hostName, h.application, h.process, h.messageId⟩

theorem elements_withMessage_ne_nil {r : Record} (h : r.CarriesData) (text : String) :
    (r.withMessage text).elements ≠ [] := by
  have hdata := h.data
  rw [← not_and_or] at hdata
  exact fun e => hdata (elements_eq_nil_iff.mp e)

/-- With an ordinary text the record comes back as received. -/
theorem comesBackAs_withMessage {r : Record} (h : r.CarriesData) {text : String}
    (ht : beginsOwn text.toList = false) :
    (r.withMessage text).ComesBackAs (r.withMessage text).received :=
  comesBackAs_received (hasHeader_withMessage h.hasHeader text) (.inr ht)

/-- With a text that begins like an own element two records come back with an audit or a metric
element in common, whatever they carried. -/
theorem forgets_of_beginsOwn {text : String} (hb : beginsOwn text.toList = true)
    {r r' m m' : Record} (hr : r.CarriesData) (hr' : r'.CarriesData)
    (hm : (r.withMessage text).ComesBackAs m) (hm' : (r'.withMessage text).ComesBackAs m') :
    m.audit = m'.audit ∨ m.metric = m'.metric := by
  obtain ⟨es, rest, k, hes, hk, rfl⟩ := hm.exists_elements
    (hasHeader_withMessage hr.hasHeader text) (elements_withMessage_ne_nil hr text)
  obtain ⟨es', rest', k', hes', hk', rfl⟩ := hm'.exists_elements
    (hasHeader_withMessage hr'.hasHeader text) (elements_withMessage_ne_nil hr' text)
  obtain ⟨rfl, -⟩ := Prod.mk.inj (Except.ok.inj (hes.symm.trans hes'))
  obtain ⟨hsame, hsame'⟩ := Known.ofElements_congr hk hk'
  obtain ⟨e, he, hid⟩ := exists_own_of_beginsOwn ((beginsOwn_foldBreaks _).trans hb) hes
  exact hid.imp (fun h => hsame (.inr ⟨e, he, h⟩)) (fun h => hsame' (.inr ⟨e, he, h⟩))

/-- A text that reads like an ordinary one gives the elements back that were written. -/
theorem ReadAlike.exists_comesBackAs {text other : String} (h : ReadAlike text other)
    (ho : beginsOwn other.toList = false) {r : Record} (hr : r.CarriesData) :
    ∃ m, (r.withMessage text).ComesBackAs m ∧ m.audit = r.audit.map AuditElement.relayed ∧
      m.metric = r.metric.map MetricElement.relayed := by
  obtain ⟨m, m', hm, hm', hsame, -⟩ := h r hr
  obtain rfl := hm'.unique (comesBackAs_withMessage hr ho)
  exact ⟨m, hm, congrArg Record.audit hsame, congrArg Record.metric hsame⟩

/-- A record whose elements both bear a name. -/
def bearing (name : String) : Record where
  facility := 1
  severity := 6
  version := 1
  timestamp := "2024-02-29T23:59:59Z"
  hostName := ""
  application := ""
  process := ""
  messageId := ""
  audit := some ⟨name, "", ""⟩
  metric := some ⟨name, Binary64.zero, ""⟩
  message := ""

theorem carriesData_bearing (name : String) : (bearing name).CarriesData := by
  have hstamp : isSyslogTimestamp "2024-02-29T23:59:59Z" = true ∧
      hasLineBreak "2024-02-29T23:59:59Z" = false := by decide
  have hfields : ∀ s ∈ ["", "", "", ""], IsToken s := by decide
  have hne : "2024-02-29T23:59:59Z" ≠ "" := by decide
  exact {
    severity := by simp [bearing]
    facility := by simp [bearing]
    version := by simp [bearing]
    timestamp := .inr hstamp
    fields := hfields
    stamped := hne
    data := .inl nofun }

/-- **A text reads like an ordinary one** exactly if it does not begin like an own element. -/
theorem readAlike_iff {text other : String} (ho : beginsOwn other.toList = false) :
    ReadAlike text other ↔ beginsOwn text.toList = false := by
  constructor
  · intro h
    by_contra hb
    rw [Bool.not_eq_false] at hb
    -- two records that differ in both names, so that what is forgotten of either shows
    have ha := carriesData_bearing "a"
    have hb' := carriesData_bearing "b"
    obtain ⟨m, hm, haudit, hmetric⟩ := h.exists_comesBackAs ho ha
    obtain ⟨m', hm', haudit', hmetric'⟩ := h.exists_comesBackAs ho hb'
    have hne : foldText "a" ≠ foldText "b" := by decide
    cases forgets_of_beginsOwn hb ha hb' hm hm' with
    | inl hsame =>
      rw [haudit, haudit'] at hsame
      exact hne (congrArg AuditElement.actor (Option.some.inj hsame))
    | inr hsame =>
      rw [hmetric, hmetric'] at hsame
      exact hne (congrArg MetricElement.name (Option.some.inj hsame))
  · intro ht r hr
    exact ⟨_, _, comesBackAs_withMessage hr ht, comesBackAs_withMessage hr ho, rfl, rfl⟩

/-- A message that begins like an audit element is not read like an ordinary one. -/
theorem not_readAlike_audit : beginsOwn "hello".toList = false ∧
    ¬ ReadAlike "[pzaudit@48851 Actor=\"x\"]" "hello" := by
  have ho : beginsOwn "hello".toList = false := by decide
  have hb : beginsOwn "[pzaudit@48851 Actor=\"x\"]".toList ≠ false := by decide
  exact ⟨ho, fun h => hb ((readAlike_iff ho).mp h)⟩

end Record

end Logwire
