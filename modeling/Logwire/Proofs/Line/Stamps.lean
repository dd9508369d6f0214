import Logwire.Proofs.Line.Validity

/-!
# Logwire.Proofs.Line.Stamps

Which timestamps go on the wire unchanged.

A timestamp `GoesUnchanged` when every record that is otherwise fit for a line
shows it there in its place and is read back with it.  The narrow form is meant
to say just this.  It lets one thing more through, a line feed behind the
timestamp.  That is folded like any line break, what is left in its place is no
timestamp, and the record does not come back at all: `goesUnchanged_iff`.
-/

namespace Logwire

open Line Number Text Time

/-! ## Folded timestamps -/

namespace Line

/-- What a line break is folded to begins with a sharp. -/
theorem mem_foldBreaks_of_break {s : List Char} (h : s.any isLineBreak = true) :
    '#' ∈ foldBreaks s := by
  obtain ⟨c, hc, hb⟩ := List.any_eq_true.mp h
  refine List.mem_flatMap.mpr ⟨c, hc, ?_⟩
  rcases eq_of_isLineBreak hb with rfl | rfl
  · decide
  · decide

/-- A text without other blanks than line breaks has none left when they are folded. -/
theorem isBlank_of_mem_foldBreaks {s : List Char}
    (h : ∀ c ∈ s, isBlank c = false ∨ isLineBreak c = true) :
    ∀ c ∈ foldBreaks s, isBlank c = false := by
  have hfold : ∀ d ∈ foldChar '\r' ++ foldChar '\n', isBlank d = false :=
    forall_mem_of_all (by decide)
  intro d hd
  obtain ⟨c, hc, hd⟩ := List.mem_flatMap.mp hd
  by_cases hb : isLineBreak c = true
  · rcases eq_of_isLineBreak hb with rfl | rfl
    · exact hfold d (List.mem_append_left _ hd)
    · exact hfold d (List.mem_append_right _ hd)
  · rw [foldChar_of_not_isLineBreak (by simpa using hb), List.mem_singleton] at hd
    exact hd ▸ (h c hc).resolve_right hb

end Line

namespace Time

/-- No timestamp holds a sharp. -/
theorem not_mem_of_isRfc3339 {text : String} (h : isRfc3339 text = true) : '#' ∉ text.toList := by
  have hsharp : ¬ (IsStampChar '#' ∨ isLineBreak '#' = true) := by
    unfold IsStampChar
    decide
  intro hmem
  unfold isRfc3339 parseRfc3339 at h
  cases hp : Parts.scan? text.toList with
  | none => rw [hp] at h; contradiction
  | some p => exact hsharp (isStampChar_of_scan? hp _ hmem)

/-- A timestamp in the narrow form that spans two lines is one field when it is folded, and no
timestamp any more. -/
theorem folded_of_isSyslogTimestamp {text : String} (hs : isSyslogTimestamp text = true)
    (hb : hasLineBreak text = true) : IsField (foldBreaks text.toList) ∧
      foldBreaks text.toList ≠ ['-'] ∧
      isRfc3339 (String.ofList (foldBreaks text.toList)) = false := by
  obtain ⟨p, hp, -⟩ := scan?_of_isSyslogTimestamp hs
  have hsharp : '#' ∈ foldBreaks text.toList := mem_foldBreaks_of_break hb
  have hblank : ∀ c ∈ foldBreaks text.toList, isBlank c = false :=
    isBlank_of_mem_foldBreaks fun c hc =>
      (isStampChar_of_scan? hp c hc).imp_left IsStampChar.isBlank_eq_false
  refine ⟨⟨List.ne_nil_of_mem hsharp, hblank⟩, fun e => ?_, ?_⟩
  · rw [e] at hsharp
    exact absurd hsharp (by decide)
  · rw [← Bool.not_eq_true]
    exact fun hr => not_mem_of_isRfc3339 hr (by rwa [String.toList_ofList])

end Time

/-- Folding a header that is well formed but for its timestamp changes nothing but that and what
follows. -/
theorem Line.Header.foldBreaks_chars {h : Header} (hf : { h with timestamp := ['-'] }.Formed) :
    foldBreaks h.chars = { h with
      timestamp := foldBreaks h.timestamp, rest := foldBreaks h.rest }.chars := by
  have hmarks : foldChar '<' = ['<'] ∧ foldChar '>' = ['>'] ∧ foldChar ' ' = [' '] := by decide
  have hpriority : foldBreaks h.priority = h.priority := foldBreaks_of_noBreak hf.priority.noBreak
  have hversion : foldBreaks h.version = h.version := foldBreaks_of_noBreak hf.version.noBreak
  have hhost : foldBreaks h.hostName = h.hostName := foldBreaks_of_noBreak hf.hostName.noBreak
  have happlication : foldBreaks h.application = h.application :=
    foldBreaks_of_noBreak hf.application.noBreak
  have hprocess : foldBreaks h.process = h.process := foldBreaks_of_noBreak hf.process.noBreak
  have hid : foldBreaks h.messageId = h.messageId := foldBreaks_of_noBreak hf.messageId.noBreak
  unfold Header.chars
  simp only [foldBreaks_append, foldBreaks_cons, hmarks, hpriority, hversion, hhost, happlication,
    hprocess, hid, List.singleton_append]

/-! ## Records that bear a timestamp -/

/-- The timestamp stands in its place in the header of a line. -/
def Line.Bears (line timestamp : String) : Prop :=
  ∃ h : Header, h.Formed ∧ line.toList = h.chars ∧ h.timestamp = timestamp.toList

namespace Record

/-- A record that is fit for a line, whatever its timestamp: the numbers of the header are in
range, its fields are tokens, there are no elements, and the text stands on one line. -/
structure Stampable (r : Record) : Prop extends InRange r where
  fields : ∀ s ∈ [r.hostName, r.application, r.process, r.messageId], IsToken s
  elements : r.audit = none ∧ r.metric = none
  message : hasLineBreak r.message = false

def stamped (r : Record) (timestamp : String) : Record := { r with timestamp := timestamp }

/-- Every record that bears the timestamp shows it on its line and is read back with it. -/
def GoesUnchanged (timestamp : String) : Prop := ∀ r : Record, r.Stampable → ∃ line m,
  (r.stamped timestamp).written = .ok line ∧ Bears line timestamp ∧
    ofLine line = .ok m ∧ m.timestamp = timestamp

variable {r : Record} {timestamp : String}

/-- With a timestamp on one line the header is complete. -/
theorem Stampable.hasHeader (h : r.Stampable)
    (ht : hasLineBreak (wireTimestamp timestamp) = false) : (r.stamped timestamp).HasHeader := by
  have hf := h.fields
  simp only [List.forall_mem_cons] at hf
  obtain ⟨h1, h2, h3, h4, -⟩ := hf
  exact ⟨h.severity, h.facility, h.version, ht, h1, h2, h3, h4⟩

/-- The header of such a record is well formed with any field in the place of the timestamp. -/
theorem Stampable.formed_header (h : r.Stampable) {field : List Char} (hf : IsField field)
    (rest : List Char) : Header.Formed { r.header rest with timestamp := field } := by
  have hempty : hasLineBreak (wireTimestamp "") = false := by decide
  have hr := Record.formed_header (h.hasHeader hempty) rest
  exact ⟨hr.priority, hr.version, hf, hr.hostName, hr.application, hr.process, hr.messageId⟩

/-- A timestamp in the narrow form and on one line goes unchanged. -/
theorem goesUnchanged_of_isSyslogTimestamp (hs : isSyslogTimestamp timestamp = true)
    (hb : hasLineBreak timestamp = false) : GoesUnchanged timestamp := by
  intro r hr
  have hwire : wireTimestamp timestamp = timestamp := if_pos hs
  have hh : (r.stamped timestamp).HasHeader := hr.hasHeader (by rwa [hwire])
  have ht : (r.stamped timestamp).HasText := .inl (elements_eq_nil_iff.mpr hr.elements)
  obtain ⟨line, hw, hm⟩ := comesBackAs_received hh ht
  obtain ⟨-, rfl⟩ := (written_eq_ok_iff _ _).mp hw
  have hbears : Bears (r.stamped timestamp).line timestamp := by
    refine ⟨(r.stamped timestamp).layout.header, formed_header hh _, ?_,
      congrArg String.toList hwire⟩
    rw [line, String.toList_ofList, lineChars_eq hh]
    rfl
  exact ⟨_, _, hw, hbears, hm, fieldTimestamp_of_isSyslogTimestamp hs⟩

/-- The header of the record's line with this timestamp. -/
def foldedHeader (r : Record) (timestamp : String) : Header :=
  { r.header (foldBreaks (r.dataChars ++ ' ' :: r.message.toList)) with
    timestamp := foldBreaks (wireTimestamp timestamp).toList }

/-- Whatever the timestamp, the line of the record has this header. -/
theorem lineChars_stamped (h : r.Stampable) :
    (r.stamped timestamp).lineChars = (r.foldedHeader timestamp).chars := by
  have hrange : (r.stamped timestamp).InRange := ⟨h.severity, h.facility, h.version⟩
  have hf : Header.Formed { (r.stamped timestamp).header (r.dataChars ++ ' ' :: r.message.toList)
      with timestamp := ['-'] } := h.formed_header (by decide) _
  have hline : (r.stamped timestamp).lineChars = foldBreaks
      ((r.stamped timestamp).headerChars ++ ' ' :: (r.dataChars ++ ' ' :: r.message.toList)) := by
    unfold lineChars
    simp [stamped, dataChars, elements]
  rw [hline, chars_header hrange, Header.foldBreaks_chars hf]
  rfl

/-- A record does not come back with a timestamp in the narrow form that spans two lines. -/
theorem not_comesBackAs_of_lineBreak (h : r.Stampable) (hs : isSyslogTimestamp timestamp = true)
    (hb : hasLineBreak timestamp = true) : ¬ ∃ m, (r.stamped timestamp).ComesBackAs m := by
  rintro ⟨m, line, hw, hm⟩
  obtain ⟨-, rfl⟩ := (written_eq_ok_iff _ _).mp hw
  obtain ⟨l, -, hl, -, -⟩ := ofLine_eq_ok_iff.mp hm
  obtain ⟨hfield, hnil, hread⟩ := folded_of_isSyslogTimestamp hs hb
  have hwire : wireTimestamp timestamp = timestamp := if_pos hs
  -- the line has one header, and the folded timestamp is a field of it
  have hformed : (r.foldedHeader timestamp).Formed :=
    h.formed_header (by rwa [hwire]) _
  have hheader : l.header = r.foldedHeader timestamp := by
    have hchars := hl.chars
    rw [lineOf_line, lineChars_stamped h] at hchars
    exact Header.eq_of_chars_eq hl.formed hformed hchars.symm
  have hstamp : l.header.timestamp = foldBreaks timestamp.toList := by
    rw [hheader, foldedHeader, hwire]
  cases hl.timestamp with
  | inl he => exact hnil (hstamp.symm.trans he)
  | inr hr =>
    rw [hstamp, hread] at hr
    exact Bool.false_ne_true hr

/-! ## What the narrow form is worth -/

/-- A record of which everything is left out that may be. -/
def plainest : Record where
  facility := 0
  severity := 0
  version := 0
  timestamp := ""
  hostName := ""
  application := ""
  process := ""
  messageId := ""
  audit := none
  metric := none
  message := ""

theorem stampable_plainest : plainest.Stampable := {
  severity := by decide
  facility := by decide
  version := by decide
  fields := by decide
  elements := ⟨rfl, rfl⟩
  message := by decide }

/-- **A timestamp goes on the wire unchanged** exactly if it has the narrow form and stands on one
line.  With any other timestamp in the narrow form no record comes back. -/
theorem goesUnchanged_iff (timestamp : String) :
    (GoesUnchanged timestamp ↔ isSyslogTimestamp timestamp = true ∧ hasLineBreak timestamp = false) ∧
      (isSyslogTimestamp timestamp = true → ¬ GoesUnchanged timestamp →
        ∀ r : Record, r.Stampable → ¬ ∃ m, (r.stamped timestamp).ComesBackAs m) := by
  have hiff : GoesUnchanged timestamp ↔
      isSyslogTimestamp timestamp = true ∧ hasLineBreak timestamp = false := by
    constructor
    · intro h
      obtain ⟨line, m, hw, ⟨header, hformed, -, hheader⟩, hm, rfl⟩ := h _ stampable_plainest
      have hback : (plainest.stamped m.timestamp).ComesBackAs m := ⟨line, hw, hm⟩
      refine hback.hasPlainHeader.timestamp.resolve_left fun he => ?_
      -- an absent timestamp is shown as nil
      rw [he] at hheader
      exact hformed.timestamp.1 hheader
    · exact fun h => goesUnchanged_of_isSyslogTimestamp h.1 h.2
  refine ⟨hiff, fun hs hn r hr => not_comesBackAs_of_lineBreak hr hs ?_⟩
  rw [hiff, not_and, Bool.not_eq_false] at hn
  exact hn hs

/-- A line feed behind the narrow form passes the check and does not go unchanged. -/
theorem not_goesUnchanged_lineFeed : isSyslogTimestamp "2023-01-02T03:04:05Z\n" = true ∧
    ¬ GoesUnchanged "2023-01-02T03:04:05Z\n" := by
  have hs : isSyslogTimestamp "2023-01-02T03:04:05Z\n" = true := by decide
  have hb : hasLineBreak "2023-01-02T03:04:05Z\n" ≠ false := by decide
  exact ⟨hs, fun h => hb ((goesUnchanged_iff _).1.mp h).2⟩

end Record

end Logwire
