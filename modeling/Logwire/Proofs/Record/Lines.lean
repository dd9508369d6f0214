import Logwire.Proofs.Json.RoundTrip
import Logwire.Record.Document

/-!
# Logwire.Proofs.Record.Lines

Records, one to a line of JSON text, read back.

* `ofJson_toJson` — the object of a record is read as the record;
* `isLineOf_writeChars` — the text of the object is one line of ASCII that the
  record is read from;
* `exists_lines` — so a row of records is a row of such lines.
-/

namespace Logwire

open Number

/-! ## Elements -/

theorem AuditElement.ofJsonWithin_toJson (room : Nat) (a : AuditElement) :
    AuditElement.ofJsonWithin room a.toJson = .ok a := rfl

theorem MetricElement.ofJsonWithin_toJson (room : Nat) (m : MetricElement) :
    MetricElement.ofJsonWithin room m.toJson = .ok m := rfl

/-- An element that is an object when it is there is read back, and so is its absence. -/
theorem optional_elim {α : Type} (read : Json → Except DocumentFault α) (toJson : α → Json)
    (hobj : ∀ a, ∃ ms, toJson a = .obj ms) (hread : ∀ a, read (toJson a) = .ok a) (a : Option α) :
    Json.optional read (a.elim .null toJson) = .ok a := by
  cases a with
  | none => rfl
  | some a =>
    obtain ⟨ms, hms⟩ := hobj a
    have := hread a
    rw [hms] at this
    simp only [Option.elim, hms, Json.optional, this]
    rfl

namespace Record

/-! ## Records -/

/-- The object of a record is read as the record. -/
theorem ofJson_toJson (r : Record) : Record.ofJson r.toJson = .ok r := by
  have haudit := optional_elim (AuditElement.ofJsonWithin Json.shownLimit) AuditElement.toJson
    (fun _ => ⟨_, rfl⟩) (AuditElement.ofJsonWithin_toJson _) r.audit
  have hmetric := optional_elim (MetricElement.ofJsonWithin Json.shownLimit) MetricElement.toJson
    (fun _ => ⟨_, rfl⟩) (MetricElement.ofJsonWithin_toJson _) r.metric
  have hintegers : Json.integerMember r.members "facility" = .ok r.facility ∧
      Json.integerMember r.members "severity" = .ok r.severity ∧
      Json.integerMember r.members "version" = .ok r.version := by
    simp [Json.integerMember, members, Members.find?, Json.toInteger]
  have helements : Json.member r.members "auditData" = r.audit.elim .null AuditElement.toJson ∧
      Json.member r.members "metricData" = r.metric.elim .null MetricElement.toJson := by
    simp [Json.member, members, Members.find?]
  obtain ⟨hfacility, hseverity, hversion⟩ := hintegers
  obtain ⟨hauditMember, hmetricMember⟩ := helements
  rw [← hauditMember] at haudit
  rw [← hmetricMember] at hmetric
  simp only [Record.ofJson, Record.ofJsonWithin, toJson, Json.asMembers, bind, Except.bind,
    hfacility, hseverity, hversion, haudit, hmetric]
  simp [pure, Except.pure, Json.textMember, members, Members.find?, Json.displayWithin]

/-- Whether the numbers of a record are integers that can be written. -/
def integersWritable (r : Record) : Bool :=
  isWritable r.facility && isWritable r.severity && isWritable r.version

/-- The JSON of a record whose integers can be written is proper. -/
theorem isProper_toJson {r : Record} (h : r.integersWritable = true) : r.toJson.isProper = true := by
  have hnames : (Members.names r.members).Nodup := by
    simp [members, Members.names]
  have haudit : (r.audit.elim .null AuditElement.toJson).isProper = true := by
    cases r.audit with
    | none => rfl
    | some a => simp [AuditElement.toJson, Json.isProper, Json.haveProper, Members.names]
  have hmetric : (r.metric.elim .null MetricElement.toJson).isProper = true := by
    cases r.metric with
    | none => rfl
    | some m => simp [MetricElement.toJson, Json.isProper, Json.haveProper, Members.names]
  simp only [integersWritable, Bool.and_eq_true] at h
  rw [toJson, Json.isProper, decide_eq_true hnames]
  simp [members, Json.haveProper, Json.isProper, h, haudit, hmetric]

/-- A record can be written exactly if its numbers can. -/
theorem hasText_toJson (r : Record) : r.toJson.hasText = r.integersWritable := by
  have haudit : (r.audit.elim .null AuditElement.toJson).hasText = true := by
    cases r.audit with
    | none => rfl
    | some a => rfl
  have hmetric : (r.metric.elim .null MetricElement.toJson).hasText = true := by
    cases r.metric with
    | none => rfl
    | some m => rfl
  simp [toJson, members, integersWritable, Json.hasText, Json.membersHaveText, haudit, hmetric,
    Bool.and_assoc]

/-- A record holds elements, and these hold no more. -/
theorem depth_toJson_le (r : Record) : r.toJson.depth ≤ 2 := by
  have haudit : (r.audit.elim .null AuditElement.toJson).depth ≤ 1 := by
    cases r.audit with
    | none => exact Nat.zero_le 1
    | some a => simp [AuditElement.toJson, Json.depth, Json.membersDepth]
  have hmetric : (r.metric.elim .null MetricElement.toJson).depth ≤ 1 := by
    cases r.metric with
    | none => exact Nat.zero_le 1
    | some m => simp [MetricElement.toJson, Json.depth, Json.membersDepth]
  simp [toJson, members, Json.depth, Json.membersDepth, haudit, hmetric]

/-! ## Lines -/

/-- A line of ASCII characters that a record is read from. -/
structure IsLineOf (line : List Char) (r : Record) : Prop where
  ascii : ∀ c ∈ line, c.toNat < 128
  unbroken : ∀ c ∈ line, c ≠ '\r' ∧ c ≠ '\n'
  reads : ∃ v, Json.parse line = .ok v ∧ Record.ofJson v = .ok r

/-- The text of a record is such a line. -/
theorem isLineOf_writeChars {r : Record} (h : r.integersWritable = true) :
    IsLineOf r.toJson.writeChars r := by
  have hplain := Json.isPlain_writeChars r.toJson
  refine ⟨fun c hc => ?_, fun c hc => ?_, r.toJson, ?_, ofJson_toJson r⟩
  · have := (Json.isPlain_iff.mp (hplain c hc)).2
    omega
  · have := hplain c hc
    constructor
    · rintro rfl
      contradiction
    · rintro rfl
      contradiction
  · exact Json.parseWithin_writeChars (isProper_toJson h)
      (Nat.le_trans (depth_toJson_le r) (by decide))

/-- Records in a row are one line each, in order, and each line is read as its record.  Without a
record there is no text. -/
theorem jsonLines_roundTrip (rs : List Record) (h : ∀ r ∈ rs, r.integersWritable = true) :
    (rs = [] → jsonLines rs = "") ∧
      ∃ lines : List (List Char), (jsonLines rs).toList = lines.flatMap (· ++ ['\n']) ∧
        List.Forall₂ IsLineOf lines rs := by
  refine ⟨?_, rs.map fun r => r.toJson.writeChars, ?_, ?_⟩
  · rintro rfl
    rfl
  · rw [jsonLines, String.toList_ofList, List.flatMap_map]
    rfl
  · rw [List.forall₂_map_left_iff, List.forall₂_same]
    exact fun r hr => isLineOf_writeChars (h r hr)

/-- A record whose strings and metric have to be escaped or named. -/
def awkward : Record where
  facility := -1
  severity := 6
  version := 1
  timestamp := "\r\n"
  hostName := "\"h\\"
  application := "é"
  process := "😀"
  messageId := "-"
  audit := some ⟨"", "\t", "\x7f"⟩
  metric := some ⟨"m", .nan, "o"⟩
  message := "\ufeff"

theorem jsonLines_roundTrip_awkward : (∀ r ∈ [awkward, awkward], r.integersWritable = true) ∧
    ∃ lines : List (List Char),
      (jsonLines [awkward, awkward]).toList = lines.flatMap (· ++ ['\n']) ∧
        List.Forall₂ IsLineOf lines [awkward, awkward] := by
  have h : ∀ r ∈ [awkward, awkward], r.integersWritable = true := by decide +kernel
  exact ⟨h, (jsonLines_roundTrip [awkward, awkward] h).2⟩

end Record

end Logwire
