import Logwire.Envelope.Reply
import Logwire.Proofs.Json.Members
import Logwire.Proofs.Json.RoundTrip
import Logwire.Proofs.Text.Octets

/-!
# Logwire.Proofs.Envelope.RoundTrip

Envelopes read back, from their objects and from replies.

An optional member that is null is left out, and a member that is missing is
read as null, so leaving out loses nothing (`member_optionals`).  With it an
envelope is read back from its object, and so is the envelope behind it, by
induction (`ofJson_toJson`).

A reply carries the text of the object.  The text is read as the object where
the numbers are writable and the names distinct (`isProper`), given room for its
depth, and then the two statuses are compared (`envelopeWithin_write`).
-/

namespace Logwire

open Number

/-! ## Pages -/

/-- The word of an order is read back. -/
theorem SortOrder.ofText?_text (o : SortOrder) : SortOrder.ofText? o.text = some o := by
  cases o with
  | ascending => rfl
  | descending => rfl

/-- A page is read back from its object. -/
theorem Pagination.ofJson_toJson (p : Pagination) : Pagination.ofJson p.toJson = .ok p := by
  simp [ofJson, toJson, integerOr, Members.find?, Json.toInteger, orderOfJson,
    SortOrder.ofText?_text, Json.display, bind, Except.bind, pure, Except.pure]

/-- Whether the numbers of a page are integers that can be written. -/
def Pagination.isProper (p : Pagination) : Bool :=
  isWritable p.count && isWritable p.page && isWritable p.perPage

theorem Pagination.isProper_toJson {p : Pagination} (h : p.isProper = true) :
    p.toJson.isProper = true := by
  simp only [isProper, Bool.and_eq_true] at h
  simp [toJson, Json.isProper, Json.haveProper, Members.names, h]

namespace Envelope

/-! ## Members -/

def optionals (ms : List (String × Json)) : List (String × Json) :=
  ms.flatMap fun m => optionalMember m.1 m.2

/-- A name that is missing stands for null. -/
theorem member_eq_null {ms : List (String × Json)} {name : String}
    (h : name ∉ Members.names ms) : Json.member ms name = .null := by
  rw [Json.member, (Members.find?_eq_none_iff ms name).mpr h]
  rfl

theorem member_cons (n : String) (v : Json) (ms : List (String × Json)) (name : String) :
    Json.member ((n, v) :: ms) name = if n = name then v else Json.member ms name := by
  unfold Json.member
  rw [Members.find?]
  split
  · rfl
  · rfl

/-- A member is left out exactly if it is null. -/
theorem optionalMember_cases (name : String) (v : Json) :
    optionalMember name v = [] ∧ v = .null ∨ optionalMember name v = [(name, v)] := by
  cases v with
  | null => exact .inl ⟨rfl, rfl⟩
  | _ => exact .inr rfl

/-- Leaving out what is null changes no member. -/
theorem member_optionals {ms : List (String × Json)} (h : (Members.names ms).Nodup)
    (name : String) : Json.member (optionals ms) name = Json.member ms name := by
  induction ms with
  | nil => rfl
  | cons m ms ih =>
    obtain ⟨n, v⟩ := m
    obtain ⟨hn, hms⟩ := List.nodup_cons.mp h
    rw [optionals, List.flatMap_cons, ← optionals, member_cons]
    rcases optionalMember_cases n v with ⟨hnone, hnull⟩ | hsome
    · rw [hnone, List.nil_append, ih hms, hnull]
      split
      case isTrue heq => exact member_eq_null (heq ▸ hn)
      case isFalse => rfl
    · rw [hsome, List.singleton_append, member_cons, ih hms]

/-- The members of an envelope besides its status, null when they are absent. -/
def fields (e : Envelope) : List (String × Json) :=
  [("type", e.type), ("data", e.data), ("pagination", e.pagination.elim .null Pagination.toJson),
    ("message", e.message), ("origin", e.origin), ("inner", e.inner.elim .null toJson),
    ("metadata", e.metadata)]

theorem names_fields_nodup (e : Envelope) : (Members.names e.fields).Nodup := by
  simp [fields, Members.names]

theorem paginationMember_eq (p : Option Pagination) :
    paginationMember p = optionalMember "pagination" (p.elim .null Pagination.toJson) := by
  cases p with
  | none => rfl
  | some p => rfl

theorem exists_toJson (e : Envelope) : ∃ ms, e.toJson = .obj ms := by
  obtain ⟨⟩ := e
  rw [toJson]
  exact ⟨_, rfl⟩

theorem innerMember_eq (e : Option Envelope) :
    innerMember e = optionalMember "inner" (e.elim .null toJson) := by
  cases e with
  | none => rw [innerMember]; rfl
  | some e =>
    obtain ⟨ms, hms⟩ := e.exists_toJson
    rw [innerMember, Option.elim, hms]
    rfl

/-- The object of an envelope: its status, and its fields without those that are absent. -/
theorem toJson_eq (e : Envelope) :
    e.toJson = .obj (("statusCode", .int e.status) :: optionals e.fields) := by
  obtain ⟨status, type, data, pagination, message, origin, inner, metadata⟩ := e
  rw [toJson, paginationMember_eq, innerMember_eq]
  simp [optionals, fields]

theorem statusOfMembers_cons (status : Int) (ms : List (String × Json)) :
    statusOfMembers (("statusCode", .int status) :: ms) = .ok status := rfl

/-- A pagination is read back, and null as its absence. -/
theorem paginationOfJson_elim (p : Option Pagination) :
    paginationOfJson (p.elim .null Pagination.toJson) = .ok p := by
  cases p with
  | none => rfl
  | some p =>
    have := p.ofJson_toJson
    simp only [Option.elim, paginationOfJson, Pagination.toJson] at this ⊢
    rw [this]

/-- An object is read as an envelope member by member. -/
theorem ofJson_obj {ms : List (String × Json)} {status : Int} (pagination : Option Pagination)
    (inner : Option Envelope) (hs : statusOfMembers ms = .ok status)
    (hp : paginationOfJson (Json.member ms "pagination") = .ok pagination)
    (hi : Json.member ms "inner" = inner.elim .null toJson)
    (hread : ∀ e ∈ inner, ofJson e.toJson = .ok e) :
    ofJson (.obj ms) = .ok ⟨status, Json.member ms "type", Json.member ms "data", pagination,
      Json.member ms "message", Json.member ms "origin", inner, Json.member ms "metadata"⟩ := by
  rw [ofJson]
  simp only [hs, hp]
  cases inner with
  | none =>
    split
    · rfl
    · next hne => exact absurd hi hne
  | some e =>
    split
    · next hnull =>
      obtain ⟨ms', hms'⟩ := e.exists_toJson
      rw [hnull, Option.elim, hms'] at hi
      contradiction
    · rw [hi, Option.elim, hread e rfl]

/-- One envelope is read back if the one behind it is. -/
theorem ofJson_toJson_of_inner (e : Envelope) (h : ∀ i ∈ e.inner, ofJson i.toJson = .ok i) :
    ofJson e.toJson = .ok e := by
  have hmember : ∀ name, name ≠ "statusCode" →
      Json.member (("statusCode", .int e.status) :: optionals e.fields) name =
        Json.member e.fields name := by
    intro name hname
    rw [member_cons, if_neg hname.symm, member_optionals e.names_fields_nodup]
  have hpagination :
      Json.member e.fields "pagination" = e.pagination.elim .null Pagination.toJson := by
    simp [fields, member_cons]
  have hinner : Json.member e.fields "inner" = e.inner.elim .null toJson := by
    simp [fields, member_cons]
  rw [toJson_eq, ofJson_obj e.pagination e.inner (statusOfMembers_cons e.status _)
    (by rw [hmember _ (by decide), hpagination, paginationOfJson_elim])
    (by rw [hmember _ (by decide), hinner]) h]
  rw [hmember "type" (by decide), hmember "data" (by decide), hmember "message" (by decide),
    hmember "origin" (by decide), hmember "metadata" (by decide)]
  cases e with
  | mk => simp [fields, member_cons]

/-- An envelope is read back from its object, with all that lie behind it. -/
theorem ofJson_toJson : ∀ e : Envelope, ofJson e.toJson = .ok e
  | ⟨status, type, data, pagination, message, origin, none, metadata⟩ =>
    ofJson_toJson_of_inner _ fun _ hi => by cases hi
  | ⟨status, type, data, pagination, message, origin, some inner, metadata⟩ =>
    ofJson_toJson_of_inner _ fun _ hi => Option.some.inj hi ▸ ofJson_toJson inner

/-! ## Proper envelopes -/

mutual

/-- Whether the integers of an envelope are writable and the names in its data distinct. -/
def isProper : Envelope → Bool
  | ⟨status, type, data, pagination, message, origin, inner, metadata⟩ =>
    isWritable status && type.isProper && data.isProper && pagination.all Pagination.isProper &&
      message.isProper && origin.isProper && innerProper inner && metadata.isProper

/-- The same for the envelope behind an envelope. -/
def innerProper : Option Envelope → Bool
  | none => true
  | some e => isProper e

end

theorem optionals_sublist (ms : List (String × Json)) : (optionals ms).Sublist ms := by
  induction ms with
  | nil => exact .slnil
  | cons m ms ih =>
    rw [optionals, List.flatMap_cons, ← optionals]
    rcases optionalMember_cases m.1 m.2 with ⟨hnone, -⟩ | hsome
    · rw [hnone]
      exact ih.cons m
    · rw [hsome]
      exact ih.cons_cons m

theorem haveProper_iff {ms : List (String × Json)} :
    Json.haveProper ms = true ↔ ∀ m ∈ ms, m.2.isProper = true := by
  induction ms with
  | nil => simp [Json.haveProper]
  | cons m ms ih => simp [Json.haveProper, ih]

/-- The fields of a proper envelope are proper if the object of the envelope behind it is. -/
theorem isProper_fields {e : Envelope} (h : e.isProper = true)
    (hi : ∀ i ∈ e.inner, i.isProper = true → i.toJson.isProper = true) :
    isWritable e.status = true ∧ ∀ m ∈ e.fields, m.2.isProper = true := by
  obtain ⟨status, type, data, pagination, message, origin, inner, metadata⟩ := e
  simp only [isProper, Bool.and_eq_true, and_assoc] at h
  obtain ⟨hstatus, htype, hdata, hpagination, hmessage, horigin, hinner, hmetadata⟩ := h
  have hpaginationJson : (pagination.elim Json.null Pagination.toJson).isProper = true := by
    cases pagination with
    | none => rfl
    | some p => exact Pagination.isProper_toJson hpagination
  have hinnerJson : (inner.elim Json.null toJson).isProper = true := by
    cases inner with
    | none => rfl
    | some i => exact hi i rfl hinner
  refine ⟨hstatus, ?_⟩
  simp only [fields, List.forall_mem_cons]
  exact ⟨htype, hdata, hpaginationJson, hmessage, horigin, hinnerJson, hmetadata,
    fun m hm => absurd hm List.not_mem_nil⟩

/-- So its object is proper: no field has the name of another or of the status. -/
theorem isProper_toJson_of_inner {e : Envelope} (h : e.isProper = true)
    (hi : ∀ i ∈ e.inner, i.isProper = true → i.toJson.isProper = true) :
    e.toJson.isProper = true := by
  obtain ⟨hstatus, hfields⟩ := isProper_fields h hi
  have hsub := optionals_sublist e.fields
  have hnames : (Members.names (("statusCode", Json.int e.status) :: e.fields)).Nodup := by
    simp [fields, Members.names]
  have hvalues : Json.haveProper (optionals e.fields) = true :=
    haveProper_iff.mpr fun m hm => hfields m (hsub.subset hm)
  rw [toJson_eq, Json.isProper, Bool.and_eq_true_iff, decide_eq_true_eq]
  refine ⟨((hsub.cons_cons _).map Prod.fst).nodup hnames, ?_⟩
  rw [Json.haveProper, hvalues, Bool.and_true]
  exact hstatus

/-- The JSON of a proper envelope is proper, down to the innermost one. -/
theorem isProper_toJson : ∀ {e : Envelope}, e.isProper = true → e.toJson.isProper = true
  | ⟨_, _, _, _, _, _, none, _⟩, h => isProper_toJson_of_inner h fun _ hi => by cases hi
  | ⟨_, _, _, _, _, _, some _, _⟩, h =>
    isProper_toJson_of_inner h fun _ hi => Option.some.inj hi ▸ isProper_toJson

end Envelope

/-! ## Replies -/

/-- A value is written in ASCII, so its octets are decoded to its text. -/
theorem Json.decode_octets_write (v : Json) :
    Text.decode (Text.octets v.write) = .ok v.writeChars := by
  refine Text.decode_octets fun c hc => ?_
  obtain ⟨hlow, hhigh⟩ := isPlain_iff.mp (isPlain_writeChars v c hc)
  exact ⟨by omega, by omega⟩

namespace Reply

/-- The reply that carries an envelope as JSON text. -/
def carrying (status : Int) (e : Envelope) : Reply := ⟨status, Text.octets (Json.write e.toJson)⟩

/-- The body of a reply is the text of the envelope that it carries. -/
theorem decode_carrying (status : Int) (e : Envelope) :
    Text.decode (carrying status e).body = .ok e.toJson.writeChars := e.toJson.decode_octets_write

theorem isEmpty_body_carrying (status : Int) (e : Envelope) :
    (carrying status e).body.isEmpty = false := by
  have hdecode := decode_carrying status e
  cases hbody : (carrying status e).body with
  | nil =>
    obtain ⟨c, t, hchars, -⟩ := Json.exists_writeChars e.toJson
    rw [hbody, hchars] at hdecode
    simp [Text.decode, Text.guess, Text.decodeFrom] at hdecode
  | cons b r => rfl

/-- A reply that carries an envelope is read as the envelope if it repeats the status, and as an
error otherwise. -/
theorem envelopeWithin_carrying {e : Envelope} {room : Nat} (h : e.isProper = true)
    (hroom : e.toJson.depth ≤ room) (status : Int) :
    (carrying status e).envelopeWithin room = .ok (if e.status = status then e else
      .ofError ("Unmatched status codes: expected " ++ intText status ++ ", got "
          ++ intText e.status)) := by
  obtain ⟨ms, hms⟩ := e.exists_toJson
  have hread := e.ofJson_toJson
  unfold envelopeWithin
  rw [isEmpty_body_carrying, decode_carrying]
  simp only [Bool.false_eq_true, if_false, envelopeOfText,
    Json.parseWithin_writeChars (Envelope.isProper_toJson h) hroom]
  rw [hms] at hread ⊢
  simp only [envelopeOfJson, hread, show (carrying status e).status = status from rfl]
  split
  · rfl
  · rfl

end Reply

/-- What is read as an envelope is read as the same envelope once it has been written, and is
written the same.  Every envelope is read back from its object, and from the text of the object if
the reply repeats its status; if not, what is read is an error without data. -/
theorem Envelope.readsBack :
    (∀ v e, Envelope.ofJson v = .ok e → Envelope.ofJson e.toJson = .ok e ∧
      (Envelope.ofJson e.toJson).map Envelope.toJson = .ok e.toJson) ∧
    (∀ e : Envelope, Envelope.ofJson e.toJson = .ok e) ∧
    ∀ (e : Envelope) (room : Nat), e.isProper = true → e.toJson.depth ≤ room → ∀ status,
      (status = e.status → (Reply.carrying status e).envelopeWithin room = .ok e) ∧
      (status ≠ e.status → ∃ e', (Reply.carrying status e).envelopeWithin room = .ok e' ∧
        e'.isError = true ∧ e'.status = 500 ∧ e'.data = .null) := by
  refine ⟨fun v e _ => ⟨e.ofJson_toJson, ?_⟩, ofJson_toJson,
    fun e room h hroom status => ⟨fun hs => ?_, fun hs => ?_⟩⟩
  · rw [e.ofJson_toJson]
    rfl
  · rw [Reply.envelopeWithin_carrying h hroom, if_pos hs.symm]
  · rw [Reply.envelopeWithin_carrying h hroom, if_neg (Ne.symm hs)]
    exact ⟨_, rfl, rfl, rfl, rfl⟩

/-- A value that is an envelope although its status is a text and it has a member too many. -/
def lenient : Json :=
  .obj [("statusCode", .str " 404 "), ("data", .null), ("extra", .arr [.null])]

/-- An envelope of data that count as nothing, with two others behind it. -/
def nested : Envelope where
  status := 404
  data := .int 0
  pagination := some { page := 2, order := .descending }
  message := .str ""
  metadata := .bool false
  inner := some {
    status := 500
    data := .arr []
    inner := some { status := -1, metadata := .obj [("😀\n", .num .nan)] }
  }

/-- An envelope within an envelope within an envelope comes back over HTTP. -/
theorem readsBack_nested :
    (Envelope.ofJson lenient = .ok { status := 404 } ∧
      Envelope.ofJson { status := 404 : Envelope }.toJson = .ok { status := 404 }) ∧
    nested.isProper = true ∧ nested.toJson.depth ≤ 4 ∧
      (Reply.carrying 404 nested).envelopeWithin 4 = .ok nested ∧
      ∃ e, (Reply.carrying 200 nested).envelopeWithin 4 = .ok e ∧
        e.isError = true ∧ e.status = 500 ∧ e.data = .null := by
  have hlenient : Envelope.ofJson lenient = .ok { status := 404 } := by
    rw [lenient, Envelope.ofJson]
    rfl
  have hproper : nested.isProper = true := by decide +kernel
  have hdepth : nested.toJson.depth ≤ 4 := by decide +kernel
  have hread := Envelope.readsBack.2.2 nested 4 hproper hdepth
  exact ⟨⟨hlenient, (Envelope.readsBack.1 lenient _ hlenient).1⟩, hproper, hdepth,
    (hread 404).1 rfl, (hread 200).2 (by decide)⟩

end Logwire
