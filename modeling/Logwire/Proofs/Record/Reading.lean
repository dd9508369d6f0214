import Logwire.Proofs.Envelope.Answers
import Logwire.Proofs.Json.Display
import Logwire.Proofs.Number.Nearest
import Logwire.Record.Document

/-!
# Logwire.Proofs.Record.Reading

What keeps a value from being read as a record.

A record is read part by part in one order (`Record.parts`): numbers and texts
of the object itself, and of the objects of its two elements.  No part looks at
another, so the first one at fault decides (`errorOf_ofJsonWithin`).

Most faults say that the value is malformed.  Two kinds do not: a number that is
beyond the range of its part (`OutOfRange`), and a text with values too deep
within each other (`TooDeep`).  `documented_iff` says that there is no third
one, and when these two occur; with room for the depth of the whole value the
second one does not (`not_tooDeep_of_depth_lt`).
-/

namespace Logwire

open Number
open Json (integerMember numberMember textMember)

/-! ## Faults -/

/-- The fault says that the value is malformed. -/
structure DocumentFault.IsMalformed (e : DocumentFault) : Prop where
  inRange : e.isRange = false
  shallow : e.isDepth = false

def errorOf {α : Type} : Except DocumentFault α → Option DocumentFault
  | .ok _ => none
  | .error e => some e

theorem errorOf_eq_some_iff {α : Type} (x : Except DocumentFault α) (e : DocumentFault) :
    errorOf x = some e ↔ x = .error e := by
  cases x <;> simp [errorOf]

theorem errorOf_mapError_eq_some_iff {ε α : Type} (x : Except ε α) (f : ε → DocumentFault)
    (e : DocumentFault) : errorOf (x.mapError f) = some e ↔ ∃ c, x = .error c ∧ f c = e := by
  cases x <;> simp [errorOf, Except.mapError]

/-- Where what is read first makes no difference to what fails behind it, the first fault counts. -/
theorem errorOf_bind {α β : Type} {x : Except DocumentFault α} {f : α → Except DocumentFault β}
    {o : Option DocumentFault} (h : ∀ a, errorOf (f a) = o) :
    errorOf (x >>= f) = (errorOf x).or o := by
  cases x with
  | ok a => exact h a
  | error e => rfl

/-! ## Numbers out of range, texts too deep -/

/-- An integer is too large for a double precision number from the threshold of rounding on. -/
theorem Json.numberOfInteger_eq_error_iff (i : Int) (e : CoercionFault) :
    Json.numberOfInteger i = .error e ↔
      Binary64.threshold ≤ i.natAbs ∧ e = .integerTooLarge := by
  rw [← Binary64.ofInt?_eq_none_iff]
  unfold Json.numberOfInteger
  cases Binary64.ofInt? i <;> simp [eq_comm]

/-- Only such an integer is beyond the range of the double precision numbers. -/
theorem Json.eq_int_of_toNumber {v : Json} {e : CoercionFault} (h : v.toNumber = .error e)
    (hrange : e.isRange = true) :
    ∃ i, v = .int i ∧ Binary64.threshold ≤ i.natAbs := by
  cases v with
  | int i => exact ⟨i, rfl, ((Json.numberOfInteger_eq_error_iff i e).mp h).1⟩
  | bool b =>
    have hlarge := ((Json.numberOfInteger_eq_error_iff b.toInt e).mp h).1
    have hsmall : b.toInt.natAbs ≤ 1 := by cases b <;> decide
    have := Binary64.one_lt_threshold
    omega
  | str s =>
    simp only [toNumber, numberOfText] at h
    split at h
    · contradiction
    · obtain rfl := Except.error.inj h
      contradiction
  | num x => contradiction
  | null | arr | obj =>
    obtain rfl := Except.error.inj h
    contradiction

namespace Record

/-! ## Parts -/

/-- What a part of a record is read as. -/
inductive PartKind where
  | integer
  | number
  | text
  deriving DecidableEq

/-- A part of a record: a member of the object, or of the object of one of its elements. -/
structure Part where
  element : Option String
  name : String
  kind : PartKind

/-- The parts of an audit element in the order in which they are read. -/
def auditParts : List Part :=
  [⟨some "auditData", "actor", .text⟩, ⟨some "auditData", "action", .text⟩,
   ⟨some "auditData", "actee", .text⟩]

/-- The parts of a metric element in the order in which they are read. -/
def metricParts : List Part :=
  [⟨some "metricData", "name", .text⟩, ⟨some "metricData", "value", .number⟩,
   ⟨some "metricData", "object", .text⟩]

/-- The parts of a record in the order in which they are read. -/
def parts : List Part :=
  ⟨none, "facility", .integer⟩ :: ⟨none, "severity", .integer⟩ :: ⟨none, "version", .integer⟩ ::
  ⟨none, "timeStamp", .text⟩ :: ⟨none, "hostName", .text⟩ :: ⟨none, "application", .text⟩ ::
  ⟨none, "process", .text⟩ :: ⟨none, "messageId", .text⟩ ::
  (auditParts ++ (metricParts ++ [⟨none, "message", .text⟩]))

/-- Why a value cannot be read as a part of some kind. -/
def PartKind.fault? (room : Nat) (v : Json) : PartKind → Option DocumentFault
  | integer => errorOf (v.toInteger.mapError .number)
  | number => errorOf (v.toNumber.mapError .number)
  | text => errorOf ((v.displayWithin room).mapError .text)

namespace Part

/-- The value that is given for a part. -/
def value? (ms : List (String × Json)) (p : Part) : Option Json :=
  match p.element with
  | none => Members.find? ms p.name
  | some element =>
    match Json.member ms element with
    | .obj inner => Members.find? inner p.name
    | _ => none

/-- Why a part cannot be read.  What is not given has no fault, and an element that is neither null
nor an object has one in every part. -/
def fault? (room : Nat) (ms : List (String × Json)) (p : Part) : Option DocumentFault :=
  match p.element with
  | none => (Members.find? ms p.name).bind (p.kind.fault? room)
  | some element =>
    match Json.member ms element with
    | .null => none
    | .obj inner => (Members.find? inner p.name).bind (p.kind.fault? room)
    | v => some (.noMembers v.kind)

/-- A part is at fault by the value given for it, unless the fault is that of a whole element. -/
theorem fault?_eq_some_iff (room : Nat) (ms : List (String × Json)) (p : Part) {e : DocumentFault}
    (h : ¬ e.IsMalformed) :
    p.fault? room ms = some e ↔ ∃ w, p.value? ms = some w ∧ p.kind.fault? room w = some e := by
  have hwhole : ∀ kind, some (DocumentFault.noMembers kind) ≠ some e := fun kind he =>
    h (Option.some.inj he ▸ ⟨rfl, rfl⟩)
  cases hp : p.element with
  | none => simp only [fault?, value?, hp, Option.bind_eq_some_iff]
  | some element =>
    simp only [fault?, value?, hp]
    cases Json.member ms element with
    | null => simp
    | obj inner => simp only [Option.bind_eq_some_iff]
    | bool | int | num | str | arr => simp [hwhole]

end Part

section

variable (room : Nat) (ms : List (String × Json)) (name : String)

/-- A number of the record is at fault if its member is. -/
theorem errorOf_integerMember :
    errorOf (integerMember ms name) =
      (Members.find? ms name).bind (PartKind.integer.fault? room) := by
  unfold integerMember
  cases Members.find? ms name with
  | none => rfl
  | some v =>
    simp only [Option.getD_some, Option.bind_some, PartKind.fault?]
    cases v.toInteger <;> rfl

/-- So is the value of a metric element. -/
theorem errorOf_numberMember :
    errorOf (numberMember ms name) =
      (Members.find? ms name).bind (PartKind.number.fault? room) := by
  unfold numberMember
  cases Members.find? ms name with
  | none => rfl
  | some v =>
    simp only [Option.getD_some, Option.bind_some, PartKind.fault?]
    cases v.toNumber <;> rfl

/-- So is a text. -/
theorem errorOf_textMember :
    errorOf (textMember room ms name) =
      (Members.find? ms name).bind (PartKind.text.fault? room) := by
  unfold textMember
  cases Members.find? ms name with
  | none => rfl
  | some v =>
    simp only [Option.getD_some, Option.bind_some, PartKind.fault?]
    cases v.displayWithin room <;> rfl

end

/-! ## The first part at fault -/

section

variable {room : Nat} {ms : List (String × Json)}

/-- Some parts and then others have the first fault of the former, or else of the latter. -/
theorem errorOf_bind_append {α β : Type} {x : Except DocumentFault α}
    {f : α → Except DocumentFault β} {ps qs : List Part}
    (hx : errorOf x = ps.findSome? (Part.fault? room ms))
    (hf : ∀ a, errorOf (f a) = qs.findSome? (Part.fault? room ms)) :
    errorOf (x >>= f) = (ps ++ qs).findSome? (Part.fault? room ms) := by
  rw [errorOf_bind hf, hx, List.findSome?_append]

/-- What is read first is at fault first. -/
theorem errorOf_bind_cons {α β : Type} {x : Except DocumentFault α}
    {f : α → Except DocumentFault β} {p : Part} {qs : List Part}
    (hx : errorOf x = p.fault? room ms)
    (hf : ∀ a, errorOf (f a) = qs.findSome? (Part.fault? room ms)) :
    errorOf (x >>= f) = (p :: qs).findSome? (Part.fault? room ms) := by
  have hp : p.fault? room ms = [p].findSome? (Part.fault? room ms) := by
    rw [List.findSome?_singleton]
  exact errorOf_bind_append (hx.trans hp) hf

/-- An element is null, or no object and at fault as a whole, or has the first fault of its
parts. -/
theorem errorOf_optional {α : Type} {element : String} {read : Json → Except DocumentFault α}
    {p : Part} {ps : List Part} (hps : ∀ q ∈ p :: ps, q.element = some element)
    (hmembers : ∀ v e, v.asMembers = .error e → read v = .error e)
    (hread : ∀ inner, Json.member ms element = .obj inner →
      errorOf (read (.obj inner)) = (p :: ps).findSome? (Part.fault? room ms)) :
    errorOf (Json.optional read (Json.member ms element)) =
      (p :: ps).findSome? (Part.fault? room ms) := by
  have hp : p.element = some element := hps p List.mem_cons_self
  have hother : ∀ v, v ≠ .null → v.asMembers = .error (.noMembers v.kind) →
      errorOf (Json.optional read v) = some (.noMembers v.kind) := fun v hv he => by
    rw [Json.optional.eq_2 _ _ hv, hmembers v _ he]
    rfl
  cases hv : Json.member ms element with
  | null =>
    refine (List.findSome?_eq_none_iff.mpr fun q hq => ?_).symm
    simp only [Part.fault?, hps q hq, hv]
  | obj inner =>
    rw [← hread inner hv]
    simp only [Json.optional]
    cases read (.obj inner) <;> rfl
  | bool | int | num | str | arr =>
    rw [hother _ (by simp) rfl]
    simp only [List.findSome?_cons, Part.fault?, hp, hv]

variable (room ms)

/-- The audit element is at fault where its first faulty text is. -/
theorem errorOf_audit :
    errorOf (Json.optional (AuditElement.ofJsonWithin room) (Json.member ms "auditData")) =
      auditParts.findSome? (Part.fault? room ms) := by
  refine errorOf_optional (by decide) (fun v e h => ?_) fun inner h => ?_
  · rw [AuditElement.ofJsonWithin, h]
    rfl
  · have hpart : ∀ name, errorOf (textMember room inner name) =
        Part.fault? room ms ⟨some "auditData", name, .text⟩ := fun name => by
      simp only [Part.fault?, h, errorOf_textMember]
    change errorOf (textMember room inner "actor" >>= _) = _
    refine errorOf_bind_cons (hpart _) fun _ => ?_
    refine errorOf_bind_cons (hpart _) fun _ => ?_
    refine errorOf_bind_cons (hpart _) fun _ => ?_
    rfl

/-- The metric element is at fault where its first faulty part is. -/
theorem errorOf_metric :
    errorOf (Json.optional (MetricElement.ofJsonWithin room) (Json.member ms "metricData")) =
      metricParts.findSome? (Part.fault? room ms) := by
  refine errorOf_optional (by decide) (fun v e h => ?_) fun inner h => ?_
  · rw [MetricElement.ofJsonWithin, h]
    rfl
  · have hpart : ∀ name kind, (Members.find? inner name).bind (PartKind.fault? room · kind) =
        Part.fault? room ms ⟨some "metricData", name, kind⟩ := fun name kind => by
      simp only [Part.fault?, h]
    change errorOf (textMember room inner "name" >>= _) = _
    refine errorOf_bind_cons ((errorOf_textMember ..).trans (hpart _ .text)) fun _ => ?_
    refine errorOf_bind_cons ((errorOf_numberMember ..).trans (hpart _ .number)) fun _ => ?_
    refine errorOf_bind_cons ((errorOf_textMember ..).trans (hpart _ .text)) fun _ => ?_
    rfl

/-- What is wrong with an object is what is wrong with its first part at fault. -/
theorem errorOf_ofJsonWithin :
    errorOf (ofJsonWithin room (.obj ms)) = parts.findSome? (Part.fault? room ms) := by
  change errorOf (integerMember ms "facility" >>= _) = _
  iterate 3 refine errorOf_bind_cons (errorOf_integerMember room ms _) fun _ => ?_
  iterate 5 refine errorOf_bind_cons (errorOf_textMember room ms _) fun _ => ?_
  refine errorOf_bind_append (errorOf_audit room ms) fun _ => ?_
  refine errorOf_bind_append (errorOf_metric room ms) fun _ => ?_
  refine errorOf_bind_cons (errorOf_textMember room ms _) fun _ => ?_
  rfl

end

/-! ## Faults other than a malformed value -/

/-- The value is a number beyond the range of what it is to be read as: an infinity for an integer,
or an integer beyond the finite data. -/
inductive OutOfRange : PartKind → Json → Prop where
  | integer (negative : Bool) : OutOfRange .integer (.num (.infinite negative))
  | number {i : Int} (large : Binary64.threshold ≤ i.natAbs) : OutOfRange .number (.int i)

/-- The value is to be a text, and the first fault of its text is that values lie too deep. -/
inductive TooDeep (room : Nat) : PartKind → Json → Prop where
  | text {v : Json} (deep : v.displayWithin room = .error .tooDeep) : TooDeep room .text v

/-- The faults beyond a range are those of numbers out of range. -/
theorem exists_isRange_iff (room : Nat) (w : Json) (kind : PartKind) :
    (∃ e, kind.fault? room w = some e ∧ e.isRange = true) ↔ OutOfRange kind w := by
  constructor
  · rintro ⟨e, he, hrange⟩
    cases kind with
    | integer =>
      obtain ⟨c, hc, rfl⟩ := (errorOf_mapError_eq_some_iff ..).mp he
      obtain ⟨negative, rfl⟩ := Json.eq_infinite_of_toInteger hc hrange
      exact .integer negative
    | number =>
      obtain ⟨c, hc, rfl⟩ := (errorOf_mapError_eq_some_iff ..).mp he
      obtain ⟨i, rfl, hlarge⟩ := Json.eq_int_of_toNumber hc hrange
      exact .number hlarge
    | text =>
      obtain ⟨c, hc, rfl⟩ := (errorOf_mapError_eq_some_iff ..).mp he
      contradiction
  · rintro (negative | hlarge)
    · exact ⟨_, rfl, rfl⟩
    · have htoo := (Json.numberOfInteger_eq_error_iff _ _).mpr ⟨hlarge, rfl⟩
      exact ⟨_, (errorOf_mapError_eq_some_iff ..).mpr ⟨_, htoo, rfl⟩, rfl⟩

/-- The faults of depth are those of texts with values too deep. -/
theorem exists_isDepth_iff (room : Nat) (w : Json) (kind : PartKind) :
    (∃ e, kind.fault? room w = some e ∧ e.isDepth = true) ↔ TooDeep room kind w := by
  constructor
  · rintro ⟨e, he, hdepth⟩
    cases kind with
    | integer | number =>
      obtain ⟨c, hc, rfl⟩ := (errorOf_mapError_eq_some_iff ..).mp he
      contradiction
    | text =>
      obtain ⟨c, hc, rfl⟩ := (errorOf_mapError_eq_some_iff ..).mp he
      cases c with
      | tooManyDigits => contradiction
      | tooDeep => exact .text hc
  · rintro ⟨hdeep⟩
    exact ⟨_, (errorOf_mapError_eq_some_iff ..).mpr ⟨_, hdeep, rfl⟩, rfl⟩

/-! ## Reading a value -/

/-- All parts before this one can be read, and this value is given for it. -/
inductive Reached (room : Nat) : Json → Part → Json → Prop where
  | mk {ms : List (String × Json)} {before after : List Part} {p : Part} {w : Json}
      (split : parts = before ++ p :: after) (read : ∀ q ∈ before, q.fault? room ms = none)
      (given : p.value? ms = some w) : Reached room (.obj ms) p w

/-- Reading gives a record, or tells that the value is malformed. -/
def Documented (outcome : Except DocumentFault Record) : Prop :=
  (∃ r, outcome = .ok r) ∨ ∃ e, outcome = .error e ∧ e.IsMalformed

/-- Any other fault is the one of the value that is given for the first part at fault. -/
theorem ofJsonWithin_eq_error_iff (room : Nat) (v : Json) {e : DocumentFault}
    (h : ¬ e.IsMalformed) :
    ofJsonWithin room v = .error e ↔
      ∃ p w, Reached room v p w ∧ p.kind.fault? room w = some e := by
  have hobject : ∀ ms, ofJsonWithin room (.obj ms) = .error e ↔
      ∃ p w, Reached room (.obj ms) p w ∧ p.kind.fault? room w = some e := fun ms => by
    rw [← errorOf_eq_some_iff, errorOf_ofJsonWithin, List.findSome?_eq_some_iff]
    constructor
    · rintro ⟨before, p, after, hsplit, hp, hbefore⟩
      obtain ⟨w, hw, hfault⟩ := (p.fault?_eq_some_iff room ms h).mp hp
      exact ⟨p, w, ⟨hsplit, hbefore, hw⟩, hfault⟩
    · rintro ⟨p, w, ⟨hsplit, hbefore, hw⟩, hfault⟩
      exact ⟨_, p, _, hsplit, (p.fault?_eq_some_iff room ms h).mpr ⟨w, hw, hfault⟩, hbefore⟩
  have hother : ∀ kind, ofJsonWithin room v = .error (.noMembers kind) →
      (∀ ms, v ≠ .obj ms) → (ofJsonWithin room v = .error e ↔
        ∃ p w, Reached room v p w ∧ p.kind.fault? room w = some e) := fun kind hv hne => by
    rw [hv]
    refine ⟨fun he => absurd ⟨rfl, rfl⟩ (Except.error.inj he ▸ h), ?_⟩
    rintro ⟨p, w, ⟨-, -, -⟩, -⟩
    exact absurd rfl (hne _)
  cases v with
  | obj ms => exact hobject ms
  | null | bool | int | num | str | arr => exact hother _ rfl (by simp)

/-- A member is no deeper than all members together. -/
theorem depth_le_of_find? {ms : List (String × Json)} {name : String} {w : Json}
    (h : Members.find? ms name = some w) : w.depth ≤ Json.membersDepth ms := by
  induction ms with
  | nil => contradiction
  | cons m rest ih =>
    obtain ⟨n, v⟩ := m
    rw [Json.membersDepth]
    rw [Members.find?] at h
    split at h
    · obtain rfl := Option.some.inj h
      exact le_max_left ..
    · exact (ih h).trans (le_max_right ..)

/-- What is given for a part lies less deep than the whole value. -/
theorem depth_le_of_value? {ms : List (String × Json)} {p : Part} {w : Json}
    (h : p.value? ms = some w) : w.depth ≤ (Json.obj ms).depth := by
  unfold Part.value? at h
  rw [Json.depth]
  split at h
  · exact (depth_le_of_find? h).trans (Nat.le_succ _)
  · next element _ =>
    split at h
    · next inner hinner =>
      have hfind : Members.find? ms element = some (.obj inner) := by
        cases hfind : Members.find? ms element with
        | none => simp [Json.member, hfind] at hinner
        | some u => rw [← hinner, Json.member, hfind, Option.getD_some]
      have hinnerDepth := depth_le_of_find? hfind
      have := depth_le_of_find? h
      rw [Json.depth] at hinnerDepth
      omega
    · contradiction

/-- With room for its depth no part is too deep. -/
theorem not_tooDeep_of_depth_lt {room : Nat} {kind : PartKind} {w : Json} (h : w.depth < room) :
    ¬ TooDeep room kind w := by
  rintro ⟨hdeep⟩
  unfold Json.displayWithin at hdeep
  split at hdeep
  · contradiction
  · split at hdeep
    · next hfault =>
      obtain rfl := Except.error.inj hdeep
      exact Json.textFault?_ne_tooDeep w h hfault
    · contradiction

/-- A value is read as a record or told to be malformed, unless the first part that cannot be read
is given a number out of range or a text too deep; and with room for the depth of the value no text
is. -/
theorem documented_iff (room : Nat) (v : Json) :
    (Documented (ofJsonWithin room v) ↔
      ∀ p w, Reached room v p w → ¬ OutOfRange p.kind w ∧ ¬ TooDeep room p.kind w) ∧
    (v.depth < room → ∀ p w, Reached room v p w → ¬ TooDeep room p.kind w) := by
  refine ⟨⟨fun hdoc p w hreached => ?_, fun hnone => ?_⟩, ?_⟩
  · have hdocumented : ∀ e, ¬ e.IsMalformed → p.kind.fault? room w ≠ some e := fun e he hfault => by
      have hv := (ofJsonWithin_eq_error_iff room v he).mpr ⟨p, w, hreached, hfault⟩
      rw [hv] at hdoc
      obtain ⟨r, hr⟩ | ⟨e', he', hmalformed⟩ := hdoc
      · contradiction
      · exact he (Except.error.inj he' ▸ hmalformed)
    rw [← exists_isRange_iff room, ← exists_isDepth_iff]
    refine ⟨fun ⟨e, hfault, hrange⟩ => hdocumented e ?_ hfault,
      fun ⟨e, hfault, hdepth⟩ => hdocumented e ?_ hfault⟩
    · exact fun h => by simp [h.inRange] at hrange
    · exact fun h => by simp [h.shallow] at hdepth
  · cases hv : ofJsonWithin room v with
    | ok r => exact .inl ⟨r, rfl⟩
    | error e =>
      refine .inr ⟨e, rfl, ?_⟩
      by_contra h
      obtain ⟨p, w, hreached, hfault⟩ := (ofJsonWithin_eq_error_iff room v h).mp hv
      obtain ⟨hrange, hdepth⟩ := hnone p w hreached
      rw [← exists_isRange_iff room] at hrange
      rw [← exists_isDepth_iff] at hdepth
      refine h ⟨?_, ?_⟩
      · exact Bool.eq_false_iff.mpr fun he => hrange ⟨e, hfault, he⟩
      · exact Bool.eq_false_iff.mpr fun he => hdepth ⟨e, hfault, he⟩
  · rintro hroom p w ⟨-, -, hw⟩
    exact not_tooDeep_of_depth_lt ((depth_le_of_value? hw).trans_lt hroom)

/-- An object with an infinite number for the facility, which is not told to be malformed. -/
theorem documented_iff_infinite :
    (∀ p w, Reached Json.shownLimit (.obj [("facility", .num (.infinite false))]) p w →
      ¬ TooDeep Json.shownLimit p.kind w) ∧
    ¬ Documented (ofJsonWithin Json.shownLimit (.obj [("facility", .num (.infinite false))])) := by
  refine ⟨(documented_iff _ _).2 (by decide), fun h => ?_⟩
  have hreached : Reached Json.shownLimit (.obj [("facility", .num (.infinite false))])
      ⟨none, "facility", .integer⟩ (.num (.infinite false)) :=
    ⟨(List.nil_append _).symm, List.forall_mem_nil _, rfl⟩
  exact ((documented_iff _ _).1.mp h _ _ hreached).1 (.integer false)

end Record

end Logwire
