import Logwire.Proofs.Line.Header
import Logwire.Proofs.Time.Timestamp

/-!
# Logwire.Proofs.Line.Grammar

The lines that are read.

A `Layout` is a line taken apart: its header, the elements of its structured
data, and the tail behind the data.  `Layout.IsOf` says that a text has a given
layout, in terms of the form of the header, the timestamps and numbers that can
be read, and the reader of elements.  Reading a line accepts the texts that have
a layout and no others, and the record is made of the parts of the layout:
`ofLine_eq_ok_iff`.
-/

namespace Logwire

open Line Number Text Time

namespace Line

/-! ## Checked steps -/

/-- A step that succeeds hands its result to the next. -/
theorem bind_eq_ok_iff {ε α β : Type} {x : Except ε α} {f : α → Except ε β} {b : β} :
    (x >>= f) = .ok b ↔ ∃ a, x = .ok a ∧ f a = .ok b := by
  cases x with
  | error e => simp [bind, Except.bind]
  | ok a => simp [bind, Except.bind]

/-! ## Timestamps -/

/-- What goes on the wire for a text that is no timestamp is nil, and for no other. -/
theorem wireTimestamp_ne_nilText_iff (text : String) :
    wireTimestamp text ≠ nilText ↔ isRfc3339 text = true := by
  have hnil : isSyslogTimestamp nilText = false := by decide
  have hne : ∀ t, isSyslogTimestamp t = true → t ≠ nilText := by
    rintro t ht rfl
    rw [hnil] at ht
    contradiction
  unfold wireTimestamp
  by_cases hs : isSyslogTimestamp text = true
  · obtain ⟨-, -, hr⟩ := scan?_of_isSyslogTimestamp hs
    rw [if_pos hs]
    exact iff_of_true (hne text hs) hr
  · rw [if_neg hs]
    unfold isRfc3339
    cases hp : parseRfc3339 text with
    | error e => exact iff_of_false (fun h => h rfl) Bool.false_ne_true
    | ok m =>
      exact iff_of_true (hne _ (isSyslogTimestamp_format (readable_of_parseRfc3339 hp))) rfl

/-- The timestamp of a record for the field of a header. -/
def fieldTimestamp (field : List Char) : String :=
  if field = ['-'] then "" else wireTimestamp (String.ofList field)

/-- A timestamp is read if it is nil or one of RFC 3339. -/
theorem readTimestamp_eq_ok_iff {field : List Char} {text : String} :
    readTimestamp field = .ok text ↔
      (field = ['-'] ∨ isRfc3339 (String.ofList field) = true) ∧ text = fieldTimestamp field := by
  have hnil : nilText.toList = ['-'] := rfl
  unfold readTimestamp fieldTimestamp
  rw [hnil, ← wireTimestamp_ne_nilText_iff]
  by_cases hf : field = ['-']
  · rw [if_pos hf, if_pos hf, Except.ok.injEq]
    exact ⟨fun h => ⟨.inl hf, h.symm⟩, fun h => h.2.symm⟩
  · rw [if_neg hf, if_neg hf]
    by_cases hw : wireTimestamp (String.ofList field) = nilText
    · simp [hw, hf]
    · simp [hw, eq_comm]

/-! ## Structured data -/

/-- The structured data at the beginning of a text: nil, or elements. -/
inductive DataAt : List Char → List Element → List Char → Prop where
  | nil (tail : List Char) : DataAt ('-' :: tail) [] tail
  | elements {s tail : List Char} {es : List Element} (h : scanData ('[' :: s) = .ok (es, tail)) :
    DataAt ('[' :: s) es tail

/-- A metric element whose value, zero if it is missing, is a number; or any other element. -/
def Element.HasValue (e : Element) : Prop :=
  e.id = metricId → ∃ x, readBinary64 (paramText e.params "Value" "0").toList = some x

/-- A metric element is read exactly if its value is a numeral. -/
theorem exists_metricOfParams_iff {ps : Members String} :
    (∃ m, metricOfParams ps = .ok m) ↔
      ∃ x, readBinary64 (paramText ps "Value" "0").toList = some x := by
  unfold metricOfParams
  dsimp only
  cases hx : readBinary64 (paramText ps "Value" "0").toList with
  | none => simp
  | some x => simp

/-- So an element can be added exactly if it has a value where it needs one. -/
theorem exists_add_iff {k : Known} {e : Element} : (∃ k', k.add e = .ok k') ↔ e.HasValue := by
  unfold Known.add Element.HasValue
  by_cases ha : e.id = auditId
  · have hm : e.id ≠ metricId := by rw [ha]; decide
    rw [if_pos ha]
    exact iff_of_true ⟨_, rfl⟩ fun h => absurd h hm
  · rw [if_neg ha]
    by_cases hm : e.id = metricId
    · rw [if_pos hm, ← exists_metricOfParams_iff]
      cases metricOfParams e.params with
      | error f => simp [hm]
      | ok m => simp
    · rw [if_neg hm]
      exact iff_of_true ⟨_, rfl⟩ fun h => absurd h hm

theorem ofElements_cons {k k' : Known} {e : Element} {es : List Element} :
    Known.ofElements k (e :: es) = .ok k' ↔
      ∃ k₁, k.add e = .ok k₁ ∧ Known.ofElements k₁ es = .ok k' := by
  rw [Known.ofElements]
  cases k.add e with
  | error f => simp
  | ok k₁ => simp

/-- Elements are taken note of unless the value of a metric element is no number. -/
theorem exists_ofElements_iff {k : Known} {es : List Element} :
    (∃ k', Known.ofElements k es = .ok k') ↔ ∀ e ∈ es, e.HasValue := by
  induction es generalizing k with
  | nil => exact iff_of_true ⟨k, rfl⟩ (fun _ h => nomatch h)
  | cons e es ih =>
    rw [List.forall_mem_cons, ← exists_add_iff (k := k)]
    constructor
    · rintro ⟨k', h⟩
      obtain ⟨k₁, hadd, hes⟩ := ofElements_cons.mp h
      exact ⟨⟨k₁, hadd⟩, ih.mp ⟨k', hes⟩⟩
    · rintro ⟨⟨k₁, hadd⟩, hes⟩
      obtain ⟨k', h⟩ := ih.mpr hes
      exact ⟨k', ofElements_cons.mpr ⟨k₁, hadd, h⟩⟩

/-- Data is read exactly where its elements stand and can be added. -/
theorem readData_eq_ok_iff {s tail : List Char} {k : Known} :
    readData s = .ok (k, tail) ↔ ∃ es, DataAt s es tail ∧ Known.ofElements {} es = .ok k := by
  constructor
  · intro h
    unfold readData at h
    split at h
    · obtain ⟨rfl, rfl⟩ := Prod.mk.inj (Except.ok.inj h)
      exact ⟨[], .nil _, rfl⟩
    · split at h
      · contradiction
      · next es rest hs =>
        split at h
        · next k' hk =>
          obtain ⟨rfl, rfl⟩ := Prod.mk.inj (Except.ok.inj h)
          exact ⟨es, .elements hs, hk⟩
        · contradiction
    · contradiction
  · rintro ⟨es, hd, hk⟩
    cases hd with
    | nil tail =>
      obtain rfl := Except.ok.inj hk
      rfl
    | elements hs =>
      unfold readData
      simp only [hs, hk]

/-! ## Texts -/

/-- Nothing, or a space and what follows it. -/
def IsTail (tail : List Char) : Prop := tail = [] ∨ ∃ t, tail = ' ' :: t

/-- The text stands behind a space, without a byte order mark. -/
theorem readText_eq_ok_iff {tail text : List Char} :
    readText tail = .ok text ↔ IsTail tail ∧ text = dropMark (tail.drop 1) := by
  unfold readText IsTail
  split
  · simp [dropMark, eq_comm]
  · simp [eq_comm]
  · next h1 h2 =>
    have h1' : tail ≠ [] := fun h => h1 h
    have h2' : ∀ t, tail ≠ ' ' :: t := fun t h => h2 t h
    simp [h1', h2']

/-! ## Layouts -/

/-- A line taken apart. -/
structure Layout where
  header : Header
  elements : List Element
  tail : List Char

namespace Layout

/-- What stands behind the space that ends the structured data. -/
def text (l : Layout) : List Char := l.tail.drop 1

/-- A text has the layout, and what it denotes can be read. -/
structure IsOf (l : Layout) (s : List Char) : Prop where
  chars : s = l.header.chars
  formed : l.header.Formed
  priority : decimalValue l.header.priority ≤ maxPriority
  timestamp : l.header.timestamp = ['-'] ∨ isRfc3339 (String.ofList l.header.timestamp) = true
  data : DataAt l.header.rest l.elements l.tail
  values : ∀ e ∈ l.elements, e.HasValue
  tail : IsTail l.tail

/-- The record of a layout, with what is known from its elements. -/
def record (l : Layout) (k : Known) : Record where
  facility := (decimalValue l.header.priority / 8 : Nat)
  severity := (decimalValue l.header.priority % 8 : Nat)
  version := decimalValue l.header.version
  timestamp := fieldTimestamp l.header.timestamp
  hostName := unNil l.header.hostName
  application := unNil l.header.application
  process := unNil l.header.process
  messageId := unNil l.header.messageId
  audit := k.audit
  metric := k.metric
  message := String.ofList (dropMark l.text)

end Layout

/-- What is read behind a header. -/
theorem readLine_of_header {whole : String} {s : List Char} {h : Header} {r : Record}
    (hs : scanHeader s = some h) :
    readLine whole s = .ok r ↔ decimalValue h.priority ≤ maxPriority ∧
      ∃ es k tail, (h.timestamp = ['-'] ∨ isRfc3339 (String.ofList h.timestamp) = true) ∧
        DataAt h.rest es tail ∧ Known.ofElements {} es = .ok k ∧ IsTail tail ∧
        r = (Layout.mk h es tail).record k := by
  unfold readLine
  simp only [hs]
  by_cases hp : maxPriority < decimalValue h.priority
  · rw [if_pos hp]
    exact iff_of_false (fun e => nomatch e) fun e => absurd e.1 (Nat.not_le.mpr hp)
  · rw [if_neg hp]
    simp only [bind_eq_ok_iff, readTimestamp_eq_ok_iff, Prod.exists, readData_eq_ok_iff,
      readText_eq_ok_iff]
    constructor
    · rintro ⟨_, ⟨ht, rfl⟩, k, tail, ⟨es, hd, hk⟩, _, ⟨htail, rfl⟩, hr⟩
      exact ⟨Nat.not_lt.mp hp, es, k, tail, ht, hd, hk, htail, (Except.ok.inj hr).symm⟩
    · rintro ⟨-, es, k, tail, ht, hd, hk, htail, rfl⟩
      exact ⟨_, ⟨ht, rfl⟩, k, tail, ⟨es, hd, hk⟩, _, ⟨htail, rfl⟩, rfl⟩

/-- A line is read exactly if it has a layout, and gives the record of that layout. -/
theorem readLine_eq_ok_iff {whole : String} {s : List Char} {r : Record} :
    readLine whole s = .ok r ↔
      ∃ l k, Layout.IsOf l s ∧ Known.ofElements {} l.elements = .ok k ∧ r = l.record k := by
  constructor
  · intro hr
    cases hs : scanHeader s with
    | none =>
      unfold readLine at hr
      rw [hs] at hr
      contradiction
    | some h =>
      obtain ⟨hp, es, k, tail, ht, hd, hk, htail, rfl⟩ := (readLine_of_header hs).mp hr
      obtain ⟨hchars, hformed⟩ := scanHeader_eq_some_iff.mp hs
      exact ⟨⟨h, es, tail⟩, k, ⟨hchars, hformed, hp, ht, hd, exists_ofElements_iff.mp ⟨k, hk⟩, htail⟩,
        hk, rfl⟩
  · rintro ⟨l, k, hl, hk, rfl⟩
    have hs : scanHeader s = some l.header := scanHeader_eq_some_iff.mpr ⟨hl.chars, hl.formed⟩
    exact (readLine_of_header hs).mpr
      ⟨hl.priority, l.elements, k, l.tail, hl.timestamp, hl.data, hk, hl.tail, rfl⟩

/-- What can be read from a layout's elements is known. -/
theorem Layout.IsOf.exists_known {l : Layout} {s : List Char} (h : l.IsOf s) :
    ∃ k, Known.ofElements {} l.elements = .ok k := exists_ofElements_iff.mpr h.values

end Line

/-- The characters of a line that are read. -/
def lineOf (text : String) : List Char := trimEnd isLineBreak text.toList

namespace Record

/-- A record is read exactly from the layouts of a line, and is what the layout says. -/
theorem ofLine_eq_ok_iff {text : String} {r : Record} :
    ofLine text = .ok r ↔
      ∃ l k, Layout.IsOf l (lineOf text) ∧ Known.ofElements {} l.elements = .ok k ∧ r = l.record k :=
  readLine_eq_ok_iff

/-- **The lines that are read** are those with a layout; every other text is a fault.  The numbers
of the record are those of the header, and a nil field comes back empty. -/
theorem ofLine_iff_layout (text : String) :
    ((∃ r, ofLine text = .ok r) ↔ ∃ l : Layout, l.IsOf (lineOf text)) ∧
      ((∃ fault, ofLine text = .error fault) ↔ ¬ ∃ l : Layout, l.IsOf (lineOf text)) ∧
      ∀ r, ofLine text = .ok r → ∃ l : Layout, l.IsOf (lineOf text) ∧
        r.facility = (decimalValue l.header.priority / 8 : Nat) ∧
        r.severity = (decimalValue l.header.priority % 8 : Nat) ∧ r.facility ≤ 23 ∧
        r.version = decimalValue l.header.version ∧
        r.timestamp = (if l.header.timestamp = ['-'] then ""
          else wireTimestamp (String.ofList l.header.timestamp)) ∧
        ∀ p ∈ [(l.header.hostName, r.hostName), (l.header.application, r.application),
          (l.header.process, r.process), (l.header.messageId, r.messageId)],
          p.2 = if p.1 = ['-'] then "" else String.ofList p.1 := by
  have hiff : (∃ r, ofLine text = .ok r) ↔ ∃ l : Layout, l.IsOf (lineOf text) := by
    constructor
    · rintro ⟨r, hr⟩
      obtain ⟨l, k, hl, -, -⟩ := ofLine_eq_ok_iff.mp hr
      exact ⟨l, hl⟩
    · rintro ⟨l, hl⟩
      obtain ⟨k, hk⟩ := hl.exists_known
      exact ⟨l.record k, ofLine_eq_ok_iff.mpr ⟨l, k, hl, hk, rfl⟩⟩
  refine ⟨hiff, ?_, ?_⟩
  · rw [← hiff]
    cases ofLine text with
    | error f => simp
    | ok r => simp
  · intro r hr
    obtain ⟨l, k, hl, -, rfl⟩ := ofLine_eq_ok_iff.mp hr
    have hp : decimalValue l.header.priority ≤ 191 := hl.priority
    refine ⟨l, hl, rfl, rfl, ?_, rfl, rfl, ?_⟩
    · simp only [Layout.record]
      omega
    · simp only [List.forall_mem_cons]
      exact ⟨rfl, rfl, rfl, rfl, fun _ h => nomatch h⟩

end Record

end Logwire
