import Logwire.Proofs.Line.RoundTrip
import Logwire.Record.Validity

/-!
# Logwire.Proofs.Line.Validity

What validity is worth on the wire.

A valid record without elements is meant to come back `cleaned`: a field that is
nil is empty then, and one byte order mark in front of the text is gone.
Validity asks for fields that are not empty and for a timestamp in the narrow
form.  It leaves two things open, blanks in a field and a line feed behind the
timestamp, and just these decide whether the record comes back:
`comesBackAs_cleaned_iff`.

What a blank can do is shown by `smuggled`, a valid record whose host name ends
the header early and brings an audit element of its own.
-/

namespace Logwire

open Line Text Time

namespace Line

/-- A field as it is known behind the wire, where nil and absent are one. -/
def withoutNil (s : String) : String := if s = nilText then "" else s

/-- A field comes back, but that nil comes back empty. -/
theorem unNil_orNil_eq (s : String) : unNil (orNil s).toList = withoutNil s := by
  unfold withoutNil
  by_cases hs : s = nilText
  · rw [if_pos hs, hs]
    decide
  · rw [if_neg hs, unNil_orNil hs]

/-- Nil is a token, so leaving it out hides no blank. -/
theorem isToken_withoutNil_iff {s : String} : IsToken (withoutNil s) ↔ IsToken s := by
  unfold withoutNil
  by_cases hs : s = nilText
  · rw [if_pos hs, hs]
    exact iff_of_true (by decide) (by decide)
  · rw [if_neg hs]

end Line

namespace Record

/-- The record with nil fields empty and its text without a byte order mark. -/
def cleaned (r : Record) : Record := { r with
  hostName := withoutNil r.hostName
  application := withoutNil r.application
  process := withoutNil r.process
  messageId := withoutNil r.messageId
  message := String.ofList (dropMark r.message.toList) }

/-- Of a valid record without elements nothing else changes on the wire. -/
theorem received_eq_cleaned {r : Record} (hv : r.Valid) (he : r.audit = none ∧ r.metric = none) :
    r.received = r.cleaned := by
  have hstamp : fieldTimestamp (wireTimestamp r.timestamp).toList = r.timestamp :=
    fieldTimestamp_of_isSyslogTimestamp hv.timestamp
  have htext : foldBreaks r.message.toList = r.message.toList := foldBreaks_of_noBreak hv.message
  unfold received cleaned
  rw [hstamp, htext, he.1, he.2]
  simp only [unNil_orNil_eq, Option.map_none]

/-- Whatever comes back from a line has a header that a line shows as it is. -/
theorem ComesBackAs.hasPlainHeader {r m : Record} (h : r.ComesBackAs m) : m.HasPlainHeader := by
  obtain ⟨line, -, hm⟩ := h
  obtain ⟨l, k, hl, -, rfl⟩ := ofLine_eq_ok_iff.mp hm
  exact Layout.hasPlainHeader_record hl

/-- What a valid record lacks of a header that can be read back. -/
theorem Valid.hasHeader {r : Record} (hv : r.Valid) (ht : hasLineBreak r.timestamp = false)
    (hf : ∀ s ∈ [r.hostName, r.application, r.process, r.messageId], IsToken s) : r.HasHeader := by
  have hfacility : r.facility = 1 := hv.facility
  have hversion : r.version = 1 := hv.version
  exact HasPlainHeader.hasHeader {
    severity := hv.severity
    facility := by omega
    version := by omega
    timestamp := .inr ⟨hv.timestamp, ht⟩
    fields := hf }

/-- **A valid record without elements comes back** exactly if its timestamp stands on one line and
its fields hold no blanks. -/
theorem comesBackAs_cleaned_iff {r : Record} (hv : r.fault? = none)
    (he : r.audit = none ∧ r.metric = none) :
    r.ComesBackAs r.cleaned ↔ hasLineBreak r.timestamp = false ∧
      ∀ s ∈ [r.hostName, r.application, r.process, r.messageId], IsToken s := by
  have hvalid := r.fault?_eq_none_iff.mp hv
  constructor
  · intro h
    -- what is read from a line has a plain header, here that of the record itself
    have hplain := h.hasPlainHeader
    have hstamp : hasLineBreak r.timestamp = false := by
      cases hplain.timestamp with
      | inl hempty =>
        rw [show r.timestamp = "" from hempty]
        decide
      | inr hnarrow => exact hnarrow.2
    have hfields := hplain.fields
    simp only [cleaned, List.forall_mem_cons, isToken_withoutNil_iff] at hfields
    simp only [List.forall_mem_cons]
    exact ⟨hstamp, hfields⟩
  · rintro ⟨ht, hf⟩
    have hback := comesBackAs_received (hvalid.hasHeader ht hf) (.inl (elements_eq_nil_iff.mpr he))
    rwa [received_eq_cleaned hvalid he] at hback

/-- A valid record whose host name goes on with three fields and an audit element. -/
def smuggled : Record where
  facility := 1
  severity := 6
  version := 1
  timestamp := "2023-01-02T03:04:05Z"
  hostName := "h a p m [pzaudit@48851 Actor=\"root\" Action=\"delete\" Actee=\"users\"]"
  application := "A"
  process := "1"
  messageId := ""
  audit := none
  metric := none
  message := "hello"

/-- A valid record with blanks in a field does not come back. -/
theorem not_comesBackAs_smuggled : smuggled.fault? = none ∧
    (smuggled.audit = none ∧ smuggled.metric = none) ∧
    ¬ smuggled.ComesBackAs smuggled.cleaned := by
  have hv : smuggled.fault? = none := by decide
  have he : smuggled.audit = none ∧ smuggled.metric = none := ⟨rfl, rfl⟩
  refine ⟨hv, he, fun h => ?_⟩
  have hhost := ((comesBackAs_cleaned_iff hv he).mp h).2 smuggled.hostName List.mem_cons_self
  exact absurd hhost (by decide)

/-- What is read instead reports an action that nobody took. -/
theorem comesBackAs_forged : smuggled.ComesBackAs { smuggled with
    hostName := "h"
    application := "a"
    process := "p"
    messageId := "m"
    audit := some ⟨"root", "delete", "users"⟩
    message := "A 1 - - hello" } :=
  ⟨smuggled.line, by decide +kernel, by decide +kernel⟩

end Record

end Logwire
