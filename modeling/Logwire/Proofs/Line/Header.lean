import Logwire.Line.Reader
import Mathlib.Data.List.TakeWhile

/-!
# Logwire.Proofs.Line.Header

The header of a line as a form of text,

```
"<" priority ">" version " " timestamp " " host " " application " " process " " message-id " " rest
```

with up to three digits of a priority, up to two of a version, and five fields
without blanks.  Each scanner reads exactly its form, and the parts it gives
are the only ones: `scanHeader_eq_some_iff`.
-/

namespace Logwire.Line

open Text

/-! ## Spans -/

/-- A span up to a character outside the class is the only way to split a text there. -/
theorem span_eq_iff {p : Char → Bool} {s front rest : List Char} {c : Char} :
    (s.takeWhile p = front ∧ s.dropWhile p = c :: rest) ↔
      s = front ++ c :: rest ∧ (∀ x ∈ front, p x = true) ∧ p c = false := by
  constructor
  · rintro ⟨rfl, hd⟩
    refine ⟨?_, fun x hx => List.mem_takeWhile_imp hx, ?_⟩
    · rw [← hd, List.takeWhile_append_dropWhile]
    · have hpos : 0 < (s.dropWhile p).length := by rw [hd]; exact Nat.zero_lt_succ _
      have := List.dropWhile_get_zero_not p s hpos
      simpa [hd] using this
  · rintro ⟨rfl, hfront, hc⟩
    have hc' : ¬ p c = true := by simp [hc]
    constructor
    · rw [List.takeWhile_append_of_pos hfront, List.takeWhile_cons_of_neg hc', List.append_nil]
    · rw [List.dropWhile_append_of_pos hfront, List.dropWhile_cons_of_neg hc']

/-! ## Numbers and fields -/

/-- One to `most` decimal digits, of any script. -/
def IsNumber (most : Nat) (s : List Char) : Prop :=
  (∀ c ∈ s, isDecimal c = true) ∧ 1 ≤ s.length ∧ s.length ≤ most

/-- A field of the header: some characters, none of them blank. -/
def IsField (s : List Char) : Prop := s ≠ [] ∧ ∀ c ∈ s, isBlank c = false

instance (most : Nat) (s : List Char) : Decidable (IsNumber most s) :=
  decidable_of_iff (s.all isDecimal = true ∧ 1 ≤ s.length ∧ s.length ≤ most) (by simp [IsNumber])

instance (s : List Char) : Decidable (IsField s) :=
  decidable_of_iff (s ≠ [] ∧ s.all (fun c => !isBlank c) = true) (by simp [IsField])

/-- A number of the header is a row of digits, not too long, up to its stop. -/
theorem scanNumber_eq_some_iff {most : Nat} {stop : Char} (hstop : isDecimal stop = false)
    {s digits rest : List Char} :
    scanNumber most stop s = some (digits, rest) ↔
      s = digits ++ stop :: rest ∧ IsNumber most digits := by
  unfold scanNumber IsNumber
  constructor
  · intro h
    split at h
    · next c r hd =>
      rw [Option.ite_none_right_eq_some, Option.some.injEq, Prod.mk.injEq] at h
      obtain ⟨⟨rfl, hlen⟩, rfl, rfl⟩ := h
      obtain ⟨hs, hdig, -⟩ := span_eq_iff.mp ⟨rfl, hd⟩
      exact ⟨hs, hdig, hlen⟩
    · contradiction
  · rintro ⟨hs, hdig, hlen⟩
    obtain ⟨htake, hdrop⟩ := span_eq_iff.mpr ⟨hs, hdig, hstop⟩
    rw [hdrop, htake]
    exact if_pos ⟨rfl, hlen⟩

/-- A field of the header is what stands in front of the next space. -/
theorem scanField_eq_some_iff {s field rest : List Char} :
    scanField s = some (field, rest) ↔ s = field ++ ' ' :: rest ∧ IsField field := by
  unfold scanField IsField
  constructor
  · intro h
    split at h
    · next r hd =>
      rw [Option.ite_none_left_eq_some, Option.some.injEq, Prod.mk.injEq] at h
      obtain ⟨hne, rfl, rfl⟩ := h
      obtain ⟨hs, hfield, -⟩ := span_eq_iff.mp ⟨rfl, hd⟩
      refine ⟨hs, by simpa using hne, fun c hc => by simpa using hfield c hc⟩
    · contradiction
  · rintro ⟨hs, hne, hfield⟩
    have hin : ∀ c ∈ field, (!isBlank c) = true := fun c hc => by simp [hfield c hc]
    obtain ⟨htake, hdrop⟩ := (span_eq_iff (p := fun c => !isBlank c)).mpr ⟨hs, hin, by decide⟩
    rw [hdrop, htake]
    exact if_neg (by simpa using hne)

/-! ## Headers -/

namespace Header

/-- The text of a line with the given header. -/
def chars (h : Header) : List Char :=
  '<' :: (h.priority ++ '>' :: (h.version ++ ' ' :: (h.timestamp ++ ' ' :: (h.hostName ++
    ' ' :: (h.application ++ ' ' :: (h.process ++ ' ' :: (h.messageId ++ ' ' :: h.rest)))))))

/-- Numbers and fields where the header has them. -/
structure Formed (h : Header) : Prop where
  priority : IsNumber 3 h.priority
  version : IsNumber 2 h.version
  timestamp : IsField h.timestamp
  hostName : IsField h.hostName
  application : IsField h.application
  process : IsField h.process
  messageId : IsField h.messageId

end Header

/-- A header is read exactly from a text in its form, and it is the only one of the text. -/
theorem scanHeader_eq_some_iff {s : List Char} {h : Header} :
    scanHeader s = some h ↔ s = h.chars ∧ h.Formed := by
  have hgt : isDecimal '>' = false := by decide
  have hspace : isDecimal ' ' = false := by decide
  constructor
  · intro hs
    unfold scanHeader at hs
    dsimp only at hs
    split at hs
    · simp only [Option.bind_eq_bind, Option.bind_some, Option.bind_eq_some_iff, Prod.exists,
        scanNumber_eq_some_iff hgt, scanNumber_eq_some_iff hspace, scanField_eq_some_iff,
        Option.pure_def, Option.some.injEq] at hs
      obtain ⟨_, _, ⟨rfl, hp⟩, _, _, ⟨rfl, hv⟩, _, _, ⟨rfl, ht⟩, _, _, ⟨rfl, hh⟩, _, _, ⟨rfl, ha⟩,
        _, _, ⟨rfl, hpr⟩, _, _, ⟨rfl, hm⟩, rfl⟩ := hs
      exact ⟨rfl, hp, hv, ht, hh, ha, hpr, hm⟩
    · contradiction
  · rintro ⟨rfl, hp, hv, ht, hh, ha, hpr, hm⟩
    unfold scanHeader Header.chars
    simp only [Option.bind_eq_bind, Option.bind_some,
      (scanNumber_eq_some_iff hgt).mpr ⟨rfl, hp⟩, (scanNumber_eq_some_iff hspace).mpr ⟨rfl, hv⟩,
      scanField_eq_some_iff.mpr ⟨rfl, ht⟩, scanField_eq_some_iff.mpr ⟨rfl, hh⟩,
      scanField_eq_some_iff.mpr ⟨rfl, ha⟩, scanField_eq_some_iff.mpr ⟨rfl, hpr⟩,
      scanField_eq_some_iff.mpr ⟨rfl, hm⟩, Option.pure_def]

/-- A text has at most one header. -/
theorem Header.eq_of_chars_eq {h h' : Header} (hf : h.Formed) (hf' : h'.Formed)
    (he : h.chars = h'.chars) : h = h' := by
  have hs : scanHeader h.chars = some h := scanHeader_eq_some_iff.mpr ⟨rfl, hf⟩
  have hs' : scanHeader h.chars = some h' := scanHeader_eq_some_iff.mpr ⟨he, hf'⟩
  exact Option.some.inj (hs.symm.trans hs')

end Logwire.Line
