import Logwire.Json.Reader

/-!
# Logwire.Proofs.Json.Room

A reader with room for as many arrays and objects as its text has characters
never runs out of it: `parseWithin_fits`.

Each array or object takes one unit of the room and at least one character of
the text, so the room stays at least as large as the text that is left.  No other
part of the reader looks at the room at all.
-/

namespace Logwire.Json

/-- Whether a value opens within too many others. -/
def ReadCause.isTooDeep : ReadCause → Bool
  | .tooDeep _ => true
  | _ => false

/-- A reader has room enough: if it fails, it is for another cause. -/
def Fits {α : Type} (outcome : Except ReadFault α) : Prop :=
  ∀ e, outcome = .error e → e.cause.isTooDeep = false

theorem fits_ok {α : Type} (a : α) : Fits (.ok a) := fun _ he => nomatch he

theorem fits_error {α : Type} {e : ReadFault} (h : e.cause.isTooDeep = false) :
    Fits (.error e : Except ReadFault α) := fun _ he => Except.error.inj he ▸ h

/-! ## Strings -/

theorem fits_lowUnit? (s : List Char) : Fits (lowUnit? s) := by
  unfold lowUnit?
  split
  · split
    · exact fits_ok _
    · split
      · exact fits_error rfl
      · split
        · exact fits_ok _
        · exact fits_ok _
  · exact fits_ok _

theorem fits_readUnits (s : List Char) : Fits (readUnits s) := by
  unfold readUnits
  split
  · exact fits_error rfl
  · split
    · split
      · next heq => exact fits_error (fits_lowUnit? _ _ heq)
      · exact fits_ok _
      · exact fits_ok _
    · exact fits_ok _

theorem fits_readEscape (start : Nat) (s : List Char) : Fits (readEscape start s) := by
  unfold readEscape
  split
  · exact fits_error rfl
  · split
    · exact fits_readUnits _
    · split
      · exact fits_error rfl
      · exact fits_ok _

/-- No string is too deep. -/
theorem fits_readChars (start : Nat) (s : List Char) : Fits (readChars start s) := by
  fun_induction readChars start s with
  | case1 => exact fits_error rfl
  | case2 => exact fits_ok _
  | case3 r e heq => exact fits_error (fits_readEscape _ _ _ heq)
  | case4 r c' t heq e hrest _ ih => exact fits_error (ih _ hrest)
  | case5 => exact fits_ok _
  | case6 => exact fits_error rfl
  | case7 c r _ _ _ e hrest ih => exact fits_error (ih _ hrest)
  | case8 => exact fits_ok _

theorem fits_readText (s : List Char) : Fits (readText s) := by
  unfold readText
  split
  · next heq => exact fits_error (fits_readChars _ _ _ heq)
  · exact fits_ok _

/-! ## Names, separators and scalars -/

theorem fits_readColon (s : List Char) : Fits (readColon s) := by
  unfold readColon
  split
  · exact fits_ok _
  · exact fits_error rfl

theorem fits_readName (s : List Char) : Fits (readName s) := by
  unfold readName
  split
  · split
    · next heq => exact fits_error (fits_readText _ _ heq)
    · split
      · next heq => exact fits_error (fits_readColon _ _ heq)
      · exact fits_ok _
  · exact fits_error rfl

theorem fits_readSeparator (close : Char) (s : List Char) : Fits (readSeparator close s) := by
  unfold readSeparator
  split
  · exact fits_error rfl
  · split
    · exact fits_ok _
    · split
      · exact fits_ok _
      · exact fits_error rfl

/-- The only cause for which a number is not read is that it has too many digits. -/
theorem exists_tooManyDigits_of_readNumber {s r : List Char} {cause : ReadCause}
    (h : readNumber s = some (.error cause, r)) : ∃ count, cause = .tooManyDigits count := by
  unfold readNumber at h
  split at h
  · contradiction
  · simp only at h
    split at h
    · split at h
      · obtain ⟨hcause, -⟩ := Prod.mk.inj (Option.some.inj h)
        exact ⟨_, (Except.error.inj hcause).symm⟩
      · exact nomatch (Prod.mk.inj (Option.some.inj h)).1
    · exact nomatch (Prod.mk.inj (Option.some.inj h)).1

/-- A value that holds no other is never too deep. -/
theorem fits_readScalar (s : List Char) : Fits (readScalar s) := by
  unfold readScalar
  split
  · exact fits_ok _
  · split
    · exact fits_error rfl
    · next heq =>
      obtain ⟨count, rfl⟩ := exists_tooManyDigits_of_readNumber heq
      exact fits_error rfl
    · exact fits_ok _

/-! ## Values -/

mutual

/-- A value has room enough if there is room for every character. -/
theorem fits_readValue (room : Nat) (s : List Char) (h : s.length ≤ room) :
    Fits (readValue room s) := by
  match s with
  | [] =>
    rw [readValue.eq_def]
    exact fits_error rfl
  | c :: r =>
    rw [readValue.eq_def]
    simp only
    split
    · split
      · next heq => exact fits_error (fits_readText _ _ heq)
      · exact fits_ok _
    · split
      · match room with
        | room + 1 =>
          simp only
          split
          · exact fits_ok _
          · have ht := Nat.le_trans (length_skip_le r) (Nat.le_of_succ_le_succ h)
            split
            · next heq => exact fits_error (fits_readItems room _ ht _ heq)
            · exact fits_ok _
      · split
        · match room with
          | room + 1 =>
            simp only
            split
            · exact fits_ok _
            · have ht := Nat.le_trans (length_skip_le r) (Nat.le_of_succ_le_succ h)
              split
              · next heq => exact fits_error (fits_readMembers room _ _ ht _ heq)
              · exact fits_ok _
        · exact fits_readScalar _
  termination_by (s.length, 0)
  decreasing_by
    all_goals exact Prod.Lex.left _ _ (Nat.lt_succ_of_le (length_skip_le _))

/-- With room for every character left, the items of an array are not too deep. -/
theorem fits_readItems (room : Nat) (s : List Char) (h : s.length ≤ room) :
    Fits (readItems room s) := by
  rw [readItems.eq_def]
  split
  · next heq => exact fits_error (fits_readValue room s h _ heq)
  · next v t _ =>
    have ht := t.2
    simp only
    split
    · next heq => exact fits_error (fits_readSeparator _ _ _ heq)
    · exact fits_ok _
    · next u _ =>
      have hu := u.2
      split
      · next heq => exact fits_error (fits_readItems room u.1 (by omega) _ heq)
      · exact fits_ok _
  termination_by (s.length, 1)
  decreasing_by
    · exact Prod.Lex.right _ Nat.zero_lt_one
    · exact Prod.Lex.left _ _ (Nat.lt_trans hu ht)

/-- With as much room the members of an object are not too deep. -/
theorem fits_readMembers (room : Nat) (s : List Char) (before : List (String × Json))
    (h : s.length ≤ room) : Fits (readMembers room s before) := by
  rw [readMembers.eq_def]
  split
  · next heq => exact fits_error (fits_readName _ _ heq)
  · next name t _ =>
    have ht := t.2
    simp only
    split
    · next heq => exact fits_error (fits_readValue room t.1 (by omega) _ heq)
    · next v u _ =>
      have hu := u.2
      split
      · next heq => exact fits_error (fits_readSeparator _ _ _ heq)
      · exact fits_ok _
      · next w _ =>
        have hw := w.2
        split
        · next heq => exact fits_error (fits_readMembers room w.1 _ (by omega) _ heq)
        · exact fits_ok _
  termination_by (s.length, 1)
  decreasing_by
    · exact Prod.Lex.left _ _ ht
    · exact Prod.Lex.left _ _ (Nat.lt_trans hw (Nat.lt_trans hu ht))

end

/-- With room for every character a document is not too deep. -/
theorem fits_readDocument {room : Nat} {s : List Char} (h : s.length ≤ room) :
    Fits (readDocument room s) := by
  unfold readDocument
  split
  · next heq =>
    exact fits_error (fits_readValue room _ (Nat.le_trans (length_skip_le s) h) _ heq)
  · split
    · exact fits_ok _
    · exact fits_error rfl

/-- A text is read with room for every character: no value in it opens too deep. -/
theorem parseWithin_fits {room : Nat} {s : List Char} (h : s.length ≤ room) {e : ParseFault}
    (he : parseWithin room s = .error e) : e.cause.isTooDeep = false := by
  unfold parseWithin at he
  split at he
  · contradiction
  · next e' heq =>
    rw [← Except.error.inj he]
    exact fits_readDocument h e' heq

end Logwire.Json
