import Logwire.Text.Encoding

/-!
# Logwire.Proofs.Text.Octets

ASCII texts in UTF-8 and back.

An ASCII character is one octet.  A text of such characters, none of them zero,
begins like no byte order mark and shows no zeros to guess another encoding
from, so its octets are decoded to the text (`decode_octets`).  Whatever the
encoding, a character takes at least one octet (`length_decode_le`).
-/

namespace Logwire.Text

/-- The octets of a text in UTF-8. -/
def octets (s : String) : List UInt8 := s.toUTF8.data.toList

/-- An ASCII character other than zero. -/
def IsAscii (c : Char) : Prop := c.toNat ≠ 0 ∧ c.toNat < 0x80

/-- The octet of an ASCII character. -/
def octet (c : Char) : UInt8 := UInt8.ofNat c.toNat

theorem toNat_octet {c : Char} (h : IsAscii c) : (octet c).toNat = c.toNat := by
  rw [octet, UInt8.toNat_ofNat']
  exact Nat.mod_eq_of_lt (Nat.lt_trans h.2 (by decide))

theorem utf8EncodeChar_of_isAscii {c : Char} (h : IsAscii c) :
    String.utf8EncodeChar c = [octet c] := by
  have hlow : c.val.toNat ≤ 127 := Nat.le_of_lt_succ h.2
  unfold String.utf8EncodeChar
  simp only [if_pos hlow]
  rfl

/-- An ASCII text has an octet for each character. -/
theorem octets_ofList {cs : List Char} (h : ∀ c ∈ cs, IsAscii c) :
    octets (String.ofList cs) = cs.map octet := by
  have hencode : cs.flatMap String.utf8EncodeChar = cs.map octet := by
    rw [List.flatMap_def, List.map_congr_left fun c hc => utf8EncodeChar_of_isAscii (h c hc),
      ← List.flatMap_def, List.map_eq_flatMap]
  unfold octets
  rw [String.toUTF8_eq_toByteArray, String.toByteArray_ofList, List.utf8Encode,
    List.toList_data_toByteArray, hencode]

/-- Octets below 128 are read one by one. -/
theorem decodeFrom_map_octet {cs : List Char} (h : ∀ c ∈ cs, IsAscii c) (position : Nat) :
    decodeFrom .utf8 position (cs.map octet) = .ok cs := by
  induction cs generalizing position with
  | nil => rw [List.map_nil, decodeFrom]
  | cons c cs ih =>
    have hc := h c List.mem_cons_self
    have hstep : step .utf8 (octet c) (cs.map octet) = .ok (c, 0) := by
      simp only [step, stepUtf8, toNat_octet hc, if_pos hc.2, Char.ofNat_toNat]
    rw [List.map_cons, decodeFrom]
    simp only [hstep, List.drop_zero, ih fun x hx => h x (List.mem_cons_of_mem c hx)]

theorem octet_ne_zero {c : Char} (h : IsAscii c) : octet c ≠ 0 := by
  intro hzero
  have := toNat_octet h
  rw [hzero] at this
  exact h.1 this.symm

/-- An ASCII text is taken for UTF-8, since no octet of it is zero. -/
theorem guess_map_octet {cs : List Char} (h : ∀ c ∈ cs, IsAscii c) :
    guess (cs.map octet) = .utf8 := by
  have hzero : ∀ b ∈ cs.map octet, b ≠ 0 := by
    simp only [List.forall_mem_map]
    exact fun c hc => octet_ne_zero (h c hc)
  unfold guess
  split
  · next a b c d r heq =>
    rw [heq] at hzero
    rw [if_neg (hzero a (by simp)), if_neg (hzero b (by simp))]
  · next a b heq =>
    rw [heq] at hzero
    rw [if_neg (hzero a (by simp)), if_neg (hzero b (by simp))]
  · rfl

/-- An ASCII text is decoded from its octets. -/
theorem decode_octets {cs : List Char} (h : ∀ c ∈ cs, IsAscii c) :
    decode (octets (String.ofList cs)) = .ok cs := by
  have hfirst : ∀ b r, cs.map octet = b :: r → b ≠ 0 ∧ b < 0x80 := by
    intro b r heq
    obtain ⟨c, hc, rfl⟩ := List.mem_map.mp (show b ∈ cs.map octet by rw [heq]; simp)
    refine ⟨octet_ne_zero (h c hc), ?_⟩
    rw [UInt8.lt_iff_toNat_lt, toNat_octet (h c hc)]
    exact (h c hc).2
  rw [octets_ofList h]
  unfold decode
  split
  · next heq => exact absurd rfl (hfirst _ _ heq).1
  · next heq => exact absurd (hfirst _ _ heq).2 (by decide)
  · next heq => exact absurd (hfirst _ _ heq).2 (by decide)
  · next heq => exact absurd (hfirst _ _ heq).2 (by decide)
  · next heq => exact absurd (hfirst _ _ heq).2 (by decide)
  · rw [guess_map_octet h, decodeFrom_map_octet h]

/-! ## Length -/

/-- A character takes at least one octet. -/
theorem length_decodeFrom_le {encoding : Encoding} {position : Nat} {s : List UInt8}
    {cs : List Char} (h : decodeFrom encoding position s = .ok cs) : cs.length ≤ s.length := by
  fun_induction decodeFrom encoding position s generalizing cs with
  | case1 =>
    rw [← Except.ok.inj h]
    exact Nat.le_refl 0
  | case2 => contradiction
  | case3 => contradiction
  | case4 position first r c extra _ cs' hrest ih =>
    rw [← Except.ok.inj h, List.length_cons, List.length_cons]
    have := ih hrest
    rw [List.length_drop] at this
    omega

/-- A body has no more characters than octets. -/
theorem length_decode_le {s : List UInt8} {cs : List Char} (h : decode s = .ok cs) :
    cs.length ≤ s.length := by
  unfold decode at h
  split at h
  all_goals
    have := length_decodeFrom_le h
    grind

end Logwire.Text
