/-!
# Logwire.Number.Rounding

Rounding a quotient of natural numbers to the nearest integer, a tie going to
the even neighbour.

* `roundDiv_eq_or` — the rounded quotient is the floor or its successor;
* `two_mul_roundDiv_le` and `le_two_mul_roundDiv` — it is within half a unit.
-/

namespace Logwire.Number

/-- The integer nearest to `num / den`, a tie going to the even neighbour. -/
def roundDiv (num den : Nat) : Nat :=
  let floor := num / den
  let twice := 2 * (num % den)
  if twice < den then floor
  else if twice = den then (if floor % 2 = 0 then floor else floor + 1)
  else floor + 1

/-- Rounding gives the floor or its successor. -/
theorem roundDiv_eq_or (num den : Nat) :
    roundDiv num den = num / den ∨ roundDiv num den = num / den + 1 := by
  unfold roundDiv
  simp only
  split
  · exact .inl rfl
  · split
    · split
      · exact .inl rfl
      · exact .inr rfl
    · exact .inr rfl

/-- The rounded quotient exceeds the exact one by half a unit at most. -/
theorem two_mul_roundDiv_le (num : Nat) {den : Nat} (h : 0 < den) :
    2 * (roundDiv num den * den) ≤ 2 * num + den := by
  have hdm := Nat.div_add_mod num den
  have hm := Nat.mod_lt num h
  unfold roundDiv
  simp only
  split
  · rw [Nat.mul_comm (num / den)]; omega
  · split
    · split
      · rw [Nat.mul_comm (num / den)]; omega
      · rw [Nat.add_mul, Nat.mul_comm (num / den)]; omega
    · rw [Nat.add_mul, Nat.mul_comm (num / den)]; omega

/-- The rounded quotient falls short of the exact one by half a unit at most. -/
theorem le_two_mul_roundDiv (num : Nat) {den : Nat} (h : 0 < den) :
    2 * num ≤ 2 * (roundDiv num den * den) + den := by
  have hdm := Nat.div_add_mod num den
  have hm := Nat.mod_lt num h
  unfold roundDiv
  simp only
  split
  · rw [Nat.mul_comm (num / den)]; omega
  · split
    · split
      · rw [Nat.mul_comm (num / den)]; omega
      · rw [Nat.add_mul, Nat.mul_comm (num / den)]; omega
    · rw [Nat.add_mul, Nat.mul_comm (num / den)]; omega

end Logwire.Number
