import Logwire.Json.Display
import Logwire.Json.Writer
import Logwire.Proofs.Json.RoundTrip

/-!
# Logwire.Proofs.Json.Display

Values that are too deep for a text.

A value is too deep only if it has more levels than there is room for
(`lt_levels_of_textFault?`), and always then if all its integers can be written
(`textFault?_eq`).  Otherwise an integer that is met before may be the
cause.
-/

namespace Logwire.Json

open Number

mutual

/-- How many values lie within each other, the outermost one counted. -/
def levels : Json → Nat
  | .arr items => itemsLevels items + 1
  | .obj ms => membersLevels ms + 1
  | _ => 1

def itemsLevels : List Json → Nat
  | [] => 0
  | v :: rest => max (levels v) (itemsLevels rest)

def membersLevels : List (String × Json) → Nat
  | [] => 0
  | (_, v) :: rest => max (levels v) (membersLevels rest)

end

mutual

/-- A value that lies within no other has a level, and no depth. -/
theorem levels_le (v : Json) : v.levels ≤ v.depth + 1 := by
  cases v with
  | arr items =>
    have := itemsLevels_le items
    simp only [levels, depth]
    omega
  | obj ms =>
    have := membersLevels_le ms
    simp only [levels, depth]
    omega
  | null | bool | int | num | str => exact Nat.le_refl _

theorem itemsLevels_le (items : List Json) : itemsLevels items ≤ itemsDepth items + 1 := by
  cases items with
  | nil => exact Nat.zero_le _
  | cons v rest =>
    have := levels_le v
    have := itemsLevels_le rest
    simp only [itemsLevels, itemsDepth]
    omega

theorem membersLevels_le (ms : List (String × Json)) :
    membersLevels ms ≤ membersDepth ms + 1 := by
  cases ms with
  | nil => exact Nat.zero_le _
  | cons m rest =>
    obtain ⟨name, v⟩ := m
    have := levels_le v
    have := membersLevels_le rest
    simp only [membersLevels, membersDepth]
    omega

end

mutual

/-- What is too deep has more levels than there is room for. -/
theorem lt_levels_of_textFault? {room : Nat} {v : Json} (h : v.textFault? room = some .tooDeep) :
    room < v.levels := by
  cases room with
  | zero => cases v <;> simp [levels]
  | succ room =>
    cases v with
    | arr items => exact Nat.succ_lt_succ (lt_itemsLevels_of_itemsFault? (by rwa [textFault?] at h))
    | obj ms =>
      exact Nat.succ_lt_succ (lt_membersLevels_of_membersFault? (by rwa [textFault?] at h))
    | int i =>
      rw [textFault?] at h
      split at h <;> contradiction
    | null | bool | num | str => contradiction

theorem lt_itemsLevels_of_itemsFault? {room : Nat} {items : List Json}
    (h : itemsFault? room items = some .tooDeep) : room < itemsLevels items := by
  cases items with
  | nil => contradiction
  | cons v rest =>
    rw [itemsFault?, Option.or_eq_some_iff] at h
    rw [itemsLevels, lt_max_iff]
    exact h.imp lt_levels_of_textFault? fun h => lt_itemsLevels_of_itemsFault? h.2

theorem lt_membersLevels_of_membersFault? {room : Nat} {ms : List (String × Json)}
    (h : membersFault? room ms = some .tooDeep) : room < membersLevels ms := by
  cases ms with
  | nil => contradiction
  | cons m rest =>
    obtain ⟨name, v⟩ := m
    rw [membersFault?, Option.or_eq_some_iff] at h
    rw [membersLevels, lt_max_iff]
    exact h.imp lt_levels_of_textFault? fun h => lt_membersLevels_of_membersFault? h.2

end

/-- With room for the depth of a value nothing in it is too deep. -/
theorem textFault?_ne_tooDeep {room : Nat} (v : Json) (h : v.depth < room) :
    v.textFault? room ≠ some .tooDeep := by
  intro hdeep
  have := lt_levels_of_textFault? hdeep
  have := v.levels_le
  omega

mutual

/-- Where all integers can be written, only the levels count. -/
theorem textFault?_eq {room : Nat} {v : Json} (hv : v.hasText = true) :
    v.textFault? room = if room < v.levels then some .tooDeep else none := by
  cases room with
  | zero => cases v <;> simp [textFault?, levels]
  | succ room =>
    cases v with
    | arr items =>
      rw [textFault?, itemsFault?_eq hv]
      simp only [levels, Nat.add_lt_add_iff_right]
    | obj ms =>
      rw [textFault?, membersFault?_eq hv]
      simp only [levels, Nat.add_lt_add_iff_right]
    | int i =>
      rw [hasText] at hv
      simp [textFault?, levels, hv]
    | null | bool | num | str => simp [textFault?, levels]

theorem itemsFault?_eq {room : Nat} {items : List Json} (hv : itemsHaveText items = true) :
    itemsFault? room items = if room < itemsLevels items then some .tooDeep else none := by
  cases items with
  | nil => rfl
  | cons v rest =>
    rw [itemsHaveText, Bool.and_eq_true] at hv
    rw [itemsFault?, textFault?_eq hv.1, itemsFault?_eq hv.2, itemsLevels]
    by_cases h : room < v.levels <;> simp [h]

theorem membersFault?_eq {room : Nat} {ms : List (String × Json)}
    (hv : membersHaveText ms = true) :
    membersFault? room ms = if room < membersLevels ms then some .tooDeep else none := by
  cases ms with
  | nil => rfl
  | cons m rest =>
    obtain ⟨name, v⟩ := m
    rw [membersHaveText, Bool.and_eq_true] at hv
    rw [membersFault?, textFault?_eq hv.1, membersFault?_eq hv.2, membersLevels]
    by_cases h : room < v.levels <;> simp [h]

end

/-- A value that is too deep has no text. -/
theorem displayWithin_of_textFault? {room : Nat} {v : Json} {fault : TextFault}
    (h : v.textFault? room = some fault) (hroom : 0 < room) :
    v.displayWithin room = .error fault := by
  obtain ⟨room, rfl⟩ := Nat.exists_eq_add_one.mpr hroom
  unfold displayWithin
  cases v with
  | str s => contradiction
  | _ => simp only [h]

/-! ## Arrays within each other -/

/-- An array within as many others as are given. -/
def nestedArrays : Nat → Json
  | 0 => .arr []
  | n + 1 => .arr [nestedArrays n]

/-- Each array is a level of its own. -/
theorem levels_nestedArrays (n : Nat) : (nestedArrays n).levels = n + 1 := by
  induction n with
  | zero => rfl
  | succ n ih => simp [nestedArrays, levels, itemsLevels, ih]

theorem hasText_nestedArrays (n : Nat) : (nestedArrays n).hasText = true := by
  induction n with
  | zero => rfl
  | succ n ih => simp [nestedArrays, hasText, itemsHaveText, ih]

end Logwire.Json
