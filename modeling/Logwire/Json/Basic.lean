import Logwire.Number.Measure

/-!
# Logwire.Json.Basic

JSON values.  Integers are unbounded and apart from double precision numbers,
which include the NaN and the infinities.  The members of an object keep the
order in which their names were first given; `Members.insert` replaces a value
in place.

* `Members.find?_insert_self`, `Members.find?_insert_of_ne` — what an insertion
  does to a later look-up;
* `Members.names_insert` — a name is added at the end or not at all.
-/

namespace Logwire

open Number

/-- A JSON value. -/
inductive Json where
  | null
  | bool (b : Bool)
  | int (i : Int)
  | num (x : Binary64)
  | str (s : String)
  | arr (items : List Json)
  | obj (members : List (String × Json))
  deriving Inhabited

/-- Pairs of a name and a value in order of first occurrence. -/
abbrev Members (α : Type) := List (String × α)

namespace Members

variable {α : Type}

def find? (ms : Members α) (name : String) : Option α :=
  match ms with
  | [] => none
  | (n, v) :: rest => if n = name then some v else find? rest name

/-- Set the value of a name: in place when the name is there, at the end otherwise. -/
def insert (ms : Members α) (name : String) (value : α) : Members α :=
  match ms with
  | [] => [(name, value)]
  | (n, v) :: rest => if n = name then (n, value) :: rest else (n, v) :: insert rest name value

def erase (ms : Members α) (name : String) : Members α := ms.filter fun m => m.1 ≠ name

def names (ms : Members α) : List String := ms.map Prod.fst

def has (ms : Members α) (name : String) : Bool := (find? ms name).isSome

@[simp] theorem find?_nil (name : String) : find? ([] : Members α) name = none := rfl

theorem find?_insert_self (ms : Members α) (name : String) (value : α) :
    find? (insert ms name value) name = some value := by
  induction ms with
  | nil => simp [insert, find?]
  | cons m rest ih =>
    obtain ⟨n, v⟩ := m
    by_cases h : n = name <;> simp [insert, find?, h, ih]

/-- The look-up of other names is as before. -/
theorem find?_insert_of_ne (ms : Members α) {name other : String} (value : α)
    (h : other ≠ name) : find? (insert ms name value) other = find? ms other := by
  induction ms with
  | nil => simp [insert, find?, Ne.symm h]
  | cons m rest ih =>
    obtain ⟨n, v⟩ := m
    by_cases hn : n = name
    · subst hn; simp [insert, find?, Ne.symm h]
    · simp [insert, find?, hn, ih]

/-- What an insertion does to a look-up. -/
theorem find?_insert (ms : Members α) (name other : String) (value : α) :
    find? (insert ms name value) other = if other = name then some value else find? ms other := by
  by_cases h : other = name
  · subst h; simp [find?_insert_self]
  · simp [h, find?_insert_of_ne ms value h]

theorem find?_erase_self (ms : Members α) (name : String) : find? (erase ms name) name = none := by
  induction ms with
  | nil => rfl
  | cons m rest ih =>
    obtain ⟨n, v⟩ := m
    by_cases h : n = name
    · simpa [erase, h] using ih
    · simpa [erase, h, find?] using ih

/-- Erasing a name leaves the others alone. -/
theorem find?_erase_of_ne (ms : Members α) {name other : String} (h : other ≠ name) :
    find? (erase ms name) other = find? ms other := by
  induction ms with
  | nil => rfl
  | cons m rest ih =>
    obtain ⟨n, v⟩ := m
    by_cases hn : n = name
    · subst hn; simpa [erase, find?, Ne.symm h] using ih
    · have hk : erase ((n, v) :: rest) name = (n, v) :: erase rest name := by simp [erase, hn]
      rw [hk, find?, find?, ih]

/-- A name has a value exactly if it is listed. -/
theorem mem_names_iff (ms : Members α) (name : String) :
    name ∈ names ms ↔ (find? ms name).isSome := by
  induction ms with
  | nil => simp [names]
  | cons m rest ih =>
    obtain ⟨n, v⟩ := m
    by_cases h : n = name
    · simp [names, find?, h]
    · have h' : ¬ name = n := fun e => h e.symm
      simpa [names, find?, h, h'] using ih

/-- An insertion adds the name at the end unless it is there already. -/
theorem names_insert (ms : Members α) (name : String) (value : α) :
    names (insert ms name value) = if name ∈ names ms then names ms else names ms ++ [name] := by
  induction ms with
  | nil => simp [insert, names]
  | cons m rest ih =>
    obtain ⟨n, v⟩ := m
    by_cases h : n = name
    · subst h; simp [insert, names]
    · have h' : ¬ name = n := fun e => h e.symm
      simp only [insert, h, if_false]
      simp only [names, List.map_cons, List.mem_cons, h', false_or] at ih ⊢
      rw [ih]
      split <;> rename_i hm <;> simp [hm]

/-- A new name is inserted at the end. -/
theorem insert_of_not_mem {ms : Members α} {name : String} {value : α} (h : name ∉ names ms) :
    insert ms name value = ms ++ [(name, value)] := by
  induction ms with
  | nil => rfl
  | cons m rest ih =>
    obtain ⟨n, v⟩ := m
    simp only [names, List.map_cons, List.mem_cons, not_or] at h
    have hn : ¬ n = name := fun e => h.1 e.symm
    simp [insert, hn, ih h.2]

/-- Insertion keeps the names distinct. -/
theorem nodup_names_insert {ms : Members α} (name : String) (value : α)
    (h : (names ms).Nodup) : (names (insert ms name value)).Nodup := by
  rw [names_insert]
  split
  · exact h
  · rename_i hm
    rw [List.nodup_append]
    refine ⟨h, by simp, ?_⟩
    intro a ha b hb
    simp only [List.mem_singleton] at hb
    subst hb
    intro e
    exact hm (e ▸ ha)

end Members

namespace Json

/-- The name of a value's kind, as error messages give it. -/
def kind : Json → String
  | .null => "NoneType"
  | .bool _ => "bool"
  | .int _ => "int"
  | .num _ => "float"
  | .str _ => "str"
  | .arr _ => "list"
  | .obj _ => "dict"

/-- A value that counts as given: not null, false, zero or empty. -/
def isGiven : Json → Bool
  | .null => false
  | .bool b => b
  | .int i => i ≠ 0
  | .num x => !x.isZero
  | .str s => s ≠ ""
  | .arr items => !items.isEmpty
  | .obj members => !members.isEmpty

/-- The value of a number of any form.  The truth values count as one and zero. -/
def measure? : Json → Option Measure
  | .bool b => some (.whole b.toInt)
  | .int i => some (.whole i)
  | .num x => Measure.ofBinary64? x
  | _ => none

def character (c : Char) : Json := .str (String.ofList [c])

/-- The items of a value that is a row: an array, a string by its characters, an object by its
names. -/
def row? : Json → Option (List Json)
  | .arr items => some items
  | .str s => some (s.toList.map character)
  | .obj ms => some (ms.map fun m => .str m.1)
  | _ => none

/-- The member of that name, or null. -/
def member (ms : List (String × Json)) (name : String) : Json :=
  (Members.find? ms name).getD .null

end Json

end Logwire
