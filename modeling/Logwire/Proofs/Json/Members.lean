import Logwire.Json.Basic
import Mathlib.Data.List.Induction

/-!
# Logwire.Proofs.Json.Members

Rows of pairs in which a name is repeated.

Adding the pairs of a row one after the other gives each name once, in the order
in which the names are first seen, with the last of its values:
`insertAll_eq_lastValues`.  Added to another row, they count before what was
there: `find?_insertAll_or`.  A row without repeated names is determined by its
names and by what it says of each: `ext_of_find?`.
-/

namespace Logwire

namespace Members

variable {α : Type}

/-- The pairs added one after the other. -/
def insertAll (before ps : Members α) : Members α :=
  ps.foldl (fun ms p => insert ms p.1 p.2) before

theorem insertAll_append_singleton (before ps : Members α) (p : String × α) :
    insertAll before (ps ++ [p]) = insert (insertAll before ps) p.1 p.2 := by
  unfold insertAll
  rw [List.foldl_append, List.foldl_cons, List.foldl_nil]

/-- Names in the order in which they are first seen, each with the last of its values. -/
def lastValues (ps : Members α) : Members α :=
  (names ps).eraseDups.filterMap fun name => (find? ps.reverse name).map fun v => (name, v)

theorem find?_eq_none_iff (ms : Members α) (name : String) :
    find? ms name = none ↔ name ∉ names ms := by
  rw [mem_names_iff, Option.not_isSome_iff_eq_none]

/-- A row without repeated names says of a name what it lists with it. -/
theorem mem_iff_find?_eq_some {ms : Members α} (h : (names ms).Nodup) (name : String) (value : α) :
    (name, value) ∈ ms ↔ find? ms name = some value := by
  induction ms with
  | nil => simp
  | cons m ms ih =>
    obtain ⟨n, v⟩ := m
    simp only [names, List.map_cons, List.nodup_cons] at h
    by_cases hn : n = name
    · subst hn
      have hnot : (n, value) ∉ ms := fun hm => h.1 (List.mem_map_of_mem hm)
      simp [find?, hnot, eq_comm]
    · simp [find?, hn, Ne.symm hn, ih h.2]

/-- Two rows with the same names, none of them twice, and the same values are equal. -/
theorem ext_of_find? {ms ns : Members α} (hn : names ms = names ns) (hd : (names ms).Nodup)
    (hf : ∀ name ∈ names ms, find? ms name = find? ns name) : ms = ns := by
  induction ms generalizing ns with
  | nil => exact (List.map_eq_nil_iff.mp hn.symm).symm
  | cons m ms ih =>
    obtain ⟨n, v⟩ := m
    cases ns with
    | nil => simp [names] at hn
    | cons m' ns =>
      obtain ⟨n', v'⟩ := m'
      simp only [names, List.map_cons, List.cons.injEq] at hn
      obtain ⟨rfl, hn⟩ := hn
      simp only [names, List.map_cons, List.nodup_cons] at hd
      have hv : v = v' := by
        have := hf n (by simp [names])
        simpa [find?] using this
      have htail : ∀ name ∈ names ms, find? ms name = find? ns name := by
        intro name hm
        have hne : ¬ n = name := by rintro rfl; exact hd.1 hm
        have := hf name (List.mem_cons_of_mem n hm)
        simpa [find?, hne] using this
      rw [hv, ih hn hd.2 htail]

theorem names_filterMap {f : String → Option α} {ns : List String}
    (h : ∀ name ∈ ns, (f name).isSome) :
    names (ns.filterMap fun name => (f name).map fun v => (name, v)) = ns := by
  induction ns with
  | nil => rfl
  | cons name ns ih =>
    obtain ⟨v, hv⟩ := Option.isSome_iff_exists.mp (h name List.mem_cons_self)
    have htail := ih fun n hn => h n (List.mem_cons_of_mem _ hn)
    unfold names at htail ⊢
    simp [hv, htail]

theorem find?_filterMap {f : String → Option α} {ns : List String} {name : String}
    (h : name ∈ ns) : find? (ns.filterMap fun n => (f n).map fun v => (n, v)) name = f name := by
  induction ns with
  | nil => cases h
  | cons n ns ih =>
    by_cases hn : n = name
    · subst hn
      cases hf : f n with
      | some v => simp [hf, find?]
      | none =>
        have hnone : find? (ns.filterMap fun n => (f n).map fun v => (n, v)) n = none := by
          rw [find?_eq_none_iff]
          intro hm
          obtain ⟨p, hp, rfl⟩ := List.mem_map.mp hm
          obtain ⟨n', -, hn'⟩ := List.mem_filterMap.mp hp
          obtain ⟨v, hv, rfl⟩ := Option.map_eq_some_iff.mp hn'
          rw [hf] at hv
          contradiction
        simp [hf, hnone]
    · have hmem : name ∈ ns := (List.mem_cons.mp h).resolve_left fun e => hn e.symm
      cases hf : f n with
      | some v => simp [hf, find?, hn, ih hmem]
      | none => simp [hf, ih hmem]

theorem isSome_find?_reverse {ps : Members α} {name : String} (h : name ∈ names ps) :
    (find? ps.reverse name).isSome := by
  rw [← mem_names_iff]
  simpa [names] using h

/-- The names stand in the order in which they come first. -/
theorem names_lastValues (ps : Members α) : names (lastValues ps) = (names ps).eraseDups :=
  names_filterMap fun _ hn => isSome_find?_reverse (List.mem_eraseDups.mp hn)

/-- Putting members one after the other keeps the order in which their names come first. -/
theorem names_insertAll (ps : Members α) : names (insertAll [] ps) = (names ps).eraseDups := by
  induction ps using List.reverseRecOn with
  | nil => rfl
  | append_singleton ps p ih =>
    have hnames : names (ps ++ [p]) = names ps ++ [p.1] := by simp [names]
    rw [insertAll_append_singleton, names_insert, ih, hnames, List.eraseDups_append]
    by_cases hp : p.1 ∈ names ps
    · simp [hp, List.removeAll]
    · simp [hp, List.removeAll, List.eraseDups_cons]

/-- The last value that a row gives a name. -/
def last? (ps : Members α) (name : String) : Option α :=
  ((ps.filter fun p => p.1 = name).getLast?).map Prod.snd

/-- A look-up finds the first member of the name. -/
theorem find?_eq_head? (ms : Members α) (name : String) :
    find? ms name = ((ms.filter fun m => m.1 = name).head?).map Prod.snd := by
  induction ms with
  | nil => rfl
  | cons m ms ih =>
    by_cases hm : m.1 = name
    · simp [find?, hm]
    · simp [find?, hm, ih]

/-- A look-up from behind finds the last member of the name. -/
theorem find?_reverse (ps : Members α) (name : String) :
    find? ps.reverse name = last? ps name := by
  rw [find?_eq_head?, List.filter_reverse, List.head?_reverse, last?]

theorem last?_eq_none_iff (ps : Members α) (name : String) :
    last? ps name = none ↔ name ∉ names ps := by
  rw [← find?_reverse, find?_eq_none_iff]
  simp [names]

/-- Pairs that are added count before those that were there, the last of them first. -/
theorem find?_insertAll_or (before ps : Members α) (name : String) :
    find? (insertAll before ps) name = (last? ps name).or (find? before name) := by
  rw [← find?_reverse]
  induction ps using List.reverseRecOn with
  | nil => simp [insertAll]
  | append_singleton ps p ih =>
    rw [insertAll_append_singleton, find?_insert, ih, List.reverse_append, List.reverse_singleton,
      List.singleton_append, find?]
    by_cases hp : p.1 = name
    · simp [hp]
    · simp [hp, Ne.symm hp]

/-- Of members with one name the last counts. -/
theorem find?_insertAll (ps : Members α) (name : String) :
    find? (insertAll [] ps) name = find? ps.reverse name := by
  rw [find?_insertAll_or, find?_nil, Option.or_none, find?_reverse]

theorem nodup_names_insertAll (ps : Members α) : (names (insertAll [] ps)).Nodup := by
  induction ps using List.reverseRecOn with
  | nil => exact List.nodup_nil
  | append_singleton ps p ih =>
    rw [insertAll_append_singleton]
    exact nodup_names_insert _ _ ih

/-- Adding pairs one after the other leaves the last value of each name. -/
theorem insertAll_eq_lastValues (ps : Members α) : insertAll [] ps = lastValues ps := by
  refine ext_of_find? ?_ (nodup_names_insertAll ps) ?_
  · rw [names_insertAll, names_lastValues]
  · intro name hn
    rw [names_insertAll] at hn
    rw [find?_insertAll]
    exact (find?_filterMap hn).symm

theorem names_map (f : String → α) (ns : List String) : names (ns.map fun n => (n, f n)) = ns := by
  rw [names, List.map_map]
  exact List.map_id ns

theorem find?_map (f : String → α) {ns : List String} {name : String} (h : name ∈ ns) :
    find? (ns.map fun n => (n, f n)) name = some (f name) := by
  induction ns with
  | nil => cases h
  | cons n ns ih =>
    rw [List.map_cons, find?]
    split
    · rename_i hn
      rw [hn]
    · rename_i hn
      exact ih ((List.mem_cons.mp h).resolve_left fun e => hn e.symm)

/-- Pairs whose names determine the values leave each name once, in the order of first mention. -/
theorem insertAll_map (f : String → α) (ns : List String) :
    insertAll [] (ns.map fun n => (n, f n)) = ns.eraseDups.map fun n => (n, f n) := by
  have hnames := names_insertAll (ns.map fun n => (n, f n))
  rw [names_map] at hnames
  refine ext_of_find? (by rw [hnames, names_map]) (nodup_names_insertAll _) fun name hn => ?_
  rw [hnames] at hn
  have hmem := List.mem_eraseDups.mp hn
  rw [find?_map f hn, find?_insertAll, ← List.map_reverse,
    find?_map f (List.mem_reverse.mpr hmem)]

end Members

end Logwire
