import Logwire.Storage.FileTree

/-!
# Logwire.Proofs.Storage.Paths

Which file a path leads to, and what becomes of that while a tree grows.

A tree grows when files are made or added to and when directories are made
where there is no file.  Then a path that leads to a file that is there leads to
it for ever: `Grows.fileOf?_eq`.  Opening a file and adding to it is one change,
`extend`, of which the two look-ups `textAt_extend` and `isSome_fileAt?_extend`
tell everything.
-/

namespace Logwire.FileTree

/-! ## Looking up -/

/-- The place of the file that a path leads to, whether or not the file is there yet. -/
def fileOf? (t : FileTree) (text : String) : Option Place :=
  match t.resolve text with
  | .ok (.entry parent name false) =>
    if isLongName name || t.isDirectory (parent ++ [name]) then none else some (parent ++ [name])
  | _ => none

/-- The text of the file at a place, empty where there is none. -/
def textAt (t : FileTree) (p : Place) : String := ((t.fileAt? p).map FileEntry.text).getD ""

/-- A path without a name leads nowhere. -/
@[simp] theorem fileOf?_empty (t : FileTree) : t.fileOf? "" = none := by
  simp [fileOf?, resolve]

/-- A path to a file leads to no directory. -/
theorem not_isDirectory_of_fileOf? {t : FileTree} {text : String} {p : Place}
    (h : t.fileOf? text = some p) : t.isDirectory p = false := by
  unfold fileOf? at h
  split at h
  · rename_i parent name _
    obtain ⟨hc, hp⟩ := Option.ite_none_left_eq_some.mp h
    rw [Bool.or_eq_true, not_or, Bool.not_eq_true, Bool.not_eq_true] at hc
    rw [← Option.some.inj hp]
    exact hc.2
  · cases h

/-! ## Changes -/

/-- The tree with a text added to the file at a place, which is made if it is not there. -/
def extend (t : FileTree) (p : Place) (mode : Nat) (text : String) : FileTree :=
  match t.fileAt? p with
  | some _ => t.append p text
  | none => (t.putFile p ⟨"", grant mode⟩).append p text

/-- Opening a file gives the place that the path leads to, and makes the file if need be. -/
theorem openFile_of_fileOf? {t : FileTree} {text : String} {p : Place}
    (h : t.fileOf? text = some p) (mode : Nat) :
    ∃ t', t.openFile text mode = (.ok p, t') ∧ ∀ added, t'.append p added = t.extend p mode added := by
  unfold fileOf? at h
  split at h
  · rename_i parent name hr
    obtain ⟨hc, hp⟩ := Option.ite_none_left_eq_some.mp h
    rw [Bool.or_eq_true, not_or] at hc
    obtain rfl := Option.some.inj hp
    simp only [openFile, hr, hc.1, hc.2, Bool.false_eq_true, if_false, extend]
    cases t.fileAt? (parent ++ [name]) with
    | none => exact ⟨_, rfl, fun _ => rfl⟩
    | some _ => exact ⟨_, rfl, fun _ => rfl⟩
  · cases h

/-- A path that leads to no file cannot be opened, and trying changes nothing. -/
theorem openFile_of_fileOf?_eq_none {t : FileTree} {text : String} (h : t.fileOf? text = none)
    (mode : Nat) : ∃ e, t.openFile text mode = (.error e, t) := by
  unfold fileOf? at h
  unfold openFile
  cases hr : t.resolve text with
  | error e => exact ⟨e, rfl⟩
  | ok target =>
    cases target with
    | directory place => exact ⟨_, rfl⟩
    | entry parent name slash =>
      cases slash with
      | true => exact ⟨_, rfl⟩
      | false =>
        rw [hr] at h
        simp only [Bool.false_eq_true, if_false]
        by_cases hl : isLongName name = true
        · exact ⟨_, if_pos hl⟩
        · have hd : t.isDirectory (parent ++ [name]) = true := by simpa [hl] using h
          rw [if_neg hl, if_pos hd]
          exact ⟨_, rfl⟩

@[simp] theorem directories_putFile (t : FileTree) (p : Place) (f : FileEntry) :
    (t.putFile p f).directories = t.directories := by
  unfold putFile
  split <;> rfl

@[simp] theorem directories_append (t : FileTree) (p : Place) (text : String) :
    (t.append p text).directories = t.directories := by
  unfold append
  split
  · exact t.directories_putFile p _
  · rfl

@[simp] theorem directories_extend (t : FileTree) (p : Place) (mode : Nat) (text : String) :
    (t.extend p mode text).directories = t.directories := by
  unfold extend
  split
  · exact t.directories_append p text
  · rw [directories_append, directories_putFile]

/-- The files after an extension: the text is behind what the file held. -/
theorem fileAt?_extend (t : FileTree) (p q : Place) (mode : Nat) (text : String) :
    (t.extend p mode text).fileAt? q =
      if q = p then
        some ⟨t.textAt p ++ text, ((t.fileAt? p).map FileEntry.mode).getD (grant mode)⟩
      else t.fileAt? q := by
  unfold extend textAt
  cases hf : t.fileAt? p with
  | some f => simp [fileAt?_append, hf]
  | none =>
    simp only [fileAt?_append, fileAt?_putFile, if_true]
    split <;> simp

/-- Only the text at the place is extended. -/
theorem textAt_extend (t : FileTree) (p q : Place) (mode : Nat) (text : String) :
    (t.extend p mode text).textAt q = if q = p then t.textAt p ++ text else t.textAt q := by
  rw [textAt, fileAt?_extend]
  split <;> simp [textAt]

theorem isSome_fileAt?_extend (t : FileTree) (p q : Place) (mode : Nat) (text : String) :
    ((t.extend p mode text).fileAt? q).isSome = (decide (q = p) || (t.fileAt? q).isSome) := by
  rw [fileAt?_extend]
  split <;> simp [*]

/-- Making a directory touches no file; the directory is new and not where a file is. -/
theorem makeDirectory_cases (t : FileTree) (text : String) :
    (t.makeDirectory text).2 = t ∨
      ∃ q, t.fileAt? q = none ∧
        (t.makeDirectory text).2 = { t with directories := t.directories ++ [q] } := by
  unfold makeDirectory
  cases t.resolve text with
  | error e => exact .inl rfl
  | ok target =>
    cases target with
    | directory place => exact .inl rfl
    | entry parent name slash =>
      simp only
      split
      · exact .inl rfl
      · split
        · exact .inl rfl
        · rename_i hfree
          rw [Bool.or_eq_true, not_or, Bool.not_eq_true, Option.not_isSome_iff_eq_none] at hfree
          exact .inr ⟨_, hfree.2, rfl⟩

/-! ## Growth -/

/-- A tree with further directories and files.  No directory is where a file was. -/
structure Grows (t t' : FileTree) : Prop where
  directories : t.directories ⊆ t'.directories
  files : ∀ p, (t.fileAt? p).isSome → (t'.fileAt? p).isSome
  apart : ∀ p, (t.fileAt? p).isSome → t.isDirectory p = false → t'.isDirectory p = false

theorem Grows.refl (t : FileTree) : t.Grows t := ⟨List.Subset.refl _, fun _ h => h, fun _ _ h => h⟩

theorem isDirectory_congr {t t' : FileTree} (h : t'.directories = t.directories) (p : Place) :
    t'.isDirectory p = t.isDirectory p := by
  rw [isDirectory, isDirectory, h]

/-- Adding to a file lets a tree grow. -/
theorem grows_extend (t : FileTree) (p : Place) (mode : Nat) (text : String) :
    t.Grows (t.extend p mode text) where
  directories := by rw [directories_extend]; exact List.Subset.refl _
  files q hq := by rw [isSome_fileAt?_extend, hq, Bool.or_true]
  apart q _ hd := by rw [isDirectory_congr (directories_extend ..), hd]

/-- So does making a directory. -/
theorem grows_makeDirectory (t : FileTree) (text : String) : t.Grows (t.makeDirectory text).2 := by
  rcases t.makeDirectory_cases text with h | ⟨q, hq, h⟩
  · rw [h]
    exact .refl t
  · rw [h]
    refine ⟨List.subset_append_left _ _, fun _ hp => hp, fun p hp hd => ?_⟩
    have hne : p ≠ q := by
      rintro rfl
      rw [hq] at hp
      cases hp
    simp only [isDirectory, Bool.or_eq_false_iff, decide_eq_false_iff_not] at hd ⊢
    simp only [List.contains_eq_mem, decide_eq_false_iff_not, List.mem_append,
      List.mem_singleton] at hd ⊢
    exact ⟨hd.1, not_or.mpr ⟨hd.2, hne⟩⟩

/-- A directory that is made leaves the files alone. -/
theorem textAt_makeDirectory (t : FileTree) (text : String) (p : Place) :
    (t.makeDirectory text).2.textAt p = t.textAt p ∧
      (t.makeDirectory text).2.fileAt? p = t.fileAt? p := by
  rcases t.makeDirectory_cases text with h | ⟨q, -, h⟩ <;> rw [h] <;> exact ⟨rfl, rfl⟩

/-! ## Paths in a tree with further directories -/

section Further

variable {t t' : FileTree} (h : t.directories ⊆ t'.directories)

include h

theorem isDirectory_of_subset {p : Place} (hp : t.isDirectory p = true) :
    t'.isDirectory p = true := by
  simp only [isDirectory, List.contains_eq_mem, Bool.or_eq_true, decide_eq_true_eq] at hp ⊢
  exact hp.imp_right fun hm => h hm

/-- A name that leads to a directory still leads there. -/
theorem enter_of_subset {here next : Place} {name : String}
    (he : t.enter here name = .ok next) : t'.enter here name = .ok next := by
  unfold enter at he ⊢
  by_cases hdot : name = "."
  · simpa only [hdot, if_true] using he
  · by_cases hdots : name = ".."
    · simpa [hdots] using he
    · simp only [hdot, hdots, if_false] at he ⊢
      by_cases hl : isLongName name = true
      · simp [hl] at he
      · by_cases hd : t.isDirectory (here ++ [name]) = true
        · have hd' := isDirectory_of_subset h hd
          simpa only [hl, Bool.false_eq_true, if_false, hd, hd', if_true] using he
        · simp [hl, hd] at he

/-- A way that leads to a directory still leads there. -/
theorem walk_of_subset {here next : Place} {names : List String}
    (hw : t.walk here names = .ok next) : t'.walk here names = .ok next := by
  induction names generalizing here with
  | nil => exact hw
  | cons name rest ih =>
    unfold walk at hw ⊢
    cases he : t.enter here name with
    | error e =>
      rw [he] at hw
      cases hw
    | ok there =>
      rw [he] at hw
      rw [enter_of_subset h he]
      exact ih hw

/-- So a path that leads somewhere still leads there. -/
theorem resolve_of_subset {text : String} {target : Target}
    (hr : t.resolve text = .ok target) : t'.resolve text = .ok target := by
  unfold resolve at hr ⊢
  by_cases hnull : text.toList.contains '\x00' = true
  · rw [if_pos hnull] at hr
    cases hr
  rw [if_neg hnull] at hr ⊢
  by_cases hempty : text = ""
  · rw [if_pos hempty] at hr
    cases hr
  rw [if_neg hempty] at hr ⊢
  by_cases hlong : pathLimit < text.utf8ByteSize
  · rw [if_pos hlong] at hr
    cases hr
  rw [if_neg hlong] at hr ⊢
  dsimp only at hr ⊢
  cases hn : (Path.ofText text).names.getLast? with
  | none =>
    rw [hn] at hr
    exact hr
  | some name =>
    rw [hn] at hr
    simp only at hr ⊢
    cases hw : t.walk [] (Path.ofText text).names.dropLast with
    | error e =>
      rw [hw] at hr
      cases hr
    | ok here =>
      rw [walk_of_subset h hw]
      rw [hw] at hr
      exact hr

/-- A path that leads to a file still leads to it, unless a directory has taken its place. -/
theorem fileOf?_of_subset {text : String} {p : Place} (hp : t.fileOf? text = some p)
    (hd : t'.isDirectory p = false) : t'.fileOf? text = some p := by
  unfold fileOf? at hp ⊢
  split at hp
  · rename_i parent name hr
    obtain ⟨hc, hp⟩ := Option.ite_none_left_eq_some.mp hp
    obtain rfl := Option.some.inj hp
    rw [Bool.or_eq_true, not_or] at hc
    rw [resolve_of_subset h hr]
    simp only [hc.1, hd, Bool.or_false, Bool.false_eq_true, if_false]
  · cases hp

end Further

/-- An extension makes no directory, so paths lead where they led. -/
theorem fileOf?_extend {t : FileTree} {text : String} {p : Place} (hp : t.fileOf? text = some p)
    (q : Place) (mode : Nat) (added : String) :
    (t.extend q mode added).fileOf? text = some p := by
  have hsame := directories_extend t q mode added
  exact fileOf?_of_subset (by rw [hsame]; exact List.Subset.refl _) hp
    ((isDirectory_congr hsame p).trans (not_isDirectory_of_fileOf? hp))

/-- A path that leads to a file that is there leads to it for ever. -/
theorem Grows.fileOf?_eq {t t' : FileTree} (h : t.Grows t') {text : String} {p : Place}
    (hp : t.fileOf? text = some p) (hf : (t.fileAt? p).isSome) : t'.fileOf? text = some p :=
  fileOf?_of_subset h.directories hp (h.apart p hf (not_isDirectory_of_fileOf? hp))

end Logwire.FileTree
