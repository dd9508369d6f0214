import Logwire.Json.Basic

/-!
# Logwire.Storage.FileTree

Directories and files.

A path is a row of names between slashes, taken from the root of the tree.  All
names but the last are gone through one by one, and each must lead to a
directory that exists; a dot stays where it is and two dots go back.  A file is
made when it is first opened for writing, with the permissions asked for less
those that are always withheld, and writing adds to its end.

* `fileAt?_putFile`, `fileAt?_append` — what putting a file and adding to one do
  to the files at all places;
* `walk_append` — a way is gone through part by part.
-/

namespace Logwire

/-! ## Paths -/

/-- The names on the way from the root. -/
abbrev Place := List String

/-- A path as it is written: its names, and whether a slash follows the last. -/
structure Path where
  names : List String
  slash : Bool
  deriving DecidableEq, Repr

def Path.ofText (text : String) : Path :=
  let parts := (text.toList.splitOn '/').map String.ofList
  ⟨parts.filter fun p => p ≠ "", parts.getLast? = some ""⟩

/-- Why a path leads nowhere. -/
inductive FileFault where
  | missing
  | isDirectory
  | notDirectory
  | alreadyThere
  | nameTooLong
  | nullCharacter
  deriving DecidableEq, Repr

/-- The wording of a fault; most have none. -/
def FileFault.message? : FileFault → Option String
  | .nullCharacter => some "embedded null byte"
  | _ => none

def nameLimit : Nat := 255

def pathLimit : Nat := 4095

/-- A name with more octets than there may be. -/
def isLongName (name : String) : Bool := nameLimit < name.utf8ByteSize

/-! ## Trees -/

/-- A file: its text and its permissions. -/
structure FileEntry where
  text : String
  mode : Nat
  deriving DecidableEq, Repr

/-- The directories below the root and the files of a tree. -/
structure FileTree where
  directories : List Place := []
  files : List (Place × FileEntry) := []
  deriving DecidableEq, Repr

namespace FileTree

def isDirectory (t : FileTree) (p : Place) : Bool := p = [] || t.directories.contains p

def fileAt? (t : FileTree) (p : Place) : Option FileEntry :=
  (t.files.find? fun f => f.1 = p).map Prod.snd

/-- Go from a directory to the one that a name leads to. -/
def enter (t : FileTree) (here : Place) (name : String) : Except FileFault Place :=
  if name = "." then .ok here
  else if name = ".." then .ok here.dropLast
  else if isLongName name then .error .nameTooLong
  else if t.isDirectory (here ++ [name]) then .ok (here ++ [name])
  else .error (if (t.fileAt? (here ++ [name])).isSome then .notDirectory else .missing)

/-- Go from a directory along a row of names. -/
def walk (t : FileTree) (here : Place) : List String → Except FileFault Place
  | [] => .ok here
  | name :: rest =>
    match t.enter here name with
    | .ok next => t.walk next rest
    | .error e => .error e

/-- Where a path leads. -/
inductive Target where
  /-- To a directory, which is there. -/
  | directory (place : Place)
  /-- To a name in a directory; nothing need be there.  A slash may follow the name. -/
  | entry (parent : Place) (name : String) (slash : Bool)
  deriving DecidableEq, Repr

/-- Where the last name of a path leads from the directory before it. -/
def Target.ofName (here : Place) (name : String) (slash : Bool) : Target :=
  if name = "." then .directory here
  else if name = ".." then .directory here.dropLast
  else .entry here name slash

def resolve (t : FileTree) (text : String) : Except FileFault Target :=
  if text.toList.contains '\x00' then .error .nullCharacter
  else if text = "" then .error .missing
  else if pathLimit < text.utf8ByteSize then .error .nameTooLong
  else
    let p := Path.ofText text
    match p.names.getLast? with
    | none => .ok (.directory [])
    | some name => (t.walk [] p.names.dropLast).map fun here => .ofName here name p.slash

/-- What stands at a place, once a file is put at another or the same. -/
def replaced (p : Place) (f : FileEntry) (g : Place × FileEntry) : Place × FileEntry :=
  if g.1 = p then (p, f) else g

def putFile (t : FileTree) (p : Place) (f : FileEntry) : FileTree :=
  match t.files.find? fun g => g.1 = p with
  | some _ => { t with files := t.files.map (replaced p f) }
  | none => { t with files := t.files ++ [(p, f)] }

/-- The permissions that are always withheld. -/
def withheld : Nat := 0o022

/-- The permissions of a new file. -/
def grant (mode : Nat) : Nat := mode - (mode &&& withheld)

/-- The place of a file that can be written; a new one gets the permissions asked for. -/
def openFile (t : FileTree) (text : String) (mode : Nat) : Except FileFault Place × FileTree :=
  match t.resolve text with
  | .error e => (.error e, t)
  | .ok (.directory _) => (.error .isDirectory, t)
  | .ok (.entry parent name slash) =>
    let place := parent ++ [name]
    if slash then (.error .isDirectory, t)
    else if isLongName name then (.error .nameTooLong, t)
    else if t.isDirectory place then (.error .isDirectory, t)
    else
      match t.fileAt? place with
      | some _ => (.ok place, t)
      | none => (.ok place, t.putFile place ⟨"", grant mode⟩)

/-- Add a text to the end of a file. -/
def append (t : FileTree) (p : Place) (text : String) : FileTree :=
  match t.fileAt? p with
  | some f => t.putFile p { f with text := f.text ++ text }
  | none => t

/-- The permissions of a file that is put down as a whole. -/
def plainMode : Nat := 0o666

/-- Put down a file as a whole. -/
def write (t : FileTree) (text content : String) : Except FileFault Unit × FileTree :=
  match t.openFile text plainMode with
  | (.error e, t) => (.error e, t)
  | (.ok place, t) =>
    (.ok (), t.putFile place ⟨content, ((t.fileAt? place).map FileEntry.mode).getD 0⟩)

def makeDirectory (t : FileTree) (text : String) : Except FileFault Unit × FileTree :=
  match t.resolve text with
  | .error e => (.error e, t)
  | .ok (.directory _) => (.error .alreadyThere, t)
  | .ok (.entry parent name _) =>
    let place := parent ++ [name]
    if isLongName name then (.error .nameTooLong, t)
    else if t.isDirectory place || (t.fileAt? place).isSome then (.error .alreadyThere, t)
    else (.ok (), { t with directories := t.directories ++ [place] })

/-- The file that a path leads to, if there is something. -/
def read (t : FileTree) (text : String) : Except FileFault (Option FileEntry) :=
  match t.resolve text with
  | .error _ => .ok none
  | .ok (.directory _) => .error .isDirectory
  | .ok (.entry parent name slash) =>
    let place := parent ++ [name]
    if t.isDirectory place then .error .isDirectory
    else if slash then .ok none
    else .ok (t.fileAt? place)

/-! ## Laws -/

theorem replaced_of_eq {p : Place} (f : FileEntry) {g : Place × FileEntry} (h : g.1 = p) :
    replaced p f g = (p, f) := if_pos h

theorem replaced_of_ne {p : Place} (f : FileEntry) {g : Place × FileEntry} (h : g.1 ≠ p) :
    replaced p f g = g := if_neg h

/-- Nothing changes its place. -/
theorem fst_replaced (p : Place) (f : FileEntry) (g : Place × FileEntry) :
    (replaced p f g).1 = g.1 := by
  by_cases h : g.1 = p
  · rw [replaced_of_eq f h, h]
  · rw [replaced_of_ne f h]

/-- So a replacement and a look-up may change places. -/
theorem find?_map_replaced (fs : List (Place × FileEntry)) (p q : Place) (f : FileEntry) :
    (fs.map (replaced p f)).find? (fun g => g.1 = q) =
      (fs.find? fun g => g.1 = q).map (replaced p f) := by
  have hpred : (fun g : Place × FileEntry => decide (g.1 = q)) ∘ replaced p f =
      fun g => decide (g.1 = q) := by
    funext g
    rw [Function.comp_apply, fst_replaced]
  rw [List.find?_map, hpred]

theorem fst_of_find? {fs : List (Place × FileEntry)} {p : Place} {g : Place × FileEntry}
    (h : (fs.find? fun g => g.1 = p) = some g) : g.1 = p := by
  have hg := List.find?_some h
  exact of_decide_eq_true hg

/-- What putting a file does to all places. -/
theorem fileAt?_putFile (t : FileTree) (p q : Place) (f : FileEntry) :
    (t.putFile p f).fileAt? q = if q = p then some f else t.fileAt? q := by
  unfold putFile fileAt?
  cases hp : t.files.find? fun g => g.1 = p with
  | none =>
    rw [List.find?_append]
    by_cases hq : q = p
    · subst hq
      simp [hp]
    · simp [hq, Ne.symm hq]
  | some g =>
    simp only [find?_map_replaced]
    by_cases hq : q = p
    · subst hq
      rw [hp, Option.map_some, Option.map_some, replaced_of_eq f (fst_of_find? hp), if_pos rfl]
    · rw [if_neg hq]
      cases hfound : t.files.find? fun g => g.1 = q with
      | none => rfl
      | some g' =>
        rw [Option.map_some, replaced_of_ne f fun h => hq ((fst_of_find? hfound).symm.trans h)]

/-- What an addition does to the files at all places. -/
theorem fileAt?_append (t : FileTree) (p q : Place) (text : String) :
    (t.append p text).fileAt? q =
      if q = p then (t.fileAt? p).map fun f => { f with text := f.text ++ text }
      else t.fileAt? q := by
  unfold append
  split
  · rename_i f hf
    rw [fileAt?_putFile, hf]
    rfl
  · rename_i hf
    by_cases hq : q = p
    · simp [hq, hf]
    · simp [hq]

/-- A way is gone through part by part. -/
theorem walk_append (t : FileTree) (here : Place) (xs ys : List String) :
    t.walk here (xs ++ ys) =
      match t.walk here xs with
      | .ok there => t.walk there ys
      | .error e => .error e := by
  induction xs generalizing here with
  | nil => rfl
  | cons x xs ih =>
    simp only [List.cons_append, walk]
    rcases t.enter here x with _ | next
    · rfl
    · exact ih next

end FileTree

end Logwire
