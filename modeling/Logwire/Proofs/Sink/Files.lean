import Logwire.Proofs.Storage.Paths
import Logwire.Sink.Basic

/-!
# Logwire.Proofs.Sink.Files

What the files of a site hold after any calls at its sinks.

A file sink is `Sound` when the place that it holds is the one that its path
leads to.  Every step keeps all file sinks sound, and does one of three things
to the files, `FileChange`: nothing, one line more at one place, or a new
directory.  So each file ends as it was with one line for each record that was
written to it, in order: `textAt_run`.  A write that fails changes nothing, and
whether one succeeds depends on the path, the directories and the record alone.
-/

namespace Logwire

/-! ## Lines -/

/-- The lines of records, each with its ending. -/
def endLines (rs : List Record) : List Char := rs.flatMap fun r => r.lineChars ++ ['\n']

theorem endLines_append (rs rs' : List Record) :
    endLines (rs ++ rs') = endLines rs ++ endLines rs' :=
  List.flatMap_append

/-- A line holds neither of the two line breaks. -/
theorem Record.ne_of_mem_lineChars (r : Record) {c : Char} (hc : c ∈ r.lineChars) :
    c ≠ '\r' ∧ c ≠ '\n' := by
  have := List.any_eq_false.mp r.lineChars_noBreak c hc
  constructor <;> rintro rfl <;> exact this rfl

/-- Split at the line feeds, the lines of records are one piece each, and nothing is behind them. -/
theorem splitOn_endLines (rs : List Record) :
    (endLines rs).splitOn '\n' = rs.map Record.lineChars ++ [[]] := by
  induction rs with
  | nil => rfl
  | cons r rs ih =>
    have hr : '\n' ∉ r.lineChars := fun hc => (r.ne_of_mem_lineChars hc).2 rfl
    have hcons : endLines (r :: rs) = r.lineChars ++ '\n' :: endLines rs := by simp [endLines]
    rw [hcons, List.splitOn_append_cons_self_of_not_mem hr, ih]
    rfl

/-! ## One sink -/

namespace LogFile

variable {f : LogFile} {t t' : FileTree} {r : Record} {p : Place}

/-- The place that a sink holds is where its path leads, and the file is there. -/
def Sound (f : LogFile) (t : FileTree) : Prop :=
  ∀ p, f.opened = some p → t.fileOf? f.path = some p ∧ (t.fileAt? p).isSome

theorem sound_of_closed (h : f.opened = none) : f.Sound t := by
  intro p hp
  rw [h] at hp
  cases hp

/-- A place that is held stays where the path leads as the tree grows. -/
theorem Sound.grows (h : f.Sound t) (hg : t.Grows t') : f.Sound t' := fun p hp =>
  ⟨hg.fileOf?_eq (h p hp).1 (h p hp).2, hg.files p (h p hp).2⟩

/-- A sink whose path leads to no file holds none. -/
theorem Sound.opened_eq_none (h : f.Sound t) (hp : t.fileOf? f.path = none) : f.opened = none := by
  cases ho : f.opened with
  | none => rfl
  | some q =>
    rw [(h q ho).1] at hp
    cases hp

/-- A record with a line, written to a path that leads to a file, is added there. -/
theorem write_eq_ok (h : f.Sound t) (hp : t.fileOf? f.path = some p) (hl : r.hasLine = true) :
    f.write t r =
      (.ok (), { f with opened := some p }, t.extend p fileMode (endLine r.line)) := by
  have hpath : f.path ≠ "" := by
    intro e
    rw [e, FileTree.fileOf?_empty] at hp
    cases hp
  have hw : r.written = .ok r.line := (r.written_eq_ok_iff r.line).mpr ⟨hl, rfl⟩
  simp only [write, if_neg hpath, hw, ensureOpen]
  cases ho : f.opened with
  | none =>
    obtain ⟨t', ht, hadd⟩ := FileTree.openFile_of_fileOf? hp fileMode
    simp only [ht, hadd]
  | some q =>
    obtain ⟨hq, hthere⟩ := h q ho
    obtain rfl : q = p := Option.some.inj (hq.symm.trans hp)
    obtain ⟨g, hg⟩ := Option.isSome_iff_exists.mp hthere
    simp only [FileTree.extend, hg]

/-- Any other write fails, and leaves the sink and the tree as they were. -/
theorem write_eq_error (h : f.Sound t) (hn : t.fileOf? f.path = none ∨ r.hasLine = false) :
    ∃ e, f.write t r = (.error e, f, t) := by
  unfold write
  by_cases hpath : f.path = ""
  · exact ⟨.noPath, if_pos hpath⟩
  · rw [if_neg hpath]
    cases hl : r.hasLine with
    | false => exact ⟨.line .tooManyDigits, by simp [Record.written, hl]⟩
    | true =>
      have hp : t.fileOf? f.path = none := hn.resolve_right (by simp [hl])
      have ho : f.opened = none := h.opened_eq_none hp
      obtain ⟨e, he⟩ := FileTree.openFile_of_fileOf?_eq_none hp fileMode
      have hw : r.written = .ok r.line := (r.written_eq_ok_iff r.line).mpr ⟨hl, rfl⟩
      exact ⟨.file e, by simp only [hw, ensureOpen, ho, he]⟩

end LogFile

/-! ## Steps -/

/-- What may happen at a site: a call at the sink of a number, or that a directory is made. -/
inductive SinkStep where
  | write (sink : Nat) (record : Record)
  | close (sink : Nat)
  | makeDirectory (path : String)

namespace Site

variable {s : Site} {p : Place}

def step (s : Site) : SinkStep → Site
  | .write k r => (writeSink r k s).2
  | .close k => (closeSink k s).2
  | .makeDirectory path => { s with files := (s.files.makeDirectory path).2 }

/-- The site after steps in a row. -/
def run (s : Site) (steps : List SinkStep) : Site := steps.foldl step s

/-- The place that the path of a file sink leads to. -/
def placeOf? (s : Site) (k : Nat) : Option Place :=
  match s.sinks[k]? with
  | some (.file f) => s.files.fileOf? f.path
  | _ => none

/-- The record of a step that writes to a file sink whose path leads to a place, and returns. -/
def recordTo? (p : Place) (s : Site) : SinkStep → Option Record
  | .write k r => if s.placeOf? k = some p ∧ (writeSink r k s).1.isOk then some r else none
  | _ => none

/-- The records that steps write to a place, in order. -/
def recordsTo (p : Place) (s : Site) : List SinkStep → List Record
  | [] => []
  | a :: rest => (s.recordTo? p a).toList ++ recordsTo p (s.step a) rest

/-- All file sinks are sound. -/
def FilesSound (s : Site) : Prop :=
  ∀ (k : Nat) (f : LogFile), s.sinks[k]? = some (.file f) → f.Sound s.files

/-- What a step does to the files of a site and to its file sinks. -/
inductive FileChange (s : Site) (a : SinkStep) : Prop where
  /-- No file changes, and no sink holds a place that it did not hold. -/
  | quiet (files : (s.step a).files = s.files)
      (sinks : ∀ (j : Nat) (f : LogFile), (s.step a).sinks[j]? = some (.file f) →
        s.sinks[j]? = some (.file f) ∨ f.opened = none)
      (record : ∀ p, s.recordTo? p a = none)
  /-- The line of a record is added to one file, which the sink holds from then on. -/
  | line (k : Nat) (f : LogFile) (place : Place) (r : Record)
      (sink : s.sinks[k]? = some (.file f)) (leads : s.files.fileOf? f.path = some place)
      (after : s.step a = { s with
        files := s.files.extend place LogFile.fileMode (endLine r.line) }.setSink k
          (.file { f with opened := some place }))
      (record : ∀ p, s.recordTo? p a = if place = p then some r else none)
  /-- A directory is made, or the attempt fails. -/
  | directory (path : String)
      (after : s.step a = { s with files := (s.files.makeDirectory path).2 })
      (record : ∀ p, s.recordTo? p a = none)

/-- A file sink after a change of one sink is that one or was there before. -/
theorem file_of_setSink {k j : Nat} {sink : Sink} {f : LogFile}
    (h : (s.setSink k sink).sinks[j]? = some (.file f)) :
    s.sinks[j]? = some (.file f) ∨ sink = .file f := by
  simp only [setSink, List.getElem?_set] at h
  split at h
  · split at h
    · exact .inr (Option.some.inj h)
    · cases h
  · exact .inl h

/-- A post to an index touches no file. -/
theorem files_post (s : Site) (w : IndexSink) (r : Record) : (s.post w r).2.files = s.files := by
  unfold post
  split
  · rfl
  · rename_i n x _
    have : (s.postTo n x w.type w.id r.toJson).2.files = s.files := rfl
    split <;> simp_all

/-- A sink that is no file writes without touching the files or the file sinks. -/
theorem quiet_writeSink {k : Nat} (hk : ∀ f, s.sinks[k]? ≠ some (.file f)) (r : Record) :
    (writeSink r k s).2.files = s.files ∧ ∀ (j : Nat) (f : LogFile),
      (writeSink r k s).2.sinks[j]? = some (.file f) → s.sinks[j]? = some (.file f) := by
  have hset : ∀ (s' : Site) (sink : Sink), (∀ f, sink ≠ .file f) → s'.sinks = s.sinks →
      ∀ (j : Nat) (f : LogFile), (s'.setSink k sink).sinks[j]? = some (.file f) →
        s.sinks[j]? = some (.file f) := by
    intro s' sink hsink hs j f hj
    exact hs ▸ (file_of_setSink hj).resolve_right (hsink f)
  unfold writeSink
  split
  · exact ⟨rfl, fun _ _ h => h⟩
  · exact ⟨rfl, hset s _ nofun rfl⟩
  · split
    · exact ⟨rfl, hset s _ nofun rfl⟩
    · exact ⟨rfl, fun _ _ h => h⟩
  · rename_i f hf
    exact absurd hf (hk f)
  · rename_i w _
    have hfiles := s.files_post w r
    have hsinks := s.sinks_post w r
    split <;> rename_i he <;> rw [he] at hfiles hsinks <;>
      exact ⟨hfiles, fun _ _ h => hsinks ▸ h⟩
  · split <;> exact ⟨rfl, hset _ _ nofun rfl⟩
  · split <;> exact ⟨rfl, fun _ _ h => h⟩
  · exact ⟨rfl, fun _ _ h => h⟩

/-- A write at a file sink either adds the line of the record or changes nothing. -/
theorem writeSink_file (h : s.FilesSound) {k : Nat} {f : LogFile}
    (hf : s.sinks[k]? = some (.file f)) (r : Record) :
    (∃ place, s.files.fileOf? f.path = some place ∧ r.hasLine = true ∧
      writeSink r k s = (.ok (), { s with
        files := s.files.extend place LogFile.fileMode (endLine r.line) }.setSink k
          (.file { f with opened := some place }))) ∨
    ((s.files.fileOf? f.path = none ∨ r.hasLine = false) ∧
      ∃ e, writeSink r k s = (.error (.file e), s)) := by
  by_cases hok : s.files.fileOf? f.path = none ∨ r.hasLine = false
  · obtain ⟨e, he⟩ := LogFile.write_eq_error (h k f hf) hok
    exact .inr ⟨hok, e, by simp only [writeSink, hf, he]⟩
  · rw [not_or, Bool.not_eq_false] at hok
    obtain ⟨place, hp⟩ := Option.ne_none_iff_exists'.mp hok.1
    have hw := LogFile.write_eq_ok (h k f hf) hp hok.2
    exact .inl ⟨place, hp, hok.2, by simp only [writeSink, hf, hw]⟩

/-- A close touches no file, and the sinks that it touches hold nothing afterwards. -/
theorem quiet_closeSink (k : Nat) : (closeSink k s).2.files = s.files ∧
    ∀ (j : Nat) (f : LogFile), (closeSink k s).2.sinks[j]? = some (.file f) →
      s.sinks[j]? = some (.file f) ∨ f.opened = none := by
  unfold closeSink
  split
  · exact ⟨rfl, fun _ _ h => .inl h⟩
  · rename_i g _
    refine ⟨rfl, fun j f hj => ?_⟩
    refine (file_of_setSink hj).imp_right fun he => ?_
    rw [← Sink.file.inj he]
    rfl
  · rename_i w _
    refine ⟨rfl, fun j f hj => ?_⟩
    exact .inl ((file_of_setSink hj).resolve_right nofun)
  · exact ⟨rfl, fun _ _ h => .inl h⟩
  · exact ⟨rfl, fun _ _ h => .inl h⟩

/-- Each step changes the files in one of these ways. -/
theorem fileChange (h : s.FilesSound) (a : SinkStep) : s.FileChange a := by
  cases a with
  | makeDirectory path => exact .directory path rfl fun _ => rfl
  | close k => exact .quiet (quiet_closeSink k).1 (quiet_closeSink k).2 fun _ => rfl
  | write k r =>
    by_cases hfile : ∃ f, s.sinks[k]? = some (.file f)
    · obtain ⟨f, hf⟩ := hfile
      rcases writeSink_file h hf r with ⟨place, hp, -, hw⟩ | ⟨-, e, hw⟩
      · refine .line k f place r hf hp (by rw [step, hw]) fun p => ?_
        simp [recordTo?, placeOf?, hf, hp, hw, Except.isOk, Except.toBool]
      · have hstep : s.step (.write k r) = s := by rw [step, hw]
        refine .quiet (by rw [hstep]) (fun j f hj => .inl (hstep ▸ hj)) fun p => ?_
        simp [recordTo?, hw, Except.isOk, Except.toBool]
    · have hk : ∀ f, s.sinks[k]? ≠ some (.file f) := fun f hf => hfile ⟨f, hf⟩
      have hplace : s.placeOf? k = none := by
        unfold placeOf?
        split
        · rename_i f hf
          exact absurd hf (hk f)
        · rfl
      obtain ⟨hfiles, hsinks⟩ := quiet_writeSink hk r
      refine .quiet hfiles (fun j f hj => .inl (hsinks j f hj)) fun p => ?_
      simp [recordTo?, hplace]

/-! ## What a step keeps and adds -/

/-- Every step keeps the file sinks sound. -/
theorem FilesSound.step (h : s.FilesSound) (a : SinkStep) : (s.step a).FilesSound := by
  intro j f hj
  cases fileChange h a with
  | quiet files sinks _ =>
    rw [files]
    cases sinks j f hj with
    | inl hold => exact h j f hold
    | inr hclosed => exact LogFile.sound_of_closed hclosed
  | line k g place r sink leads after _ =>
    rw [after] at hj ⊢
    have hgrows := s.files.grows_extend place LogFile.fileMode (endLine r.line)
    cases file_of_setSink hj with
    | inl hold => exact (h j f hold).grows hgrows
    | inr hnew =>
      rw [← Sink.file.inj hnew]
      intro q hq
      obtain rfl : place = q := Option.some.inj hq
      -- the path led to the place already, and now the file is there as well
      have hthere :
          ((s.files.extend place LogFile.fileMode (endLine r.line)).fileAt? place).isSome := by
        rw [FileTree.isSome_fileAt?_extend, decide_eq_true rfl, Bool.true_or]
      exact ⟨FileTree.fileOf?_extend leads _ _ _, hthere⟩
  | directory path after _ =>
    rw [after] at hj ⊢
    exact (h j f hj).grows (s.files.grows_makeDirectory path)

/-- A step adds to the file at a place the line of the record that it writes there, if any. -/
theorem textAt_step (h : s.FilesSound) (a : SinkStep) (p : Place) :
    ((s.step a).files.textAt p).toList =
      (s.files.textAt p).toList ++ endLines (s.recordTo? p a).toList := by
  cases fileChange h a with
  | quiet files _ record => simp [files, record, endLines]
  | directory path after record =>
    rw [after, record, (s.files.textAt_makeDirectory path p).1]
    simp [endLines]
  | line k f place r _ _ after record =>
    rw [after, record]
    change ((s.files.extend place LogFile.fileMode (endLine r.line)).textAt p).toList = _
    rw [FileTree.textAt_extend]
    by_cases hp : p = place
    · subst hp
      simp [endLines, endLine, Record.line]
    · simp [hp, Ne.symm hp, endLines]

/-- A step makes no file but the one that it writes a record to. -/
theorem isSome_fileAt?_step (h : s.FilesSound) (a : SinkStep) (p : Place) :
    ((s.step a).files.fileAt? p).isSome =
      ((s.files.fileAt? p).isSome || (s.recordTo? p a).isSome) := by
  cases fileChange h a with
  | quiet files _ record => simp [files, record]
  | directory path after record =>
    rw [after, record, (s.files.textAt_makeDirectory path p).2]
    simp
  | line k f place r _ _ after record =>
    rw [after, record]
    change ((s.files.extend place LogFile.fileMode (endLine r.line)).fileAt? p).isSome = _
    rw [FileTree.isSome_fileAt?_extend, Bool.or_comm]
    by_cases hp : p = place
    · simp [hp]
    · simp [hp, Ne.symm hp]

/-! ## Runs -/

/-- After any steps all places that are held are sound. -/
theorem FilesSound.run (h : s.FilesSound) (steps : List SinkStep) : (s.run steps).FilesSound := by
  induction steps generalizing s with
  | nil => exact h
  | cons a rest ih => exact ih (h.step a)

/-- Each file ends as it was, with the lines of the records that were written to it. -/
theorem textAt_run (h : s.FilesSound) (steps : List SinkStep) (p : Place) :
    ((s.run steps).files.textAt p).toList =
      (s.files.textAt p).toList ++ endLines (s.recordsTo p steps) := by
  induction steps generalizing s with
  | nil => simp [run, recordsTo, endLines]
  | cons a rest ih =>
    rw [recordsTo, endLines_append, ← List.append_assoc, ← textAt_step h a p]
    exact ih (h.step a)

/-- The files are those that were there and those that a record was written to. -/
theorem isSome_fileAt?_run (h : s.FilesSound) (steps : List SinkStep) (p : Place) :
    ((s.run steps).files.fileAt? p).isSome =
      ((s.files.fileAt? p).isSome || !(s.recordsTo p steps).isEmpty) := by
  induction steps generalizing s with
  | nil => simp [run, recordsTo]
  | cons a rest ih =>
    have hstep := isSome_fileAt?_step h a p
    have hrest := ih (h.step a)
    rw [hstep, Bool.or_assoc] at hrest
    rw [recordsTo]
    refine hrest.trans (congrArg _ ?_)
    cases s.recordTo? p a <;> rfl

/-- What may be relied on when calls are made at a file sink, whatever was done before. -/
structure TakesLines (s : Site) (k : Nat) (f : LogFile) : Prop where
  /-- Whether a write returns depends on the path, the directories and the record. -/
  returns : ∀ r, (writeSink r k s).1.isOk ↔ (s.files.fileOf? f.path).isSome ∧ r.hasLine
  /-- A write that fails leaves everything as it was. -/
  unchanged : ∀ r e, (writeSink r k s).1 = .error e → (writeSink r k s).2 = s
  /-- A sink whose path leads to no file is like a new one. -/
  asNew : s.files.fileOf? f.path = none → f = { path := f.path }
  /-- A close succeeds and leaves the files alone. -/
  closes : (closeSink k s).1 = .ok () ∧ (closeSink k s).2.files = s.files
  /-- A second close does nothing, and so does one before any write. -/
  closesOnce : closeSink k (closeSink k s).2 = (.ok (), (closeSink k s).2) ∧
    (f.opened = none → closeSink k s = (.ok (), s))

/-- A sink takes lines wherever its path leads to a file. -/
theorem FilesSound.takesLines (h : s.FilesSound) {k : Nat} {f : LogFile}
    (hf : s.sinks[k]? = some (.file f)) : s.TakesLines k f := by
  have hclose : closeSink k s = (.ok (), s.setSink k (.file f.close)) := by simp only [closeSink, hf]
  obtain ⟨hk, hget⟩ := List.getElem?_eq_some_iff.mp hf
  constructor
  case returns =>
    intro r
    rcases writeSink_file h hf r with ⟨place, hp, hl, hw⟩ | ⟨hn, e, hw⟩
    · simp [hw, hp, hl, Except.isOk, Except.toBool]
    · rw [hw]
      simp only [Except.isOk, Except.toBool, Bool.false_eq_true, false_iff, not_and]
      rcases hn with hn | hn <;> simp [hn]
  case unchanged =>
    intro r e he
    rcases writeSink_file h hf r with ⟨place, hp, hl, hw⟩ | ⟨hn, e, hw⟩
    · rw [hw] at he
      cases he
    · rw [hw]
  case asNew =>
    intro hp
    have ho := (h k f hf).opened_eq_none hp
    obtain ⟨path, opened⟩ := f
    obtain rfl : opened = none := ho
    rfl
  case closes => rw [hclose]; exact ⟨rfl, rfl⟩
  case closesOnce =>
    rw [hclose]
    constructor
    · simp [closeSink, setSink, hk]
    · intro ho
      have hsame : f.close = f := by rw [LogFile.close, ← ho]
      have hset : s.sinks.set k (.file f) = s.sinks := by rw [← hget, List.set_getElem_self]
      rw [hsame, setSink, hset]

/-- **Files lose no line, and gain none but those written to them.**  From file sinks that are
closed, whatever is done with them and in whatever order, each file ends as it was with one line
for each record that was written to it. -/
theorem files_of_run (h : ∀ f, .file f ∈ s.sinks → f.opened = none) (steps : List SinkStep) :
    (∀ p, ((s.run steps).files.textAt p).toList =
          (s.files.textAt p).toList ++ endLines (s.recordsTo p steps) ∧
        ((s.run steps).files.fileAt? p).isSome =
          ((s.files.fileAt? p).isSome || !(s.recordsTo p steps).isEmpty) ∧
        (endLines (s.recordsTo p steps)).splitOn '\n' =
          (s.recordsTo p steps).map Record.lineChars ++ [[]]) ∧
      (∀ r : Record, ∀ c ∈ r.lineChars, c ≠ '\r' ∧ c ≠ '\n') ∧
      ∀ (k : Nat) (f : LogFile), (s.run steps).sinks[k]? = some (.file f) →
        (s.run steps).TakesLines k f := by
  have hs : s.FilesSound := fun k f hf => LogFile.sound_of_closed (h f (List.mem_of_getElem? hf))
  refine ⟨fun p => ⟨textAt_run hs steps p, isSome_fileAt?_run hs steps p, splitOn_endLines _⟩,
    fun r c hc => r.ne_of_mem_lineChars hc, fun k f hf => (hs.run steps).takesLines hf⟩

/-- Sinks for one file by two paths, a sink without a path, and one below a directory that is
missing. -/
def shared : Site where
  files := { files := [(["log"], ⟨"old\n", 0o644⟩)] }
  sinks := [.file { path := "log" }, .file { path := ".//log" }, .file { path := "" },
    .file { path := "d/log" }]

/-- A record whose fields break the line. -/
def breaking (message : String) : Record where
  facility := 1
  severity := 6
  version := 1
  timestamp := ""
  hostName := "h\r\n"
  application := ""
  process := ""
  messageId := ""
  audit := none
  metric := none
  message := message

/-- Every sink fails or succeeds, is closed twice and written to again. -/
def sharedSteps : List SinkStep :=
  [.close 0, .write 0 (breaking "a\nb"), .write 1 (breaking "c"), .write 2 (breaking "d"),
    .write 3 (breaking "e"), .makeDirectory "d", .write 3 (breaking "f"), .close 0, .close 0,
    .write 0 (breaking "g")]

theorem files_of_run_shared : (∀ f, .file f ∈ shared.sinks → f.opened = none) ∧
    ((shared.run sharedSteps).files.textAt ["log"]).toList =
      "old\n".toList ++ endLines [breaking "a\nb", breaking "c", breaking "g"] ∧
    ((shared.run sharedSteps).files.textAt ["d", "log"]).toList = endLines [breaking "f"] := by
  have h : ∀ f, .file f ∈ shared.sinks → f.opened = none := by simp [shared]
  have hlog : shared.recordsTo ["log"] sharedSteps =
      [breaking "a\nb", breaking "c", breaking "g"] := by decide +kernel
  have hbelow : shared.recordsTo ["d", "log"] sharedSteps = [breaking "f"] := by decide +kernel
  obtain ⟨htext, -⟩ := files_of_run h sharedSteps
  exact ⟨h, hlog ▸ (htext ["log"]).1, hbelow ▸ (htext ["d", "log"]).1⟩

end Site

end Logwire
