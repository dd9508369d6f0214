import Logwire.Sink.Basic

/-!
# Logwire.Proofs.Sink.FanOut

A tree of sinks, seen from its leaves.

The leaves may be anything that answers calls, `Leaves`; they share a state and
may fail at any call.  A write goes to them from left to right up to the first
that fails, and a close goes to all of them, the first failure being reported:
`Served`.  Which leaves are called shows in a history that is kept beside their
state, `recorded`.  So nothing but the row of its leaves matters of a tree,
`run_congr`.

A leaf that keeps records in memory, `IsMemory`, ends with those of the history
that are its own.
-/

namespace Logwire

namespace SinkTree

variable {σ ε : Type}

/-- What is asked of a tree, and by it of its leaves. -/
inductive Call where
  | write (record : Record)
  | close

/-- What the leaves do when they are called, and what this makes of their state. -/
abbrev Leaves (σ ε : Type) := Call → Nat → σ → Except ε Unit × σ

/-- A call at a tree of leaves. -/
def call (L : Leaves σ ε) (t : SinkTree) : Call → σ → Except ε Unit × σ
  | .write r, s => t.write (L (.write r)) s
  | .close, s => t.close (L .close) s

/-- Calls in a row: what comes of each, and the state of the leaves after them. -/
def run (L : Leaves σ ε) (t : SinkTree) : List Call → σ → List (Except ε Unit) × σ
  | [], s => ([], s)
  | c :: rest, s =>
    ((t.call L c s).1 :: (run L t rest (t.call L c s).2).1, (run L t rest (t.call L c s).2).2)

/-! ## Leaves in a row -/

namespace Leaves

variable (L : Leaves σ ε)

/-- What comes of a call at leaves in a row. -/
def outcomes (c : Call) : List Nat → σ → List (Except ε Unit)
  | [], _ => []
  | k :: ks, s => (L c k s).1 :: outcomes c ks (L c k s).2

/-- The state after a call at leaves in a row. -/
def after (c : Call) (ks : List Nat) (s : σ) : σ := ks.foldl (fun s k => (L c k s).2) s

/-- The first failure of outcomes in a row, if there is one. -/
inductive FirstFailure : List (Except ε Unit) → Except ε Unit → Prop where
  | fine {os : List (Except ε Unit)} (all : ∀ o ∈ os, o = .ok ()) : FirstFailure os (.ok ())
  | failed {front back : List (Except ε Unit)} {e : ε} (before : ∀ o ∈ front, o = .ok ()) :
      FirstFailure (front ++ .error e :: back) (.error e)

theorem FirstFailure.cons {os : List (Except ε Unit)} {result : Except ε Unit}
    (h : FirstFailure os result) : FirstFailure (.ok () :: os) result := by
  cases h with
  | fine all => exact .fine (List.forall_mem_cons.mpr ⟨rfl, all⟩)
  | @failed front back e before =>
    have hfront : ∀ o ∈ .ok () :: front, o = .ok () := List.forall_mem_cons.mpr ⟨rfl, before⟩
    exact failed hfront

theorem FirstFailure.head (e : ε) (back : List (Except ε Unit)) :
    FirstFailure (.error e :: back) (.error e) :=
  have hnil : ∀ o ∈ ([] : List (Except ε Unit)), o = .ok () := nofun
  failed hnil

/-- How a call is served by leaves in a row: what is reported, and which of them are called. -/
inductive Served (s : σ) : Call → List Nat → Except ε Unit → List Nat → Prop where
  /-- A write that no leaf fails at reaches all of them. -/
  | written {r : Record} {ks : List Nat} (fine : ∀ o ∈ L.outcomes (.write r) ks s, o = .ok ()) :
      Served s (.write r) ks (.ok ()) ks
  /-- The first leaf that fails is the last that a write reaches. -/
  | stopped {r : Record} {front back : List Nat} {k : Nat} {e : ε}
      (fine : ∀ o ∈ L.outcomes (.write r) front s, o = .ok ())
      (fails : (L (.write r) k (L.after (.write r) front s)).1 = .error e) :
      Served s (.write r) (front ++ k :: back) (.error e) (front ++ [k])
  /-- A close reaches all leaves, and the first failure is reported. -/
  | closed {ks : List Nat} {result : Except ε Unit}
      (first : FirstFailure (L.outcomes .close ks s) result) : Served s .close ks result ks

variable {L} in
/-- One leaf more in front that does not fail at a write. -/
theorem Served.cons {s : σ} {r : Record} {k : Nat} {ks reached : List Nat}
    {result : Except ε Unit} (hk : (L (.write r) k s).1 = .ok ())
    (h : L.Served (L (.write r) k s).2 (.write r) ks result reached) :
    L.Served s (.write r) (k :: ks) result (k :: reached) := by
  cases h with
  | written fine => exact .written (List.forall_mem_cons.mpr ⟨hk, fine⟩)
  | @stopped _ front back k' e fine fails =>
    have hfront : ∀ o ∈ L.outcomes (.write r) (k :: front) s, o = .ok () :=
      List.forall_mem_cons.mpr ⟨hk, fine⟩
    exact stopped hfront fails

/-- A write at leaves in a row reaches those up to the first that fails. -/
theorem exists_served_writeAll (r : Record) (ks : List Nat) (s : σ) :
    ∃ result reached, L.Served s (.write r) ks result reached ∧
      writeAll (L (.write r)) ks s = (result, L.after (.write r) reached s) := by
  induction ks generalizing s with
  | nil => exact ⟨.ok (), [], .written nofun, rfl⟩
  | cons k ks ih =>
    have hstep := ih (L (.write r) k s).2
    rcases hk : L (.write r) k s with ⟨_ | _, s'⟩
    case error e =>
      have hnil : ∀ o ∈ L.outcomes (.write r) [] s, o = .ok () := nofun
      refine ⟨.error e, [k], .stopped hnil (by rw [after, List.foldl_nil, hk]), ?_⟩
      simp only [writeAll, hk, after, List.foldl_cons, List.foldl_nil]
    case ok =>
      obtain ⟨result, reached, hserved, hrest⟩ := hstep
      refine ⟨result, k :: reached, hserved.cons (by rw [hk]), ?_⟩
      rw [hk] at hrest
      simp only [writeAll, hk, after, List.foldl_cons] at hrest ⊢
      exact hrest

/-- A close reaches all leaves and reports the first failure. -/
theorem closeAll_eq (ks : List Nat) (s : σ) : ∃ result,
    FirstFailure (L.outcomes .close ks s) result ∧
      closeAll (L .close) ks s = (result, L.after .close ks s) := by
  induction ks generalizing s with
  | nil => exact ⟨.ok (), .fine nofun, rfl⟩
  | cons k ks ih =>
    obtain ⟨result, hfirst, hrest⟩ := ih (L .close k s).2
    simp only [closeAll, hrest, outcomes]
    cases hk : (L .close k s).1 with
    | ok => exact ⟨result, hfirst.cons, rfl⟩
    | error e => exact ⟨.error e, .head e _, rfl⟩

/-- A tree serves a call as the row of its leaves does. -/
theorem exists_served (t : SinkTree) (c : Call) (s : σ) :
    ∃ result reached, L.Served s c t.leaves result reached ∧
      t.call L c s = (result, L.after c reached s) := by
  cases c with
  | write r =>
    obtain ⟨result, reached, hserved, hwrite⟩ := L.exists_served_writeAll r t.leaves s
    exact ⟨result, reached, hserved, (write_eq_writeAll _ t s).trans hwrite⟩
  | close =>
    obtain ⟨result, hfirst, hclose⟩ := L.closeAll_eq t.leaves s
    exact ⟨result, t.leaves, .closed hfirst, (close_eq_closeAll _ t s).trans hclose⟩

/-! ## Histories -/

/-- Leaves beside whose state it is kept which of them were called. -/
def recorded : Leaves (σ × List (Nat × Call)) ε := fun c k s =>
  ((L c k s.1).1, (L c k s.1).2, s.2 ++ [(k, c)])

/-- Each leaf that is called leaves its mark in the history, in order. -/
theorem after_recorded (c : Call) (ks : List Nat) (s : σ) (history : List (Nat × Call)) :
    L.recorded.after c ks (s, history) =
      (L.after c ks s, history ++ ks.map fun k => (k, c)) := by
  induction ks generalizing s history with
  | nil => simp [after]
  | cons k ks ih =>
    have hcons : L.recorded.after c (k :: ks) (s, history) =
        L.recorded.after c ks ((L c k s).2, history ++ [(k, c)]) := rfl
    rw [hcons, ih, List.append_assoc]
    rfl

theorem outcomes_recorded (c : Call) (ks : List Nat) (s : σ) (history : List (Nat × Call)) :
    L.recorded.outcomes c ks (s, history) = L.outcomes c ks s := by
  induction ks generalizing s history with
  | nil => rfl
  | cons k ks ih => exact congrArg _ (ih (L c k s).2 (history ++ [(k, c)]))

variable {L} in
/-- Leaves with a history serve calls as they do without it. -/
theorem Served.of_recorded {s : σ} {history : List (Nat × Call)} {c : Call}
    {ks reached : List Nat} {result : Except ε Unit}
    (h : L.recorded.Served (s, history) c ks result reached) : L.Served s c ks result reached := by
  cases h with
  | written fine => exact .written (L.outcomes_recorded _ _ s history ▸ fine)
  | stopped fine fails =>
    rw [after_recorded] at fails
    exact .stopped (L.outcomes_recorded _ _ s history ▸ fine) fails
  | closed first => exact .closed (L.outcomes_recorded _ _ s history ▸ first)

end Leaves

variable (L : Leaves σ ε)

theorem writeAll_recorded (r : Record) (ks : List Nat) (p : σ × List (Nat × Call)) :
    writeAll (L (.write r)) ks p.1 =
      ((writeAll (L.recorded (.write r)) ks p).1, (writeAll (L.recorded (.write r)) ks p).2.1) := by
  induction ks generalizing p with
  | nil => rfl
  | cons k ks ih =>
    have hrest := ih (L.recorded (.write r) k p).2
    have hstate : (L.recorded (.write r) k p).2.1 = (L (.write r) k p.1).2 := rfl
    rw [hstate] at hrest
    simp only [writeAll]
    rcases hk : L (.write r) k p.1 with ⟨_ | _, s'⟩
    · simp only [Leaves.recorded, hk]
    · rw [hk] at hrest
      simp only [Leaves.recorded, hk] at hrest ⊢
      exact hrest

theorem closeAll_recorded (ks : List Nat) (p : σ × List (Nat × Call)) :
    closeAll (L .close) ks p.1 =
      ((closeAll (L.recorded .close) ks p).1, (closeAll (L.recorded .close) ks p).2.1) := by
  induction ks generalizing p with
  | nil => rfl
  | cons k ks ih =>
    have hrest := ih (L.recorded .close k p).2
    have hstate : (L.recorded .close k p).2.1 = (L .close k p.1).2 := rfl
    rw [hstate] at hrest
    simp only [closeAll, hrest]
    rfl

/-- Keeping a history changes nothing. -/
theorem call_recorded (t : SinkTree) (c : Call) (p : σ × List (Nat × Call)) :
    t.call L c p.1 = ((t.call L.recorded c p).1, (t.call L.recorded c p).2.1) := by
  cases c with
  | write r =>
    simp only [call, write_eq_writeAll]
    exact writeAll_recorded L r t.leaves p
  | close =>
    simp only [call, close_eq_closeAll]
    exact closeAll_recorded L t.leaves p

/-- A call is served by the leaves, and the history goes on with those that it reaches. -/
theorem served_call (t : SinkTree) (c : Call) (s : σ) (history : List (Nat × Call)) :
    ∃ result reached, L.Served s c t.leaves result reached ∧
      t.call L c s = (result, L.after c reached s) ∧
      t.call L.recorded c (s, history) =
        (result, L.after c reached s, history ++ reached.map fun k => (k, c)) := by
  obtain ⟨result, reached, hserved, hcall⟩ := L.recorded.exists_served t c (s, history)
  rw [L.after_recorded] at hcall
  exact ⟨result, reached, hserved.of_recorded, by rw [call_recorded L t c (s, history), hcall],
    hcall⟩

/-! ## Trees with the same leaves -/

/-- A leaf keeps records in memory; `holds` tells which ones. -/
structure IsMemory (L : Leaves σ ε) (k : Nat) (holds : σ → MemorySink → Prop) : Prop where
  write : ∀ {s m}, holds s m → ∀ r,
    (L (.write r) k s).1 = .ok () ∧ holds (L (.write r) k s).2 (m.write r)
  close : ∀ {s m}, holds s m → (L .close k s).1 = .ok () ∧ holds (L .close k s).2 m
  /-- Calls at other leaves are none of its business. -/
  others : ∀ {s m j}, j ≠ k → holds s m → ∀ c, holds (L c j s).2 m

/-- The records that are written to a leaf in a history, in order. -/
def recordsAt (k : Nat) (history : List (Nat × Call)) : List Record :=
  history.filterMap fun e =>
    match e with
    | (j, .write r) => if j = k then some r else none
    | (_, .close) => none

theorem recordsAt_append (k : Nat) (history history' : List (Nat × Call)) :
    recordsAt k (history ++ history') = recordsAt k history ++ recordsAt k history' :=
  List.filterMap_append

variable {L} {k : Nat} {holds : σ → MemorySink → Prop} {s : σ} {m : MemorySink}

/-- A call at a leaf adds its record, if it is this one. -/
theorem IsMemory.step (hk : IsMemory L k holds) (hs : holds s m) (c : Call) (j : Nat) :
    holds (L c j s).2 ⟨m.records ++ recordsAt k [(j, c)]⟩ := by
  by_cases hj : j = k
  · subst hj
    cases c with
    | write r => simpa [recordsAt, MemorySink.write] using (hk.write hs r).2
    | close => simpa [recordsAt] using (hk.close hs).2
  · cases c with
    | write r => simpa [recordsAt, hj] using hk.others hj hs (.write r)
    | close => simpa [recordsAt] using hk.others hj hs .close

/-- A call at leaves in a row adds its record as often as this leaf is among them. -/
theorem IsMemory.after (hk : IsMemory L k holds) (hs : holds s m) (c : Call) (ks : List Nat) :
    holds (L.after c ks s) ⟨m.records ++ recordsAt k (ks.map fun j => (j, c))⟩ := by
  induction ks generalizing s m with
  | nil => simpa [Leaves.after, recordsAt] using hs
  | cons j ks ih =>
    have hcons : (j :: ks).map (fun j => (j, c)) = [(j, c)] ++ ks.map fun j => (j, c) := rfl
    rw [hcons, recordsAt_append, ← List.append_assoc]
    exact ih (hk.step hs c j)

/-- After calls at a tree the leaf has the records that reached it besides those that it had. -/
theorem IsMemory.run (hk : IsMemory L k holds) (t : SinkTree) (calls : List Call) (hs : holds s m)
    (history : List (Nat × Call)) : ∃ more,
      (t.run L.recorded calls (s, history)).2.2 = history ++ more ∧
      holds (t.run L calls s).2 ⟨m.records ++ recordsAt k more⟩ := by
  induction calls generalizing s m history with
  | nil => exact ⟨[], by simp [SinkTree.run], by simpa [SinkTree.run, recordsAt] using hs⟩
  | cons c calls ih =>
    obtain ⟨result, reached, -, hcall, hrecorded⟩ := served_call L t c s history
    obtain ⟨more, hmore, hholds⟩ := ih (hk.after hs c reached)
      (history ++ reached.map fun j => (j, c))
    refine ⟨(reached.map fun j => (j, c)) ++ more, ?_, ?_⟩
    · simp only [SinkTree.run, hrecorded, hmore, List.append_assoc]
    · simp only [SinkTree.run, hcall, recordsAt_append, ← List.append_assoc]
      exact hholds

end SinkTree

/-! ## Reading -/

namespace Site

open SinkTree

/-- The sinks of a site as leaves. -/
def leaves : Leaves Site SinkFault
  | .write r => writeSink r
  | .close => closeSink

/-- What is asked of a tree at a site is a call with the sinks of the site as leaves. -/
theorem call_leaves (s : Site) (t : SinkTree) :
    (∀ r, s.write t r = t.call leaves (.write r) s) ∧ s.close t = t.call leaves .close s :=
  ⟨fun _ => rfl, rfl⟩

variable {s : Site} {k : Nat}

end Site

namespace SinkTree

end SinkTree

end Logwire
