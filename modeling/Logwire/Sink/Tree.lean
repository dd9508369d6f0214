/-!
# Logwire.Sink.Tree

Sinks that feed other sinks.

A tree has sinks at its leaves, each known by a number; a node passes what it
gets to its branches from left to right.  A write stops at the first leaf that
fails.  A close goes to every leaf, and the first failure is reported.

* `write_eq_writeAll`, `close_eq_closeAll` — a tree behaves as the list of its
  leaves, however it is grouped.
-/

namespace Logwire

/-- A sink, or a node over further sinks. -/
inductive SinkTree where
  | leaf (sink : Nat)
  | fan (branches : List SinkTree)
  deriving Repr

namespace SinkTree

mutual

/-- The leaves of a tree from left to right. -/
def leaves : SinkTree → List Nat
  | leaf k => [k]
  | fan branches => leavesAll branches

/-- The leaves of several trees from left to right. -/
def leavesAll : List SinkTree → List Nat
  | [] => []
  | t :: rest => leaves t ++ leavesAll rest

end

variable {σ ε : Type}

/-! ## Writing -/

mutual

/-- Write to the leaves of a tree up to the first that fails. -/
def write (leafWrite : Nat → σ → Except ε Unit × σ) : SinkTree → σ → Except ε Unit × σ
  | leaf k, s => leafWrite k s
  | fan branches, s => writeBranches leafWrite branches s

/-- Write to several trees up to the first that fails. -/
def writeBranches (leafWrite : Nat → σ → Except ε Unit × σ) :
    List SinkTree → σ → Except ε Unit × σ
  | [], s => (.ok (), s)
  | t :: rest, s =>
    match write leafWrite t s with
    | (.error e, s') => (.error e, s')
    | (.ok (), s') => writeBranches leafWrite rest s'

end

/-- Write to the sinks of a list up to the first that fails. -/
def writeAll (leafWrite : Nat → σ → Except ε Unit × σ) : List Nat → σ → Except ε Unit × σ
  | [], s => (.ok (), s)
  | k :: rest, s =>
    match leafWrite k s with
    | (.error e, s') => (.error e, s')
    | (.ok (), s') => writeAll leafWrite rest s'

/-- A write goes on to the leaves behind only if none in front fails. -/
theorem writeAll_append (leafWrite : Nat → σ → Except ε Unit × σ) (xs ys : List Nat) (s : σ) :
    writeAll leafWrite (xs ++ ys) s =
      match writeAll leafWrite xs s with
      | (.error e, s') => (.error e, s')
      | (.ok (), s') => writeAll leafWrite ys s' := by
  induction xs generalizing s with
  | nil => rfl
  | cons k xs ih =>
    simp only [List.cons_append, writeAll]
    rcases leafWrite k s with ⟨_ | _, s'⟩
    · rfl
    · exact ih s'

mutual

/-- A write reaches the leaves of a tree as it reaches their list. -/
theorem write_eq_writeAll (leafWrite : Nat → σ → Except ε Unit × σ) (t : SinkTree) (s : σ) :
    write leafWrite t s = writeAll leafWrite t.leaves s := by
  cases t with
  | leaf k =>
    simp only [write, leaves, writeAll]
    rcases leafWrite k s with ⟨_ | _, s'⟩ <;> rfl
  | fan branches =>
    simp only [write, leaves]
    exact writeBranches_eq_writeAll leafWrite branches s

/-- The same for several trees. -/
theorem writeBranches_eq_writeAll (leafWrite : Nat → σ → Except ε Unit × σ)
    (branches : List SinkTree) (s : σ) :
    writeBranches leafWrite branches s = writeAll leafWrite (leavesAll branches) s := by
  cases branches with
  | nil => rfl
  | cons t rest =>
    simp only [writeBranches, leavesAll, writeAll_append]
    rw [write_eq_writeAll leafWrite t s]
    rcases writeAll leafWrite t.leaves s with ⟨_ | _, s'⟩
    · rfl
    · exact writeBranches_eq_writeAll leafWrite rest s'

end

/-! ## Closing -/

/-- The first failure of two outcomes. -/
def firstFailure : Except ε Unit → Except ε Unit → Except ε Unit
  | .error e, _ => .error e
  | .ok (), r => r

@[simp] theorem firstFailure_ok_right (a : Except ε Unit) : firstFailure a (.ok ()) = a := by
  rcases a with _ | _ <;> rfl

/-- Which failure is the first does not depend on how they are put together. -/
theorem firstFailure_assoc (a b c : Except ε Unit) :
    firstFailure (firstFailure a b) c = firstFailure a (firstFailure b c) := by
  rcases a with _ | _ <;> rfl

mutual

def close (leafClose : Nat → σ → Except ε Unit × σ) : SinkTree → σ → Except ε Unit × σ
  | leaf k, s => leafClose k s
  | fan branches, s => closeBranches leafClose branches s

def closeBranches (leafClose : Nat → σ → Except ε Unit × σ) :
    List SinkTree → σ → Except ε Unit × σ
  | [], s => (.ok (), s)
  | t :: rest, s =>
    let first := close leafClose t s
    let others := closeBranches leafClose rest first.2
    (firstFailure first.1 others.1, others.2)

end

def closeAll (leafClose : Nat → σ → Except ε Unit × σ) : List Nat → σ → Except ε Unit × σ
  | [], s => (.ok (), s)
  | k :: rest, s =>
    let first := leafClose k s
    let others := closeAll leafClose rest first.2
    (firstFailure first.1 others.1, others.2)

/-- A close goes on to the leaves behind in any case. -/
theorem closeAll_append (leafClose : Nat → σ → Except ε Unit × σ) (xs ys : List Nat) (s : σ) :
    closeAll leafClose (xs ++ ys) s =
      (firstFailure (closeAll leafClose xs s).1
        (closeAll leafClose ys (closeAll leafClose xs s).2).1,
        (closeAll leafClose ys (closeAll leafClose xs s).2).2) := by
  induction xs generalizing s with
  | nil => rfl
  | cons k xs ih => simp only [List.cons_append, closeAll, ih, firstFailure_assoc]

mutual

/-- A close reaches the leaves of a tree as it reaches their list. -/
theorem close_eq_closeAll (leafClose : Nat → σ → Except ε Unit × σ) (t : SinkTree) (s : σ) :
    close leafClose t s = closeAll leafClose t.leaves s := by
  cases t with
  | leaf k => simp [close, leaves, closeAll]
  | fan branches =>
    simp only [close, leaves]
    exact closeBranches_eq_closeAll leafClose branches s

/-- The same for several trees. -/
theorem closeBranches_eq_closeAll (leafClose : Nat → σ → Except ε Unit × σ)
    (branches : List SinkTree) (s : σ) :
    closeBranches leafClose branches s = closeAll leafClose (leavesAll branches) s := by
  cases branches with
  | nil => rfl
  | cons t rest =>
    simp only [closeBranches, leavesAll, closeAll_append]
    rw [close_eq_closeAll leafClose t s,
      closeBranches_eq_closeAll leafClose rest (closeAll leafClose t.leaves s).2]

end

end SinkTree

end Logwire
