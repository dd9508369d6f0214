import Logwire.Logging.Handler
import Logwire.Proofs.Json.Display
import Logwire.Proofs.Logging.Origin
import Logwire.Proofs.Sink.FanOut
import Mathlib.Data.List.Forall2

/-!
# Logwire.Proofs.Logging.Accounting

What becomes of the events that a handler takes, whatever its sink is.

`Treated` has one case for each fate of an event: dropped, not made a record,
written, refused by the sink, or interrupted.  `emit_treated` says that every
event meets one of them, and which write the sink sees for it.

What is not made a record, or refused, is reported once (`Reported`).  A report
lets an error out where showing the failure comes to one, and where the template
or the arguments are too deep for the texts that it shows; nothing else raises
(`escape?_eq_some_iff`).

A row of events is a row of such steps, and to the sink it is the row of writes
of the records that are made (`emitAll_treated`).  So an event touches later
ones only by what its record does to the sink (`getElem?_emitAll`), and no leaf
is called for anything else (`mem_history_emitAll`).
-/

namespace Logwire

/-! ## Records in a row -/

namespace SinkTree

variable {σ ε : Type} (L : Leaves σ ε)

/-- How leaves take records. -/
def Leaves.writes (r : Record) : Nat → σ → Except ε Unit × σ := L (.write r)

/-- The sinks of a site take them so. -/
example : Leaves.writes Site.leaves = Site.writeSink := rfl

/-- The writes of records in a row. -/
def writesOf (rs : List Record) : List Call := rs.map .write

theorem run_append (t : SinkTree) (xs ys : List Call) (s : σ) :
    t.run L (xs ++ ys) s =
      ((t.run L xs s).1 ++ (t.run L ys (t.run L xs s).2).1, (t.run L ys (t.run L xs s).2).2) := by
  induction xs generalizing s with
  | nil => rfl
  | cons c xs ih => simp only [List.cons_append, run, ih]

variable {L} in
/-- No other leaves are reached. -/
theorem Leaves.Served.subset {s : σ} {c : Call} {ks reached : List Nat} {result : Except ε Unit}
    (h : L.Served s c ks result reached) : reached ⊆ ks := by
  cases h with
  | written | closed => exact List.Subset.refl _
  | @stopped _ front back k =>
    exact List.append_subset.mpr ⟨List.subset_append_left _ _,
      List.cons_subset.mpr ⟨by simp, List.nil_subset _⟩⟩

variable {L} in
/-- A history holds calls of the run at leaves of the tree. -/
theorem mem_history_run {t : SinkTree} {calls : List Call} {c : σ × List (Nat × Call)}
    {entry : Nat × Call} (h : entry ∈ (t.run L.recorded calls c).2.2) :
    entry ∈ c.2 ∨ entry.1 ∈ t.leaves ∧ entry.2 ∈ calls := by
  induction calls generalizing c with
  | nil => exact .inl h
  | cons first calls ih =>
    obtain ⟨result, reached, hserved, -, hcall⟩ := served_call L t first c.1 c.2
    rw [run, hcall] at h
    obtain hold | ⟨hleaf, hlater⟩ := ih h
    · obtain hold | hnew := List.mem_append.mp hold
      · exact .inl hold
      · obtain ⟨k, hk, rfl⟩ := List.mem_map.mp hnew
        exact .inr ⟨hserved.subset hk, List.mem_cons_self⟩
    · exact .inr ⟨hleaf, List.mem_cons_of_mem _ hlater⟩

end SinkTree

/-! ## Reports -/

/-- A text that is too deep is one of the two, and has more levels than there is room for. -/
theorem LogEvent.lt_levels_of_textFault? {e : LogEvent} {room : Nat}
    (h : e.textFault? room = some .tooDeep) :
    room < max e.template.levels e.argumentsValue.levels := by
  rw [textFault?, Option.or_eq_some_iff] at h
  rw [lt_max_iff]
  exact h.imp Json.lt_levels_of_textFault? fun h => Json.lt_levels_of_textFault? h.2

/-- Where all integers can be written, only the levels count. -/
theorem LogEvent.textFault?_eq {e : LogEvent} (ht : e.template.hasText = true)
    (ha : e.argumentsValue.hasText = true) (room : Nat) : e.textFault? room =
      if room < max e.template.levels e.argumentsValue.levels then some .tooDeep else none := by
  rw [textFault?, Json.textFault?_eq ht, Json.textFault?_eq ha]
  by_cases h : room < e.template.levels <;> simp [h]

/-- A report lets an error out in two cases only: showing the failure comes to one, or it is shown
and one of the texts behind it is too deep. -/
theorem Console.escape?_eq_some_iff {ε : Type} (c : Console ε) (e : LogEvent)
    (fault : Handler.HandlingFault ε) (escape : Escape) :
    c.escape? e fault = some escape ↔
      (∃ f, c.shows e fault = .failed f ∧ escape = .failure f) ∨
        c.shows e fault = .done ∧ e.textFault? c.room = some .tooDeep ∧ escape = .tooDeep := by
  unfold escape?
  cases c.shows e fault with
  | done =>
    by_cases hdeep : e.textFault? c.room = some .tooDeep <;> simp [hdeep, eq_comm]
  | lost => simp
  | failed f => simp [eq_comm]

/-- What a report comes to: it lets nothing out, or one error. -/
inductive Surroundings.Reported {ε : Type} (w : Surroundings ε) (e : LogEvent)
    (fault : Handler.HandlingFault ε) : Treatment ε → Prop where
  | quietly (stays : ∀ c, w.console = some c → c.escape? e fault = none) :
      Reported w e fault (.reported fault)
  | loudly {c : Console ε} {escape : Escape} (shown : w.console = some c)
      (escapes : c.escape? e fault = some escape) : Reported w e fault (.raised fault escape)

/-- What a report comes to is one of these. -/
theorem Surroundings.reported_report {ε : Type} (w : Surroundings ε) (e : LogEvent)
    (fault : Handler.HandlingFault ε) : w.Reported e fault (w.report e fault) := by
  unfold report
  cases hc : w.console with
  | none => exact .quietly fun c h => by rw [hc] at h; contradiction
  | some c =>
    cases hescape : c.escape? e fault with
    | none =>
      rw [Option.bind_some, hescape]
      refine .quietly fun c' h => ?_
      rw [← Option.some.inj (hc.symm.trans h), hescape]
    | some escape =>
      rw [Option.bind_some, hescape]
      exact .loudly hc hescape

/-! ## Treatments -/

section

variable {ε : Type}

def Treatment.isWritten : Treatment ε → Bool
  | .written _ => true
  | _ => false

/-- The event was reported, whatever the report let out. -/
def Treatment.isReported : Treatment ε → Bool
  | .reported _ | .raised _ _ => true
  | _ => false

/-- The event was neither written nor reported, but not dropped either. -/
def Treatment.isInterrupted : Treatment ε → Bool
  | .interrupted _ => true
  | _ => false

/-- A report counts as one, be it loud. -/
theorem Surroundings.Reported.counts {w : Surroundings ε} {e : LogEvent}
    {fault : Handler.HandlingFault ε} {t : Treatment ε} (h : w.Reported e fault t) :
    t.isWritten = false ∧ t.isReported = true ∧ t.isInterrupted = false := by
  cases h <;> exact ⟨rfl, rfl, rfl⟩

end

namespace Handler

open SinkTree

variable {σ ε : Type} (h : Handler) (p : Producer) (w : Surroundings ε)

/-- The record that the sink is given for an event, if it is given one. -/
def made? (e : LogEvent) : Option Record :=
  if e.level < h.level then none else (h.record p e).toOption

/-- The records that the sink is given for events. -/
def made (es : List LogEvent) : List Record := es.filterMap (h.made? p)

/-! ## One event -/

/-- What an event comes to: what the sink answers to its record, if it is given one, and the
treatment. -/
inductive Treated (e : LogEvent) : Option (Except ε Unit) → Treatment ε → Prop where
  | dropped (below : e.level < h.level) : Treated e none .dropped
  | unmade {fault : EventFault} {treatment : Treatment ε} (reaches : h.level ≤ e.level)
      (fails : h.record p e = .error fault)
      (reported : w.Reported e (.event fault) treatment) : Treated e none treatment
  | written {r : Record} (reaches : h.level ≤ e.level) (made : h.record p e = .ok r) :
      Treated e (some (.ok ())) (.written r)
  | refused {r : Record} {fault : ε} {treatment : Treatment ε} (reaches : h.level ≤ e.level)
      (made : h.record p e = .ok r) (error : w.isError fault = true)
      (reported : w.Reported e (.sink fault) treatment) :
      Treated e (some (.error fault)) treatment
  | interrupted {r : Record} {fault : ε} (reaches : h.level ≤ e.level)
      (made : h.record p e = .ok r) (interrupt : w.isError fault = false) :
      Treated e (some (.error fault)) (.interrupted fault)

/-- An event comes to one of these, and the sink sees the write of its record or nothing. -/
theorem emit_treated (L : Leaves σ ε) (s : σ) (e : LogEvent) :
    ∃ answer, h.Treated p w e answer (h.emit p w L.writes s e).1 ∧
      h.sink.run L (writesOf (h.made? p e).toList) s =
        (answer.toList, (h.emit p w L.writes s e).2) := by
  by_cases hlevel : e.level < h.level
  · simp only [emit, made?, if_pos hlevel]
    exact ⟨none, .dropped hlevel, rfl⟩
  · simp only [emit, made?, if_neg hlevel, handle]
    have hreaches := Int.not_lt.mp hlevel
    cases hrecord : h.record p e with
    | error fault => exact ⟨none, .unmade hreaches hrecord (w.reported_report e _), rfl⟩
    | ok r =>
      have hcall : h.sink.call L (.write r) s = h.sink.write (L.writes r) s := rfl
      simp only [Except.toOption, Option.toList, writesOf, List.map_cons, List.map_nil, run, hcall]
      rcases h.sink.write (L.writes r) s with ⟨fault | _, s'⟩
      · refine ⟨some (.error fault), ?_, rfl⟩
        cases herror : w.isError fault with
        | true =>
          simp only [herror, if_true]
          exact .refused hreaches hrecord herror (w.reported_report e _)
        | false =>
          simp only [herror, Bool.false_eq_true, if_false]
          exact .interrupted hreaches hrecord herror
      · exact ⟨some (.ok ()), .written hreaches hrecord, rfl⟩

/-- A template that is too deep makes no record, and the report of that lets an error out. -/
theorem emit_of_tooDeep {c : Console ε} {e : LogEvent}
    (leafWrite : Record → Nat → σ → Except ε Unit × σ) (s : σ) (reaches : h.level ≤ e.level)
    (deep : e.template.textFault? Json.shownLimit = some .tooDeep) (shown : w.console = some c)
    (shows : c.shows e (.event (.template (.text .tooDeep))) = .done)
    (room : e.template.textFault? c.room = some .tooDeep) :
    h.emit p w leafWrite s e = (.raised (.event (.template (.text .tooDeep))) .tooDeep, s) := by
  have hrecord : h.record p e = .error (.template (.text .tooDeep)) := by
    unfold record LogEvent.text LogEvent.message
    rw [Json.displayWithin_of_textFault? deep (by decide)]
  have hescape : c.escape? e (.event (.template (.text .tooDeep))) = some .tooDeep := by
    refine (c.escape?_eq_some_iff e _ _).mpr (.inr ⟨shows, ?_, rfl⟩)
    rw [LogEvent.textFault?, room]
    rfl
  unfold emit handle
  rw [if_neg (Int.not_lt.mpr reaches), hrecord]
  simp only [Surroundings.report, shown, Option.bind_some, hescape]

/-! ## Events in a row -/

section

variable (L : Leaves σ ε) (s : σ)

/-- Each event comes to its own, and the sink sees the writes of the records in their order. -/
theorem emitAll_treated (es : List LogEvent) :
    ∃ steps : List (Option (Except ε Unit) × Treatment ε),
      List.Forall₂ (fun e x => h.Treated p w e x.1 x.2) es steps ∧
      (h.emitAll p w L.writes s es).1 = steps.map Prod.snd ∧
      h.sink.run L (writesOf (h.made p es)) s =
        (steps.filterMap Prod.fst, (h.emitAll p w L.writes s es).2) := by
  induction es generalizing s with
  | nil => exact ⟨[], .nil, rfl, rfl⟩
  | cons e es ih =>
    obtain ⟨answer, htreated, hrun⟩ := h.emit_treated p w L s e
    obtain ⟨steps, hsteps, htreatments, hrest⟩ := ih (h.emit p w L.writes s e).2
    refine ⟨(answer, _) :: steps, .cons htreated hsteps, ?_, ?_⟩
    · rw [emitAll, htreatments]
      rfl
    · have hmade : writesOf (h.made p (e :: es)) =
          writesOf (h.made? p e).toList ++ writesOf (h.made p es) := by
        unfold made writesOf
        rw [List.filterMap_cons]
        cases h.made? p e <;> rfl
      rw [hmade, run_append, hrun, hrest, emitAll]
      cases answer <;> rfl

/-- To the sink the events are the writes of their records. -/
theorem snd_emitAll (es : List LogEvent) :
    (h.emitAll p w L.writes s es).2 = (h.sink.run L (writesOf (h.made p es)) s).2 := by
  obtain ⟨steps, -, -, hrun⟩ := h.emitAll_treated p w L s es
  rw [hrun]

/-- So an event is treated as it is by itself after the writes of the records before it. -/
theorem getElem?_emitAll (xs : List LogEvent) (e : LogEvent) (ys : List LogEvent) :
    (h.emitAll p w L.writes s (xs ++ e :: ys)).1[xs.length]? =
      some (h.emit p w L.writes (h.sink.run L (writesOf (h.made p xs)) s).2 e).1 := by
  have hlength : (h.emitAll p w L.writes s xs).1.length = xs.length := by
    obtain ⟨steps, hsteps, htreatments, -⟩ := h.emitAll_treated p w L s xs
    rw [htreatments, List.length_map, hsteps.length_eq]
  rw [emitAll_append, List.getElem?_append_right (Nat.le_of_eq hlength), hlength, Nat.sub_self,
    snd_emitAll, emitAll]
  rfl

end

/-! ## Counting -/

/-- The events that reach the level are those that are written, reported or interrupted. -/
theorem countP_of_treated {es : List LogEvent}
    {steps : List (Option (Except ε Unit) × Treatment ε)}
    (hsteps : List.Forall₂ (fun e x => h.Treated p w e x.1 x.2) es steps) :
    (steps.map Prod.snd).countP Treatment.isWritten +
      (steps.map Prod.snd).countP Treatment.isReported +
      (steps.map Prod.snd).countP Treatment.isInterrupted =
        es.countP fun e => h.level ≤ e.level := by
  induction hsteps with
  | nil => rfl
  | @cons e x _ _ htreated _ ih =>
    obtain ⟨answer, treatment⟩ := x
    simp only [List.map_cons, List.countP_cons]
    cases htreated with
    | dropped below =>
      have hbelow : ¬ h.level ≤ e.level := Int.not_le.mpr below
      simp [Treatment.isWritten, Treatment.isReported, Treatment.isInterrupted, hbelow, ← ih]
    | written reaches | interrupted reaches =>
      simp [Treatment.isWritten, Treatment.isReported, Treatment.isInterrupted, reaches, ← ih]
      omega
    | unmade reaches fails reported | refused reaches made error reported =>
      obtain ⟨hwritten, hreported, hinterrupted⟩ := reported.counts
      simp [hwritten, hreported, hinterrupted, reaches, ← ih]
      omega

/-! ## The leaves of the sink -/

section

variable (L : Leaves σ ε)

/-- Keeping a history changes nothing about one event. -/
theorem emit_recorded (e : LogEvent) (c : σ × List (Nat × Call)) :
    h.emit p w L.writes c.1 e =
      ((h.emit p w L.recorded.writes c e).1, (h.emit p w L.recorded.writes c e).2.1) := by
  unfold emit handle
  split
  · rfl
  · cases h.record p e with
    | error fault => rfl
    | ok r =>
      have hcall : h.sink.write (L.writes r) c.1 = ((h.sink.write (L.recorded.writes r) c).1,
          (h.sink.write (L.recorded.writes r) c).2.1) := call_recorded L h.sink (.write r) c
      simp only [hcall]
      rcases h.sink.write (L.recorded.writes r) c with ⟨_ | _, c'⟩ <;> rfl

/-- Keeping a history changes neither the treatments nor the state. -/
theorem emitAll_recorded (es : List LogEvent) (c : σ × List (Nat × Call)) :
    h.emitAll p w L.writes c.1 es =
      ((h.emitAll p w L.recorded.writes c es).1, (h.emitAll p w L.recorded.writes c es).2.1) := by
  induction es generalizing c with
  | nil => rfl
  | cons e es ih => simp only [emitAll, emit_recorded h p w L e c, ih]

/-- Leaves are called only for the records that are made. -/
theorem mem_history_emitAll {es : List LogEvent} {s : σ} {k : Nat} {c : Call}
    (hmem : (k, c) ∈ (h.emitAll p w L.recorded.writes (s, []) es).2.2) :
    k ∈ h.sink.leaves ∧ ∃ r ∈ h.made p es, c = .write r := by
  rw [snd_emitAll] at hmem
  obtain hnil | ⟨hk, hc⟩ := mem_history_run hmem
  · contradiction
  · obtain ⟨r, hr, rfl⟩ := List.mem_map.mp hc
    exact ⟨hk, r, hr, rfl⟩

end

/-! ## All events accounted for -/

/-- **Every event is accounted for.**  Each comes to what `Treated` says, in order, and the sink
sees the writes of the records that are made and nothing else; so those that reach the level are
written, reported or interrupted.  Only a report raises an error, where showing the failure does, or
where the template or the arguments have more levels than there is room for.  An event meets the
sink as the earlier records have left it, whatever became of them otherwise, and one without a
record reaches no leaf at all. -/
theorem accounts_for_events (L : Leaves σ ε) (s : σ) (es : List LogEvent) :
    (∃ steps : List (Option (Except ε Unit) × Treatment ε),
      List.Forall₂ (fun e x => h.Treated p w e x.1 x.2) es steps ∧
      (h.emitAll p w L.writes s es).1 = steps.map Prod.snd ∧
      h.sink.run L (writesOf (h.made p es)) s =
        (steps.filterMap Prod.fst, (h.emitAll p w L.writes s es).2)) ∧
    ((h.emitAll p w L.writes s es).1.countP Treatment.isWritten +
      (h.emitAll p w L.writes s es).1.countP Treatment.isReported +
      (h.emitAll p w L.writes s es).1.countP Treatment.isInterrupted =
        es.countP fun e => h.level ≤ e.level) ∧
    (∀ (c : Console ε) e fault escape, c.escape? e fault = some escape ↔
      (∃ f, c.shows e fault = .failed f ∧ escape = .failure f) ∨
        c.shows e fault = .done ∧ e.textFault? c.room = some .tooDeep ∧ escape = .tooDeep) ∧
    (∀ (e : LogEvent) room,
      (e.textFault? room = some .tooDeep →
        room < max e.template.levels e.argumentsValue.levels) ∧
      (e.template.hasText = true → e.argumentsValue.hasText = true →
        room < max e.template.levels e.argumentsValue.levels →
        e.textFault? room = some .tooDeep)) ∧
    (∀ xs e ys, (h.emitAll p w L.writes s (xs ++ e :: ys)).1[xs.length]? =
      some (h.emit p w L.writes (h.sink.run L (writesOf (h.made p xs)) s).2 e).1) ∧
    ((h.emitAll p w L.recorded.writes (s, []) es).1 = (h.emitAll p w L.writes s es).1 ∧
      (∀ k c, (k, c) ∈ (h.emitAll p w L.recorded.writes (s, []) es).2.2 →
        k ∈ h.sink.leaves ∧ ∃ r ∈ h.made p es, c = .write r) ∧
      ∀ e c, h.made? p e = none → (h.emit p w L.recorded.writes c e).2 = c) := by
  obtain ⟨steps, hsteps, htreatments, hrun⟩ := h.emitAll_treated p w L s es
  refine ⟨⟨steps, hsteps, htreatments, hrun⟩, ?_, Console.escape?_eq_some_iff,
    fun e room => ⟨LogEvent.lt_levels_of_textFault?, fun ht ha hroom => ?_⟩,
    h.getElem?_emitAll p w L s, ?_, fun _ _ => h.mem_history_emitAll p w L, fun e c hmade => ?_⟩
  · rw [htreatments]
    exact h.countP_of_treated p w hsteps
  · rw [LogEvent.textFault?_eq ht ha, if_pos hroom]
  · rw [h.emitAll_recorded p w L es (s, [])]
  · obtain ⟨answer, -, hstep⟩ := h.emit_treated p w L.recorded c e
    rw [hmade] at hstep
    exact (Prod.mk.inj hstep).2.symm

/-- A leaf that fails at its first call. -/
def warmingUp : Leaves Nat String := fun _ _ calls =>
  (if calls = 0 then .error "cold" else .ok (), calls + 1)

/-- A handler with two such leaves behind a node. -/
def twofold : Handler where
  sink := .fan [.leaf 0, .fan [.leaf 1]]
  application := "app"
  level := 20

/-- An event below the level, one with no time, and two others. -/
def mixedEvents : List LogEvent :=
  [{ Producer.arrival with level := 10 }, { Producer.arrival with created := .number .nan },
    Producer.arrival, Producer.arrival]

/-- A place where errors are shown, and no failure that is none. -/
def talkative : Surroundings String where
  console := some {}

/-- Of the three events that reach the level one has no time, one comes too early for the leaves,
and one is written. -/
theorem accounts_for_events_warmingUp :
    (twofold.emitAll Producer.early talkative warmingUp.writes 0 mixedEvents).1.countP
      Treatment.isWritten = 1 ∧
    (twofold.emitAll Producer.early talkative warmingUp.writes 0 mixedEvents).1.countP
      Treatment.isReported = 2 ∧
    (twofold.emit Producer.early talkative warmingUp.recorded.writes (0, [])
      { Producer.arrival with created := .number .nan }).2 = (0, []) := by
  obtain ⟨-, hcount, -, -, -, -, -, hunmade⟩ :=
    twofold.accounts_for_events Producer.early talkative warmingUp 0 mixedEvents
  have hwritten : (twofold.emitAll Producer.early talkative warmingUp.writes 0 mixedEvents).1.countP
      Treatment.isWritten = 1 := by decide
  have hinterrupted : (twofold.emitAll Producer.early talkative warmingUp.writes 0
      mixedEvents).1.countP Treatment.isInterrupted = 0 := by decide
  have hreaching : (mixedEvents.countP fun e => twofold.level ≤ e.level) = 3 := by decide
  refine ⟨hwritten, ?_, hunmade _ _ rfl⟩
  omega

/-- A handler of its own for one leaf. -/
def plain : Handler where
  sink := .leaf 0
  application := "app"

def narrow : Leaves Nat String := fun _ _ calls =>
  (if calls = 0 then .ok () else .error "full", calls + 1)

/-- An event whose template is too deep for a text. -/
def deepArrival : LogEvent := { Producer.arrival with template := Json.nestedArrays 1000 }

def timeless : LogEvent := { Producer.arrival with created := .number .nan }

/-- A report can raise an error, a failure that is no error is not reported, and an event that
would be refused is written because the one before it could not be made a record. -/
theorem not_accounts_for_deepArrival :
    plain.emit Producer.early talkative narrow.writes 0 deepArrival =
      (.raised (.event (.template (.text .tooDeep))) .tooDeep, 0) ∧
    (plain.emit Producer.early { isError := fun _ => false } narrow.writes 1 Producer.arrival).1 =
      .interrupted "full" ∧
    ((plain.emitAll Producer.early talkative narrow.writes 0
        [Producer.arrival, Producer.arrival]).1.map Treatment.isWritten = [true, false] ∧
      (plain.emitAll Producer.early talkative narrow.writes 0
        [timeless, Producer.arrival]).1.map Treatment.isWritten = [false, true]) := by
  have hdeep : deepArrival.template.textFault? Json.shownLimit = some .tooDeep := by
    refine (Json.textFault?_eq (Json.hasText_nestedArrays 1000)).trans (if_pos ?_)
    rw [Json.levels_nestedArrays]
    decide
  exact ⟨plain.emit_of_tooDeep Producer.early talkative _ 0 (by decide) hdeep rfl rfl hdeep, rfl,
    by decide, by decide⟩

end Handler

end Logwire
