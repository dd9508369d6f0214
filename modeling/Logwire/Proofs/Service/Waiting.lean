import Logwire.Proofs.Net.Requests
import Logwire.Service.Wait
import Mathlib.Logic.Function.Iterate

/-!
# Logwire.Proofs.Service.Waiting

How waiting for a service ends, and when.

Waiting is a row of probes.  A probe is one request; between two of them there
is one pause,

```
probe 0, pause, probe 1, pause, ..., probe n
```

`beforeProbe` and `afterProbe` are the network around a probe of that row.
`Waited` says that a wait ends right after probe `n`: the probes before it were
unsuccessful and early, and it was not both.  The pauses alone use up the time
after twenty of them, so that is the most there can be: `waitAt_ends`.
-/

namespace Logwire

/-! ## Probes in a row -/

namespace Http

/-- The network after a request for the resource and the pause behind it. -/
def askAndPause (url : String) (h : Http) : Http := (h.request (.get url)).2.sleep waitPause

/-- The network in front of the probe of this number, counted from zero. -/
def beforeProbe (h : Http) (url : String) (n : Nat) : Http := (askAndPause url)^[n] h

def afterProbe (h : Http) (url : String) (n : Nat) : Http :=
  ((h.beforeProbe url n).request (.get url)).2

def probed (h : Http) (url : String) (n : Nat) : Except TransportFault Reply :=
  ((h.beforeProbe url n).request (.get url)).1

variable (h : Http) (url : String) (n : Nat)

theorem beforeProbe_succ : h.beforeProbe url (n + 1) = (h.afterProbe url n).sleep waitPause :=
  Function.iterate_succ_apply' _ _ _

/-- No probe starts before the pauses in front of it are over. -/
theorem clock_le_beforeProbe : h.clock + n * waitPause ≤ (h.beforeProbe url n).clock := by
  induction n with
  | zero => exact Nat.le_of_eq (by simp [beforeProbe])
  | succ n ih =>
    have hrequest := (h.beforeProbe url n).clock_le_request (.get url)
    have hsleep : (h.beforeProbe url (n + 1)).clock = (h.afterProbe url n).clock + waitPause := by
      rw [beforeProbe_succ]
      rfl
    rw [hsleep, Nat.succ_mul, afterProbe]
    omega

/-- A probe is on record once, behind those before it. -/
theorem events_afterProbe :
    (h.afterProbe url n).events = h.events ++ List.replicate (n + 1) (.requested (.get url)) := by
  have hbefore : (h.beforeProbe url n).events =
      h.events ++ List.replicate n (.requested (.get url)) := by
    induction n with
    | zero => simp [beforeProbe]
    | succ n ih =>
      rw [beforeProbe_succ, sleep, afterProbe, events_request, ih, List.replicate_succ',
        List.append_assoc]
  rw [afterProbe, events_request, hbefore, List.replicate_succ', List.append_assoc]

end Http

/-! ## Probes one by one -/

namespace Condition

/-- The outcome of a probe meets the condition: the status 200, or no answer. -/
def Met : Condition → Except TransportFault Reply → Prop
  | .alive, outcome => ∃ r, outcome = .ok r ∧ r.status = 200
  | .dead, outcome => ∃ cause text, outcome = .error (.failed cause text)

/-- The URL makes no sense, which is no matter of the service. -/
def Senseless (outcome : Except TransportFault Reply) : Prop :=
  ∃ text, outcome = .error (.invalidUrl text)

/-- A probe that was unsuccessful. -/
def Unmet (c : Condition) (outcome : Except TransportFault Reply) : Prop :=
  ¬ c.Met outcome ∧ ¬ Senseless outcome

/-- A URL without sense meets no condition. -/
theorem Met.not_senseless {c : Condition} {outcome : Except TransportFault Reply}
    (h : c.Met outcome) : ¬ Senseless outcome := by
  rintro ⟨text, rfl⟩
  cases c with
  | alive => obtain ⟨r, hr, -⟩ := h; cases hr
  | dead => obtain ⟨cause, text, hr⟩ := h; cases hr

/-- An outcome shows a condition exactly if it meets it, where the URL makes sense. -/
theorem shownBy_iff (c : Condition) {outcome : Except TransportFault Reply}
    (h : ¬ Senseless outcome) : c.shownBy outcome = true ↔ c.Met outcome := by
  match c, outcome with
  | .alive, .ok r =>
    have hmet : Condition.alive.Met (.ok r) ↔ r.status = Directory.healthyStatus := by
      simp [Met, Directory.healthyStatus]
    exact decide_eq_true_iff.trans hmet.symm
  | .alive, .error e => simp [shownBy, Met]
  | .dead, .ok r => simp [shownBy, Met]
  | .dead, .error (.failed cause text) => simp [shownBy, Met]
  | .dead, .error (.invalidUrl text) => exact absurd ⟨text, rfl⟩ h

end Condition

/-- How waiting ends with a probe, by its outcome and the time on the clock after it. -/
inductive Ended (c : Condition) (service url : String) (deadline : Nat)
    (outcome : Except TransportFault Reply) (clock : Nat) : Except WaitFault Unit → Prop where
  | met (h : c.Met outcome) : Ended c service url deadline outcome clock (.ok ())
  /-- What is no matter of the service is passed on. -/
  | senseless {text : String} (h : outcome = .error (.invalidUrl text)) :
      Ended c service url deadline outcome clock (.error (.invalidUrl text))
  | timeout (h : c.Unmet outcome) (late : deadline ≤ clock) :
      Ended c service url deadline outcome clock (.error (.timeout service url c))

namespace Ended

variable {c : Condition} {service url : String} {deadline clock : Nat}
  {outcome : Except TransportFault Reply} {result : Except WaitFault Unit}

/-- Waiting succeeds exactly if the last outcome meets the condition. -/
theorem ok_iff (h : Ended c service url deadline outcome clock result) :
    result = .ok () ↔ c.Met outcome := by
  cases h with
  | met h => exact iff_of_true rfl h
  | senseless h => exact iff_of_false nofun fun hm => hm.not_senseless ⟨_, h⟩
  | timeout h => exact iff_of_false nofun h.1

/-- It times out exactly if that does not, and the time is up. -/
theorem timeout_iff (h : Ended c service url deadline outcome clock result) :
    result = .error (.timeout service url c) ↔ c.Unmet outcome ∧ deadline ≤ clock := by
  cases h with
  | met h => exact iff_of_false nofun fun hu => hu.1.1 h
  | senseless h => exact iff_of_false nofun fun hu => hu.1.2 ⟨_, h⟩
  | timeout h late => exact iff_of_true rfl ⟨h, late⟩

/-- A URL without sense is passed on, and nothing else is. -/
theorem senseless_iff (h : Ended c service url deadline outcome clock result) (text : String) :
    result = .error (.invalidUrl text) ↔ outcome = .error (.invalidUrl text) := by
  cases h with
  | met h => exact iff_of_false nofun fun he => h.not_senseless ⟨_, he⟩
  | senseless h => simp [h]
  | timeout h => exact iff_of_false nofun fun he => h.2 ⟨_, he⟩

end Ended

/-- Waiting ends right after the probe of this number.  Those before it were unsuccessful, and over
before the deadline. -/
structure Waited (c : Condition) (service url : String) (deadline : Nat) (h : Http) (n : Nat)
    (result : Except WaitFault Unit × Http) : Prop where
  earlier : ∀ i < n, c.Unmet (h.probed url i) ∧ (h.afterProbe url i).clock < deadline
  ended : Ended c service url deadline (h.probed url n) (h.afterProbe url n).clock result.1
  network : result.2 = h.afterProbe url n

variable {c : Condition} {service url : String} {deadline : Nat} {h : Http}

/-- Waiting makes requests, and nothing else. -/
theorem Waited.events {n : Nat} {result : Except WaitFault Unit × Http}
    (hw : Waited c service url deadline h n result) :
    result.2.events = h.events ++ List.replicate (n + 1) (.requested (.get url)) := by
  rw [hw.network, h.events_afterProbe]

/-- One more unsuccessful probe in front. -/
theorem Waited.succ {n : Nat} {result : Except WaitFault Unit × Http}
    (hu : c.Unmet (h.probed url 0)) (hd : (h.afterProbe url 0).clock < deadline)
    (hw : Waited c service url deadline (h.askAndPause url) n result) :
    Waited c service url deadline h (n + 1) result where
  -- the probes behind the first are those of the network after it and its pause
  earlier i hi := by
    cases i with
    | zero => exact ⟨hu, hd⟩
    | succ i => exact hw.earlier i (by omega)
  ended := hw.ended
  network := hw.network

/-- Waiting comes to an end, with some probe as the last. -/
theorem exists_waited (c : Condition) (service url : String) (deadline : Nat) (h : Http) :
    ∃ n, Waited c service url deadline h n (waitUntil c service url deadline h) := by
  have hsenseful : ∀ {outcome : Except TransportFault Reply},
      (∀ text, outcome = .error (.invalidUrl text) → False) → ¬ Condition.Senseless outcome :=
    fun ho hs => hs.elim ho
  have hunmet : ∀ {outcome : Except TransportFault Reply},
      (∀ text, outcome = .error (.invalidUrl text) → False) → ¬ c.shownBy outcome = true →
        c.Unmet outcome :=
    fun ho hs => ⟨fun hm => hs ((c.shownBy_iff (hsenseful ho)).mpr hm), hsenseful ho⟩
  fun_induction waitUntil c service url deadline h with
  | case1 h text hr => exact ⟨0, nofun, .senseless hr, rfl⟩
  | case2 h hr hs => exact ⟨0, nofun, .met ((c.shownBy_iff (hsenseful hr)).mp hs), rfl⟩
  | case3 h hd hr hs => exact ⟨0, nofun, .timeout (hunmet hr hs) hd, rfl⟩
  | case4 h hd hr hs ih =>
    obtain ⟨n, hn⟩ := ih
    exact ⟨n + 1, hn.succ (hunmet hr hs) (Nat.not_le.mp hd)⟩

/-- The pauses in front of a probe are over before the deadline if it is not the last. -/
theorem Waited.le_twenty {n : Nat} {result : Except WaitFault Unit × Http}
    (hw : Waited c service url (h.clock + waitBudget) h n result) : n ≤ 20 := by
  by_contra hn
  have hearly := (hw.earlier 20 (by omega)).2
  have hpauses := h.clock_le_beforeProbe url 20
  have hrequest := (h.beforeProbe url 20).clock_le_request (.get url)
  unfold Http.afterProbe at hearly
  unfold waitBudget waitPause at *
  omega

/-! ## Waiting -/

namespace Directory

/-- The URL that a service is asked at. -/
def rootUrl (address : String) : String := "http://" ++ address

theorem waitAt_eq (h : Http) (c : Condition) (service address : String) :
    waitAt h c service address = waitUntil c service (rootUrl address) (h.clock + waitBudget) h := by
  have hurl : urlOf address "" = rootUrl address := by simp [urlOf, rootUrl]
  rw [waitAt, hurl]

/-- **Waiting ends after one probe at least and twenty-one at most**, with one pause between two of
them and nothing behind the last.  It succeeds exactly if the last probe does, however late that is.
It times out exactly if all probes were unsuccessful and only the last was over at the deadline. -/
theorem waitAt_ends (h : Http) (c : Condition) (service address : String) :
    ∃ n ≤ 20,
      Waited c service (rootUrl address) (h.clock + 2000) h n (waitAt h c service address) ∧
      (waitAt h c service address).2.events =
        h.events ++ List.replicate (n + 1) (.requested (.get (rootUrl address))) ∧
      (∀ i < n, h.beforeProbe (rootUrl address) (i + 1) =
        (h.afterProbe (rootUrl address) i).sleep 100) ∧
      ((waitAt h c service address).1 = .ok () ↔ c.Met (h.probed (rootUrl address) n)) ∧
      ((waitAt h c service address).1 = .error (.timeout service (rootUrl address) c) ↔
        (∀ i ≤ n, c.Unmet (h.probed (rootUrl address) i)) ∧
          (∀ i < n, (h.afterProbe (rootUrl address) i).clock < h.clock + 2000) ∧
          h.clock + 2000 ≤ (h.afterProbe (rootUrl address) n).clock) ∧
      ∀ text, (waitAt h c service address).1 = .error (.invalidUrl text) ↔
        h.probed (rootUrl address) n = .error (.invalidUrl text) := by
  obtain ⟨n, hn⟩ := exists_waited c service (rootUrl address) (h.clock + waitBudget) h
  rw [← waitAt_eq] at hn
  refine ⟨n, hn.le_twenty, hn, hn.events, fun i _ => h.beforeProbe_succ _ i, hn.ended.ok_iff, ?_,
    hn.ended.senseless_iff⟩
  rw [hn.ended.timeout_iff]
  constructor
  · rintro ⟨hlast, hlate⟩
    refine ⟨fun i hi => ?_, fun i hi => (hn.earlier i hi).2, hlate⟩
    cases Nat.lt_or_eq_of_le hi with
    | inl hlt => exact (hn.earlier i hlt).1
    | inr heq => exact heq ▸ hlast
  · exact fun ⟨hall, _, hlate⟩ => ⟨hall n (Nat.le_refl n), hlate⟩

/-- A service that never answers is asked as often as that. -/
example : (waitAt {} .alive "pz-logger" "localhost").2.events.length = 21 := by decide +kernel

end Directory

end Logwire
