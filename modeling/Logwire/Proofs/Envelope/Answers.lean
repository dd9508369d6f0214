import Logwire.Envelope.Reply
import Logwire.Proofs.Json.Room
import Logwire.Proofs.Text.Octets

/-!
# Logwire.Proofs.Envelope.Answers

What a reply is taken for.

A body is an envelope, is refused as an error, or overwhelms the reader.  It
overwhelms by an integer of too many digits, by values too deep within each
other, and by an infinite number where an integer belongs (`Envelope.Overflows`).
`envelopeWithin_answered` names the four outcomes, and
`envelopeWithin_eq_error_iff` says when there is no envelope.

With room for every octet of the body nothing in it is too deep:
`not_tooDeep_of_room`.
-/

namespace Logwire

/-! ## Infinite numbers -/

/-- The member of that name is an infinite number. -/
def InfiniteAt (ms : List (String × Json)) (name : String) : Prop :=
  ∃ negative, Members.find? ms name = some (.num (.infinite negative))

/-- Only an infinite number is beyond the range of the integers. -/
theorem Json.eq_infinite_of_toInteger {v : Json} {e : CoercionFault} (h : v.toInteger = .error e)
    (hrange : e.isRange = true) : ∃ negative, v = .num (.infinite negative) := by
  cases v with
  | num x =>
    cases x with
    | infinite negative => exact ⟨negative, rfl⟩
    | nan =>
      obtain rfl := Except.error.inj h
      contradiction
    | finite => contradiction
  | str s =>
    simp only [toInteger, integerOfText] at h
    split at h
    · contradiction
    · obtain rfl := Except.error.inj h
      contradiction
    · obtain rfl := Except.error.inj h
      contradiction
  | bool => contradiction
  | int => contradiction
  | null | arr | obj =>
    obtain rfl := Except.error.inj h
    contradiction

/-! ## Pages -/

namespace Pagination

/-- The first of the numbers of a page that is no integer is infinite. -/
inductive Overflows (ms : List (String × Json)) : Prop where
  | count (infinite : InfiniteAt ms "count")
  | page {count : Int} (counted : integerOr ms "count" 0 = .ok count)
      (infinite : InfiniteAt ms "page")
  | perPage {count page : Int} (counted : integerOr ms "count" 0 = .ok count)
      (placed : integerOr ms "page" 0 = .ok page) (infinite : InfiniteAt ms "perPage")

theorem integerOr_of_infiniteAt {ms : List (String × Json)} {name : String} (d : Int)
    (h : InfiniteAt ms name) : integerOr ms name d = .error (.number .infinityToInteger) := by
  obtain ⟨negative, hfind⟩ := h
  simp only [integerOr, hfind]
  rfl

/-- Only infinity is out of range. -/
theorem infiniteAt_of_integerOr {ms : List (String × Json)} {name : String} {d : Int} {e : Fault}
    (h : integerOr ms name d = .error e) (hrange : e.isRange = true) : InfiniteAt ms name := by
  unfold integerOr at h
  split at h
  · contradiction
  · next fault heq =>
    obtain rfl := Except.error.inj h
    obtain ⟨negative, hvalue⟩ := Json.eq_infinite_of_toInteger heq hrange
    refine ⟨negative, ?_⟩
    cases hfind : Members.find? ms name with
    | none =>
      rw [hfind] at hvalue
      contradiction
    | some v =>
      rw [hfind] at hvalue
      rw [← hvalue]
      rfl

/-- A page that overflows is no page, because of a number beyond the integers. -/
theorem Overflows.ofJson {ms : List (String × Json)} (h : Overflows ms) :
    Pagination.ofJson (.obj ms) = .error (.number .infinityToInteger) := by
  unfold Pagination.ofJson
  cases h with
  | count infinite =>
    simp only [integerOr_of_infiniteAt _ infinite]
    rfl
  | page counted infinite =>
    simp only [counted, integerOr_of_infiniteAt _ infinite]
    rfl
  | perPage counted placed infinite =>
    simp only [counted, placed, integerOr_of_infiniteAt _ infinite]
    rfl

/-- A sort order is a word, and no word is out of range. -/
theorem isRange_eq_false_of_orderOfJson {v : Json} {e : Fault} (h : orderOfJson v = .error e) :
    e.isRange = false := by
  unfold orderOfJson at h
  split at h
  · split at h
    · contradiction
    · obtain rfl := Except.error.inj h
      rfl
  · obtain rfl := Except.error.inj h
    rfl

/-- No other number is beyond the integers. -/
theorem overflows_of_ofJson {v : Json} {e : Fault} (h : Pagination.ofJson v = .error e)
    (hrange : e.isRange = true) : ∃ ms, v = .obj ms ∧ Overflows ms := by
  unfold Pagination.ofJson at h
  split at h
  · next ms =>
    refine ⟨ms, rfl, ?_⟩
    simp only [bind, Except.bind] at h
    split at h
    · next heq =>
      obtain rfl := Except.error.inj h
      exact .count (infiniteAt_of_integerOr heq hrange)
    · next counted =>
      split at h
      · next heq =>
        obtain rfl := Except.error.inj h
        exact .page counted (infiniteAt_of_integerOr heq hrange)
      · next placed =>
        split at h
        · next heq =>
          obtain rfl := Except.error.inj h
          exact .perPage counted placed (infiniteAt_of_integerOr heq hrange)
        · split at h
          · next heq =>
            obtain rfl := Except.error.inj h
            rw [isRange_eq_false_of_orderOfJson heq] at hrange
            contradiction
          · contradiction
  · obtain rfl := Except.error.inj h
    contradiction

end Pagination

/-! ## Envelopes -/

namespace Envelope

/-- The first part of an envelope that cannot be read has an infinite number for an integer: the
status, the page, or in turn the envelope behind it. -/
inductive Overflows : Json → Prop where
  | status {ms : List (String × Json)} (infinite : InfiniteAt ms "statusCode") :
      Overflows (.obj ms)
  | pagination {ms page : List (String × Json)} {status : Int}
      (numbered : statusOfMembers ms = .ok status)
      (paged : Json.member ms "pagination" = .obj page) (overflows : Pagination.Overflows page) :
      Overflows (.obj ms)
  | inner {ms : List (String × Json)} {status : Int} {page : Option Pagination}
      (numbered : statusOfMembers ms = .ok status)
      (paged : paginationOfJson (Json.member ms "pagination") = .ok page)
      (overflows : Overflows (Json.member ms "inner")) : Overflows (.obj ms)

/-- A value that overflows is no envelope, because of a number beyond the integers. -/
theorem Overflows.ofJson {v : Json} (h : Overflows v) :
    ∃ e, Envelope.ofJson v = .error e ∧ e.isRange = true := by
  induction h with
  | status infinite =>
    obtain ⟨negative, hfind⟩ := infinite
    rw [Envelope.ofJson]
    simp only [statusOfMembers, hfind]
    exact ⟨.statusRange .infinityToInteger, rfl, rfl⟩
  | pagination numbered paged overflows =>
    rw [Envelope.ofJson]
    simp only [numbered, paged, paginationOfJson, overflows.ofJson]
    exact ⟨_, rfl, rfl⟩
  | inner numbered paged overflows ih =>
    obtain ⟨e, he, hrange⟩ := ih
    rw [Envelope.ofJson]
    simp only [numbered, paged]
    split
    · next hnull =>
      rw [hnull] at overflows
      contradiction
    · rw [he]
      exact ⟨e, rfl, hrange⟩

/-- A status that is out of range is infinite. -/
theorem infiniteAt_of_statusOfMembers {ms : List (String × Json)} {e : Fault}
    (h : statusOfMembers ms = .error e) (hrange : e.isRange = true) :
    InfiniteAt ms "statusCode" := by
  unfold statusOfMembers at h
  split at h
  · obtain rfl := Except.error.inj h
    contradiction
  · next v hfind =>
    split at h
    · contradiction
    · next fault heq =>
      split at h
      · next hfault =>
        obtain ⟨negative, rfl⟩ := Json.eq_infinite_of_toInteger heq hfault
        exact ⟨negative, hfind⟩
      · obtain rfl := Except.error.inj h
        contradiction

/-- A pagination out of range is an object with an infinite number. -/
theorem overflows_of_paginationOfJson {v : Json} {e : Fault} (h : paginationOfJson v = .error e)
    (hrange : e.isRange = true) : ∃ ms, v = .obj ms ∧ Pagination.Overflows ms := by
  unfold paginationOfJson at h
  split at h
  · contradiction
  · split at h
    · contradiction
    · next heq =>
      obtain rfl := Except.error.inj h
      exact Pagination.overflows_of_ofJson heq hrange

/-- No other value is beyond the integers. -/
theorem overflows_of_ofJson {v : Json} {e : Fault} (h : Envelope.ofJson v = .error e)
    (hrange : e.isRange = true) : Overflows v := by
  fun_induction Envelope.ofJson v with
  | case1 ms e' heq =>
    obtain rfl := Except.error.inj h
    exact .status (infiniteAt_of_statusOfMembers heq hrange)
  | case2 ms status numbered e' heq =>
    obtain rfl := Except.error.inj h
    obtain ⟨page, paged, overflows⟩ := overflows_of_paginationOfJson heq hrange
    exact .pagination numbered paged overflows
  | case3 => contradiction
  | case4 ms status numbered page paged e' _ heq ih =>
    obtain rfl := Except.error.inj h
    exact .inner numbered paged (ih heq)
  | case5 => contradiction
  | case6 =>
    obtain rfl := Except.error.inj h
    contradiction

end Envelope

/-! ## Replies -/

namespace Reply

variable {room : Nat} {r : Reply}

/-- The body of a reply is JSON text of an envelope that repeats the status. -/
inductive Repeats (room : Nat) (r : Reply) (e : Envelope) : Prop where
  | intro {text : List Char} {v : Json} (decoded : Text.decode r.body = .ok text)
      (read : Json.parseWithin room text = .ok v) (envelope : Envelope.ofJson v = .ok e)
      (status : e.status = r.status)

/-- The body of a reply cannot be read although it may be JSON text. -/
inductive Overwhelms (room : Nat) (r : Reply) : Fault → Prop where
  | digits {text : List Char} {e : Json.ParseFault} {count : Nat}
      (decoded : Text.decode r.body = .ok text) (unread : Json.parseWithin room text = .error e)
      (cause : e.cause = .tooManyDigits count) : Overwhelms room r (.tooManyDigits count)
  | depth {text : List Char} {e : Json.ParseFault} {container : Json.Container}
      (decoded : Text.decode r.body = .ok text) (unread : Json.parseWithin room text = .error e)
      (cause : e.cause = .tooDeep container) : Overwhelms room r (.tooDeep container)
  | number {text : List Char} {v : Json} {e : Envelope.Fault}
      (decoded : Text.decode r.body = .ok text) (read : Json.parseWithin room text = .ok v)
      (overflows : Envelope.Overflows v) (fault : Envelope.ofJson v = .error e) :
      Overwhelms room r (.field e)

/-- The outcomes of a reply. -/
inductive Answered (room : Nat) (r : Reply) : Except Fault Envelope → Prop where
  /-- There is no body. -/
  | status (empty : r.body = []) : Answered room r (.ok { status := r.status })
  /-- The body is an envelope with the same status. -/
  | envelope {e : Envelope} (repeats : r.Repeats room e) : Answered room r (.ok e)
  /-- The body is anything else. -/
  | refused (given : r.body ≠ []) (other : ∀ e, ¬ r.Repeats room e)
      (readable : ∀ f, ¬ r.Overwhelms room f) (message : String) :
      Answered room r (.ok (.ofError message))
  /-- The body overwhelms the reader. -/
  | fault {f : Fault} (overwhelms : r.Overwhelms room f) : Answered room r (.error f)

/-- Among the values only objects are envelopes. -/
theorem exists_obj_of_ofJson {v : Json} {e : Envelope} (h : Envelope.ofJson v = .ok e) :
    ∃ ms, v = .obj ms := by
  cases v with
  | obj ms => exact ⟨ms, rfl⟩
  | _ =>
    rw [Envelope.ofJson.eq_def] at h
    contradiction

theorem parseWithin_nil (room : Nat) :
    ∃ e, Json.parseWithin room [] = .error e ∧ e.cause = .value := by
  have hread : Json.readValue room (Json.skip []) = .error ⟨.value, 0⟩ := by
    rw [Json.readValue.eq_def]
    rfl
  refine ⟨Json.ReadFault.locate [] ⟨.value, 0⟩, ?_, rfl⟩
  rw [Json.parseWithin, Json.readDocument, hread]

/-- A reply is taken for what its text is taken for, unless the text lacks a value, as it does
where there is no body. -/
theorem envelopeWithin_of_decode {text : List Char} (decoded : Text.decode r.body = .ok text)
    (h : ∀ e, Json.parseWithin room text = .error e → e.cause ≠ .value) :
    r.envelopeWithin room = envelopeOfText room r.status text := by
  have hgiven : r.body.isEmpty = false := by
    cases hbody : r.body with
    | nil =>
      rw [hbody] at decoded
      have htext : text = [] := List.eq_nil_of_length_eq_zero
        (Nat.le_zero.mp (Text.length_decode_le decoded))
      obtain ⟨e, he, hcause⟩ := parseWithin_nil room
      exact absurd hcause (h e (htext ▸ he))
    | cons => rfl
  unfold envelopeWithin
  simp only [hgiven, decoded]
  rfl

/-- An envelope that repeats the status is what the reply is taken for. -/
theorem Repeats.envelopeWithin {e : Envelope} (h : r.Repeats room e) :
    r.envelopeWithin room = .ok e := by
  obtain ⟨decoded, read, envelope, status⟩ := h
  obtain ⟨ms, rfl⟩ := exists_obj_of_ofJson envelope
  rw [envelopeWithin_of_decode decoded fun _ unread => by rw [read] at unread; contradiction]
  simp only [envelopeOfText, read, envelopeOfJson, envelope, status, if_true]

/-- A body that overwhelms the reader gives no envelope. -/
theorem Overwhelms.envelopeWithin {f : Fault} (h : r.Overwhelms room f) :
    r.envelopeWithin room = .error f := by
  cases h with
  | digits decoded unread cause | depth decoded unread cause =>
    rw [envelopeWithin_of_decode decoded fun e he hvalue => by
      rw [unread] at he
      rw [← Except.error.inj he, cause] at hvalue
      contradiction]
    simp only [envelopeOfText, unread, cause]
  | number decoded read overflows fault =>
    rw [envelopeWithin_of_decode decoded fun _ unread => by rw [read] at unread; contradiction]
    obtain ⟨e, he, hrange⟩ := overflows.ofJson
    obtain rfl := Except.error.inj (fault.symm.trans he)
    cases overflows <;> simp only [envelopeOfText, read, envelopeOfJson, fault, hrange, if_true]

/-- A body that gives no envelope overwhelms the reader. -/
theorem overwhelms_of_envelopeWithin {f : Fault} (h : r.envelopeWithin room = .error f) :
    r.Overwhelms room f := by
  unfold Reply.envelopeWithin at h
  split at h
  · contradiction
  · split at h
    · contradiction
    · next text decoded =>
      unfold envelopeOfText at h
      split at h
      · next v read =>
        unfold envelopeOfJson at h
        split at h
        · split at h
          · next ms e he =>
            split at h
            · next hrange =>
              obtain rfl := Except.error.inj h
              exact .number decoded read (Envelope.overflows_of_ofJson he hrange) he
            · contradiction
          · split at h
            · contradiction
            · contradiction
        · contradiction
      · next e unread =>
        split at h
        · next cause =>
          obtain rfl := Except.error.inj h
          exact .digits decoded unread cause
        · next cause =>
          obtain rfl := Except.error.inj h
          exact .depth decoded unread cause
        · contradiction

/-- There is no envelope exactly if the body overwhelms the reader. -/
theorem envelopeWithin_eq_error_iff {f : Fault} :
    r.envelopeWithin room = .error f ↔ r.Overwhelms room f :=
  ⟨overwhelms_of_envelopeWithin, Overwhelms.envelopeWithin⟩

/-- An envelope that does not come of the status alone or of the body reports an error. -/
theorem envelopeWithin_eq_ok {e : Envelope} (h : r.envelopeWithin room = .ok e) :
    r.body = [] ∧ e = { status := r.status } ∨ r.Repeats room e ∨
      ∃ message, e = .ofError message := by
  unfold Reply.envelopeWithin at h
  split at h
  · next hempty => exact .inl ⟨List.isEmpty_iff.mp hempty, (Except.ok.inj h).symm⟩
  · refine .inr ?_
    split at h
    · exact .inr ⟨_, (Except.ok.inj h).symm⟩
    · next text decoded =>
      unfold envelopeOfText at h
      split at h
      · next v read =>
        unfold envelopeOfJson at h
        split at h
        · split at h
          · split at h
            · contradiction
            · exact .inr ⟨_, (Except.ok.inj h).symm⟩
          · next e' he =>
            split at h
            · next hstatus =>
              obtain rfl := Except.ok.inj h
              exact .inl ⟨decoded, read, he, hstatus⟩
            · exact .inr ⟨_, (Except.ok.inj h).symm⟩
        · exact .inr ⟨_, (Except.ok.inj h).symm⟩
      · split at h
        · contradiction
        · contradiction
        · exact .inr ⟨_, (Except.ok.inj h).symm⟩

/-- The status of the envelope is that of the reply. -/
theorem Repeats.status {e : Envelope} (h : r.Repeats room e) : e.status = r.status := by
  obtain ⟨_, _, _, status⟩ := h
  exact status

/-- A reply without a body is taken for its status. -/
theorem envelopeWithin_of_nil (room : Nat) (h : r.body = []) :
    r.envelopeWithin room = .ok { status := r.status } := by
  rw [envelopeWithin, h]
  rfl

/-- Every reply has one of the four outcomes. -/
theorem envelopeWithin_answered (room : Nat) (r : Reply) :
    r.Answered room (r.envelopeWithin room) := by
  by_cases hempty : r.body = []
  · rw [envelopeWithin_of_nil room hempty]
    exact .status hempty
  by_cases hrepeats : ∃ e, r.Repeats room e
  · obtain ⟨e, hrepeats⟩ := hrepeats
    rw [hrepeats.envelopeWithin]
    exact .envelope hrepeats
  cases h : r.envelopeWithin room with
  | error f => exact .fault (overwhelms_of_envelopeWithin h)
  | ok e =>
    rcases envelopeWithin_eq_ok h with ⟨hbody, -⟩ | hrepeats' | ⟨message, rfl⟩
    · exact absurd hbody hempty
    · exact absurd ⟨e, hrepeats'⟩ hrepeats
    · refine .refused hempty (not_exists.mp hrepeats) (fun f hf => ?_) message
      have := hf.envelopeWithin
      rw [h] at this
      contradiction

/-- With room for every octet no value is too deep. -/
theorem not_tooDeep_of_room (h : r.body.length ≤ room) (container : Json.Container) :
    ¬ r.Overwhelms room (.tooDeep container) := by
  intro hdeep
  cases hdeep with
  | depth decoded unread cause =>
    have hfits := Json.parseWithin_fits (Nat.le_trans (Text.length_decode_le decoded) h) unread
    rw [cause] at hfits
    contradiction

end Reply

end Logwire
