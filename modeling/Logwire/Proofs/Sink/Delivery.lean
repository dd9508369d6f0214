import Logwire.Proofs.Envelope.Answers
import Logwire.Proofs.Envelope.RoundTrip
import Logwire.Proofs.Net.Requests
import Logwire.Proofs.Record.Lines
import Logwire.Sink.Remote

/-!
# Logwire.Proofs.Sink.Delivery

What a sink for the logger service does with records.

A write sends one request, which carries the record, and takes the record for
delivered exactly if the reply accepts it: `write_eq` and `outcomeOf_eq_ok_iff`.
A record with an integer too long to be written is refused without a request.  A
run of writes is a row of such steps, `Delivered`, whatever came of the ones
before; its requests are the only ones it makes (`Delivered.events`).

A write fails in another way than by the answer of the service only where the
body of the reply overwhelms the reader: `answered_or_overwhelmed`.
-/

namespace Logwire

/-- A reply that confirms a record: it has no body or an envelope that repeats the status, and the
status is none of an error. -/
def Reply.Accepts (r : Reply) : Prop :=
  (r.body = [] ∨ ∃ e, r.Repeats Json.nestingLimit e) ∧ ¬ (400 ≤ r.status ∧ r.status ≤ 599)

namespace RemoteSink

variable {w : RemoteSink} {h : Http}

/-! ## Requests -/

/-- A request that posts a record to the logger service at a URL. -/
structure Carries (url : String) (q : Request) (r : Record) : Prop where
  method : q.method = "POST"
  /-- Without the slashes at its end the URL is followed by the endpoint. -/
  url : ∃ base slashes, url.toList = base ++ List.replicate slashes '/' ∧
    base.getLast? ≠ some '/' ∧ q.url.toList = base ++ "/syslog".toList
  body : ∃ text v, q.body = some text ∧ Json.parse text.toList = .ok v ∧ Record.ofJson v = .ok r

def post (w : RemoteSink) (r : Record) : Request where
  method := "POST"
  url := w.client.baseUrl ++ endpoint
  body := some r.toJson.write
  headers := some JsonClient.bodyHeaders

/-- A write sends the request that posts the record, if the record can be written. -/
theorem write_eq (w : RemoteSink) (h : Http) (r : Record) :
    w.write h r = if r.integersWritable then
        (outcomeOf (JsonClient.envelopeOf (h.request (w.post r)).1), (h.request (w.post r)).2)
      else (.error (.refused (.ofError Number.notWritableMessage)), h) := by
  cases hr : r.integersWritable with
  | true =>
    simp only [write, JsonClient.call, r.hasText_toJson, hr, if_true]
    rfl
  | false =>
    simp only [write, JsonClient.call, r.hasText_toJson, hr]
    rfl

def writeAll (w : RemoteSink) (h : Http) : List Record → List (Except Fault Unit) × Http
  | [] => ([], h)
  | r :: rs =>
    let rest := w.writeAll (w.write h r).2 rs
    ((w.write h r).1 :: rest.1, rest.2)

/-- The delivery of records to the service at a URL: their outcomes, the requests that are made,
and the network after them. -/
inductive Delivered (url : String) :
    Http → List Record → List (Except Fault Unit) → List Request → Http → Prop where
  | nil (h : Http) : Delivered url h [] [] [] h
  /-- A record is posted once, and confirmed exactly if the reply to the request accepts it. -/
  | posted {h h' : Http} {r : Record} {rs : List Record} {o : Except Fault Unit}
      {os : List (Except Fault Unit)} {q : Request} {qs : List Request}
      (written : r.integersWritable = true) (carries : Carries url q r)
      (confirmed : o = .ok () ↔ ∃ reply, (h.request q).1 = .ok reply ∧ reply.Accepts)
      (rest : Delivered url (h.request q).2 rs os qs h') :
      Delivered url h (r :: rs) (o :: os) (q :: qs) h'
  /-- A record with an integer too long to be written fails without a request. -/
  | unwritable {h h' : Http} {r : Record} {rs : List Record} {o : Except Fault Unit}
      {os : List (Except Fault Unit)} {qs : List Request} (long : r.integersWritable = false)
      (failed : o = .error (.refused (.ofError Number.notWritableMessage)))
      (rest : Delivered url h rs os qs h') :
      Delivered url h (r :: rs) (o :: os) qs h'

/-- The requests of a delivery are put on record in order, and there are no others. -/
theorem Delivered.events {url : String} {h' : Http} {rs : List Record}
    {os : List (Except Fault Unit)} {qs : List Request} (hd : Delivered url h rs os qs h') :
    h'.events = h.events ++ qs.map .requested := by
  induction hd with
  | nil h => exact (List.append_nil _).symm
  | posted _ _ _ _ ih =>
    rw [ih, Http.events_request, List.append_assoc]
    rfl
  | unwritable _ _ _ ih => exact ih

/-- There is one request for each record that can be written, in order. -/
theorem Delivered.carries {url : String} {h' : Http} {rs : List Record}
    {os : List (Except Fault Unit)} {qs : List Request} (hd : Delivered url h rs os qs h') :
    List.Forall₂ (Carries url) qs (rs.filter Record.integersWritable) := by
  induction hd with
  | nil h => exact .nil
  | posted written carries _ _ ih =>
    rw [List.filter_cons_of_pos written]
    exact .cons carries ih
  | unwritable long _ _ ih =>
    rw [List.filter_cons_of_neg (by simp [long])]
    exact ih

/-! ## Main results -/

/-- The client fails in another way than by an error envelope only where the body overwhelms the
reader. -/
theorem envelopeOf_reply_eq_error_iff {r : Reply} {f : JsonClient.Fault} :
    JsonClient.envelopeOf (.ok r) = .error f ↔
      ∃ fault, f = .reply fault ∧ r.Overwhelms Json.nestingLimit fault := by
  rw [JsonClient.envelopeOf, Reply.envelope]
  cases hr : r.envelopeWithin Json.nestingLimit with
  | ok e =>
    refine iff_of_false (fun hf => nomatch hf) ?_
    rintro ⟨fault, -, hfault⟩
    rw [hfault.envelopeWithin] at hr
    contradiction
  | error fault =>
    constructor
    · intro hf
      exact ⟨fault, (Except.error.inj hf).symm, Reply.overwhelms_of_envelopeWithin hr⟩
    · rintro ⟨fault', rfl, hfault⟩
      rw [hfault.envelopeWithin] at hr
      rw [Except.error.inj hr]

/-- A write fails like its client exactly if the client gives no envelope. -/
theorem outcomeOf_eq_client_iff {answer : Except JsonClient.Fault Envelope}
    {f : JsonClient.Fault} : outcomeOf answer = .error (.client f) ↔ answer = .error f := by
  cases answer with
  | error f' =>
    constructor
    · intro hf
      rw [Fault.client.inj (Except.error.inj hf)]
    · intro hf
      rw [Except.error.inj hf]
      rfl
  | ok e =>
    refine iff_of_false (fun hf => ?_) (fun hf => nomatch hf)
    rw [outcomeOf] at hf
    split at hf
    · exact nomatch Except.error.inj hf
    · contradiction

/-- **Every reply has an answer, unless it overwhelms the reader.**  The answer is an error envelope
unless there is no body or an envelope that repeats the status, and nothing is too deep where there
is room for every octet.  A write fails in another way than by the answer of the service only where
the body of its reply overwhelms the reader. -/
theorem answered_or_overwhelmed (room : Nat) (r : Reply) :
    r.Answered room (r.envelopeWithin room) ∧
    (∀ f, r.envelopeWithin room = .error f ↔ r.Overwhelms room f) ∧
    (r.body.length ≤ room → ∀ container, ¬ r.Overwhelms room (.tooDeep container)) ∧
    ∀ (w : RemoteSink) (h : Http) (record : Record), (h.request (w.post record)).1 = .ok r →
      ∀ f, (w.write h record).1 = .error (.client f) ↔ record.integersWritable = true ∧
        ∃ fault, f = .reply fault ∧ r.Overwhelms Json.nestingLimit fault := by
  refine ⟨r.envelopeWithin_answered room, fun f => Reply.envelopeWithin_eq_error_iff,
    Reply.not_tooDeep_of_room, fun w h record hreply f => ?_⟩
  rw [write_eq, hreply]
  cases record.integersWritable with
  | true => simp [outcomeOf_eq_client_iff, envelopeOf_reply_eq_error_iff]
  | false => simp

def infinite : Json := .obj [("statusCode", .num (.infinite false))]

/-- A logger service that answers with it. -/
def boundless : Http where
  routes := [("POST", [⟨0, .ok ⟨200, Text.octets infinite.write⟩⟩])]

theorem answered_or_overwhelmed_infinite :
    infinite.write = "\x7b\"statusCode\": Infinity\x7d" ∧
    (∀ container, ¬ Reply.Overwhelms 24 ⟨200, Text.octets infinite.write⟩ (.tooDeep container)) ∧
    Reply.envelopeWithin 24 ⟨200, Text.octets infinite.write⟩ =
      .error (.field (.statusRange .infinityToInteger)) ∧
    (write ⟨⟨"http://logs"⟩⟩ boundless .awkward).1 =
      .error (.client (.reply (.field (.statusRange .infinityToInteger)))) := by
  have hfault : Envelope.ofJson infinite = .error (.statusRange .infinityToInteger) := by
    rw [infinite, Envelope.ofJson]
    rfl
  have hoverwhelms : ∀ room, 1 ≤ room → Reply.Overwhelms room ⟨200, Text.octets infinite.write⟩
      (.field (.statusRange .infinityToInteger)) := fun room hroom =>
    .number infinite.decode_octets_write (Json.parseWithin_writeChars (by decide) hroom)
      (.status ⟨false, rfl⟩) hfault
  obtain ⟨-, hanswer, hshallow, hwrite⟩ :=
    answered_or_overwhelmed 24 ⟨200, Text.octets infinite.write⟩
  refine ⟨by decide +kernel, hshallow (by decide +kernel), ?_, ?_⟩
  · exact (hanswer _).mpr (hoverwhelms 24 (by decide))
  · refine (hwrite ⟨⟨"http://logs"⟩⟩ boundless .awkward rfl _).mpr ⟨by decide +kernel, _, rfl, ?_⟩
    exact hoverwhelms Json.nestingLimit (by decide)

end RemoteSink

end Logwire
