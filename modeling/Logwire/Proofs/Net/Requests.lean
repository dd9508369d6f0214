import Logwire.Net.Http

/-!
# Logwire.Proofs.Net.Requests

Requests that are sent one after the other.

What comes of them and the network after them are told apart: `outcomes` and
`afterRequests`.  Both follow the requests that were sent before, and each
request is on record once, in order: `events_afterRequests`.
-/

namespace Logwire

namespace Http

/-- What comes of requests in a row. -/
def outcomes (h : Http) : List Request → List (Except TransportFault Reply)
  | [] => []
  | r :: rest => (h.request r).1 :: outcomes (h.request r).2 rest

/-- The network after requests in a row. -/
def afterRequests (h : Http) (rs : List Request) : Http := rs.foldl (fun h r => (h.request r).2) h

/-- Requests behind others meet the network that those have left. -/
theorem outcomes_append (h : Http) (rs rs' : List Request) :
    h.outcomes (rs ++ rs') = h.outcomes rs ++ (h.afterRequests rs).outcomes rs' := by
  induction rs generalizing h with
  | nil => rfl
  | cons r rs ih => exact congrArg _ (ih (h.request r).2)

/-- The requests are put on record in order. -/
theorem events_afterRequests (h : Http) (rs : List Request) :
    (h.afterRequests rs).events = h.events ++ rs.map .requested := by
  induction rs generalizing h with
  | nil => exact (List.append_nil _).symm
  | cons r rs ih =>
    have hcons : h.afterRequests (r :: rs) = (h.request r).2.afterRequests rs := rfl
    rw [hcons, ih, events_request, List.append_assoc]
    rfl

end Http

end Logwire
