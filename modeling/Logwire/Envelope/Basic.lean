import Logwire.Envelope.Pagination

/-!
# Logwire.Envelope.Basic

The envelope that services answer with: a status, and optionally a payload with
its type and paging, a message, an origin, metadata, and the envelope of an
answer that lies behind this one.

What is absent is null and left out of the JSON form.
-/

namespace Logwire

/-- An envelope. -/
structure Envelope where
  status : Int
  type : Json := .null
  data : Json := .null
  pagination : Option Pagination := none
  message : Json := .null
  origin : Json := .null
  inner : Option Envelope := none
  metadata : Json := .null

namespace Envelope

def isErrorStatus (status : Int) : Bool := 400 ≤ status && status ≤ 599

def isError (e : Envelope) : Bool := isErrorStatus e.status

/-- The status of an error of the service itself. -/
def internalError : Int := 500

/-- An envelope for an error that has a text only. -/
def ofError (text : String) : Envelope := { status := internalError, message := .str text }

/-! ## Writing -/

/-- A member that is left out when it is null. -/
def optionalMember (name : String) (v : Json) : List (String × Json) :=
  match v with
  | .null => []
  | _ => [(name, v)]

/-- The paging of an envelope as a member. -/
def paginationMember : Option Pagination → List (String × Json)
  | none => []
  | some p => [("pagination", p.toJson)]

mutual

def toJson : Envelope → Json
  | ⟨status, type, data, pagination, message, origin, inner, metadata⟩ =>
    .obj (("statusCode", .int status) :: optionalMember "type" type ++ optionalMember "data" data
      ++ paginationMember pagination ++ optionalMember "message" message
      ++ optionalMember "origin" origin ++ innerMember inner ++ optionalMember "metadata" metadata)

/-- The envelope behind an envelope as a member. -/
def innerMember : Option Envelope → List (String × Json)
  | none => []
  | some e => [("inner", toJson e)]

end

/-! ## Reading -/

/-- Why a value is no envelope. -/
inductive Fault where
  | notObject (kind : String)
  | noStatus
  /-- The status is beyond the range of integers. -/
  | statusRange (fault : CoercionFault)
  | pagination (fault : Pagination.Fault)
  deriving DecidableEq, Repr

def Fault.message : Fault → String
  | .notObject kind => "response must be a JSON object, got " ++ kind
  | .noStatus => "response has no valid statusCode"
  | .statusRange e => e.message
  | .pagination e => e.message

/-- A number beyond the range of integers, as opposed to a value of the wrong form. -/
def Fault.isRange : Fault → Bool
  | .statusRange _ => true
  | .pagination e => e.isRange
  | _ => false

/-- A member is smaller than its object. -/
theorem sizeOf_member_lt (ms : List (String × Json)) (name : String) :
    sizeOf (Json.member ms name) < sizeOf (Json.obj ms) := by
  unfold Json.member
  induction ms with
  | nil => simp [Members.find?]
  | cons m rest ih =>
    obtain ⟨n, v⟩ := m
    by_cases h : n = name
    · simp [Members.find?, h]
      omega
    · simp only [Members.find?, h, if_false, Json.obj.sizeOf_spec, List.cons.sizeOf_spec] at ih ⊢
      omega

def statusOfMembers (ms : List (String × Json)) : Except Fault Int :=
  match Members.find? ms "statusCode" with
  | none => .error .noStatus
  | some v =>
    match v.toInteger with
    | .ok i => .ok i
    | .error e => if e.isRange then .error (.statusRange e) else .error .noStatus

def paginationOfJson (v : Json) : Except Fault (Option Pagination) :=
  match v with
  | .null => .ok none
  | _ =>
    match Pagination.ofJson v with
    | .ok p => .ok (some p)
    | .error e => .error (.pagination e)

def ofJson (v : Json) : Except Fault Envelope :=
  match v with
  | .obj ms =>
    match statusOfMembers ms with
    | .error e => .error e
    | .ok status =>
      match paginationOfJson (Json.member ms "pagination") with
      | .error e => .error e
      | .ok pagination =>
        let outer : Envelope := {
          status := status
          type := Json.member ms "type"
          data := Json.member ms "data"
          pagination := pagination
          message := Json.member ms "message"
          origin := Json.member ms "origin"
          metadata := Json.member ms "metadata"
        }
        match _h : Json.member ms "inner" with
        | .null => .ok outer
        | w =>
          match ofJson w with
          | .error e => .error e
          | .ok inner => .ok { outer with inner := some inner }
  | _ => .error (.notObject v.kind)
  termination_by sizeOf v
  decreasing_by
    have := sizeOf_member_lt ms "inner"
    simp_all

end Envelope

end Logwire
