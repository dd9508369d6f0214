import Logwire.Json.Coercion

/-!
# Logwire.Envelope.Pagination

Which part of a listing is asked for or given: a page number, a page size and
an order.  It is read from the members of an object or from the arguments of a
query.
-/

namespace Logwire

/-- The order of a listing. -/
inductive SortOrder where
  | ascending
  | descending
  deriving DecidableEq, Repr

def SortOrder.text : SortOrder → String
  | .ascending => "asc"
  | .descending => "desc"

def SortOrder.ofText? (s : String) : Option SortOrder :=
  if s = "asc" then some .ascending else if s = "desc" then some .descending else none

/-- A page of a listing.  Pages are counted from zero. -/
structure Pagination where
  count : Int := 0
  page : Int := 0
  perPage : Int := 10
  sortBy : String := ""
  order : SortOrder := .ascending
  deriving DecidableEq, Repr

namespace Pagination

/-- The rank of the first item of the page. -/
def startIndex (p : Pagination) : Int := p.page * p.perPage

/-- The rank after the last item of the page. -/
def endIndex (p : Pagination) : Int := p.startIndex + p.perPage

/-! ## Objects -/

def toJson (p : Pagination) : Json :=
  .obj [("count", .int p.count), ("page", .int p.page), ("perPage", .int p.perPage),
    ("sortBy", .str p.sortBy), ("order", .str p.order.text)]

/-- Why a value is no page. -/
inductive Fault where
  | notObject (kind : String)
  | number (fault : CoercionFault)
  | order (value : String)
  deriving DecidableEq, Repr

def Fault.message : Fault → String
  | .notObject kind => "pagination must be a JSON object, got " ++ kind
  | .number e => if e.isKind then "malformed pagination: " ++ e.message else e.message
  | .order value => value ++ " is not a valid PaginationOrder"

/-- A number beyond the range of integers, as opposed to a value of the wrong form. -/
def Fault.isRange : Fault → Bool
  | .number e => e.isRange
  | _ => false

def integerOr (ms : List (String × Json)) (name : String) (default : Int) : Except Fault Int :=
  match ((Members.find? ms name).getD (.int default)).toInteger with
  | .ok i => .ok i
  | .error e => .error (.number e)

def orderOfJson (v : Json) : Except Fault SortOrder :=
  match v with
  | .str s =>
    match SortOrder.ofText? s with
    | some o => .ok o
    | none => .error (.order v.literal)
  | _ => .error (.order v.literal)

/-- Reads a page; what is missing is as in a fresh one. -/
def ofJson (v : Json) : Except Fault Pagination :=
  let fresh : Pagination := {}
  match v with
  | .obj ms => do
    let count ← integerOr ms "count" fresh.count
    let page ← integerOr ms "page" fresh.page
    let perPage ← integerOr ms "perPage" fresh.perPage
    let order ← orderOfJson ((Members.find? ms "order").getD (.str fresh.order.text))
    let sortBy := ((Members.find? ms "sortBy").getD (.str fresh.sortBy)).display
    return ⟨count, page, perPage, sortBy, order⟩
  | _ => .error (.notObject v.kind)

/-! ## Queries -/

/-- The arguments of a query.  An argument may be repeated, and the first one counts. -/
abbrev Query := Members (List String)

/-- Why a query asks for no page. -/
inductive QueryFault where
  | number (name text : String)
  | order
  deriving DecidableEq, Repr

def QueryFault.message : QueryFault → String
  | .number name text => "query argument for '?" ++ name ++ "' is invalid: " ++ text
  | .order => "query argument for '?order' must be \"asc\" or \"desc\""

/-- The value of an argument; one that is empty counts as missing. -/
def argument? (q : Query) (name : String) : Option String :=
  match Members.find? q name with
  | some (s :: _) => if s = "" then none else some s
  | _ => none

def integerArgument (q : Query) (name : String) (default : Int) : Except QueryFault Int :=
  match argument? q name with
  | none => .ok default
  | some s =>
    match integerOfText s with
    | .ok i => .ok i
    | .error _ => .error (.number name s)

/-- An argument as an order, in letters of either case. -/
def orderArgument (q : Query) (default : SortOrder) : Except QueryFault SortOrder :=
  match argument? q "order" with
  | none => .ok default
  | some s =>
    match SortOrder.ofText? (String.ofList (s.toList.map Char.toLower)) with
    | some o => .ok o
    | none => .error .order

/-- The page that a query asks for; what is missing is as in the default. -/
def ofQuery (q : Query) (default : Pagination) : Except QueryFault Pagination := do
  let perPage ← integerArgument q "perPage" default.perPage
  let page ← integerArgument q "page" default.page
  let order ← orderArgument q default.order
  return ⟨default.count, page, perPage, (argument? q "sortBy").getD default.sortBy, order⟩

end Pagination

end Logwire
