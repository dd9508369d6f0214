import Logwire.Failure.Basic

/-!
# Logwire.Failure.Arguments

Making an error from a kind and arguments.

Most kinds take any arguments.  Some take a number of them with fixed meanings;
when the arguments do not fit, there is no such error, and an error that tells
so takes its place.

* `raised_of_ok` — arguments that fit make the error that is asked for.
-/

namespace Logwire

open Number

/-- How a number of arguments is bounded. -/
inductive CountBound where
  | exactly
  | atLeast
  | atMost
  deriving DecidableEq, Repr

def CountBound.text : CountBound → String
  | .exactly => "exactly"
  | .atLeast => "at least"
  | .atMost => "at most"

/-- Why arguments do not make an error. -/
inductive ArgumentFault where
  /-- A kind of this library lacks the arguments of these names. -/
  | missing (kind : String) (names : List String)
  /-- A kind of this library takes from `least` to `most` arguments. -/
  | surplus (kind : String) (least most given : Nat)
  | count (taker : String) (bound : CountBound) (limit given : Nat)
  /-- The argument at this position, counted from one, is no text. -/
  | notText (taker : String) (position : Nat) (kind : String)
  | notOctets (kind : String)
  | notInteger (kind : String)
  | integerTooLarge
  | countTooLarge
  | notIterable (kind : String)
  | noEndColumn
  | notSequence
  | emptySequence
  | notError
  deriving DecidableEq, Repr

namespace ArgumentFault

/-- Names in a row, the last after the word "and". -/
def namesText : List String → String
  | [] => ""
  | [a] => Text.quoted a
  | [a, b] => Text.quoted a ++ " and " ++ Text.quoted b
  | names =>
    ", ".intercalate (names.dropLast.map Text.quoted) ++ ", and "
      ++ Text.quoted (names.getLast?.getD "")

/-- The function that takes the arguments of a kind of this library. -/
def takerOf (kind : String) : String := kind ++ ".__init__()"

/-- The name of a kind where a text is wanted. -/
def wantedTextKind (kind : String) : String := if kind = Json.null.kind then "None" else kind

def message : ArgumentFault → String
  | missing kind names =>
    takerOf kind ++ " missing " ++ toString names.length ++ " required positional argument"
      ++ (if names.length = 1 then "" else "s") ++ ": " ++ namesText names
  | surplus kind least most given =>
    -- the error itself counts as an argument
    takerOf kind ++ " takes "
      ++ (if least = most then "" else "from " ++ toString (least + 1) ++ " to ")
      ++ toString (most + 1) ++ " positional arguments but " ++ toString (given + 1)
      ++ " were given"
  | count taker bound limit given =>
    taker ++ " takes " ++ bound.text ++ " " ++ toString limit ++ " arguments (" ++ toString given
      ++ " given)"
  | notText taker position kind =>
    taker ++ "argument " ++ toString position ++ " must be str, not " ++ wantedTextKind kind
  | notOctets kind => "a bytes-like object is required, not '" ++ kind ++ "'"
  | notInteger kind => "'" ++ kind ++ "' object cannot be interpreted as an integer"
  | integerTooLarge => "Python int too large to convert to C ssize_t"
  | countTooLarge => "cannot fit 'int' into an index-sized integer"
  | notIterable kind => "'" ++ kind ++ "' object is not iterable"
  | noEndColumn => "end_offset must be provided when end_lineno is provided"
  | notSequence => "second argument (exceptions) must be a sequence"
  | emptySequence => "second argument (exceptions) must be a non-empty sequence"
  | notError => "Item 0 of second argument (exceptions) is not an exception"

/-- The kind of the error that takes the place of the one asked for. -/
def kind : ArgumentFault → String
  | integerTooLarge => "OverflowError"
  | countTooLarge | emptySequence | notError => "ValueError"
  | _ => "TypeError"

/-- The error that takes the place of the one asked for. -/
def failure (e : ArgumentFault) : Failure := ⟨e.kind, [.str e.message]⟩

end ArgumentFault

namespace Failure

/-! ## Checks -/

/-- The first fault of a row of checks. -/
def firstFault (checks : List (Option ArgumentFault)) : Option ArgumentFault :=
  checks.findSome? id

/-- The fault of an argument that is to be a text. -/
def textFault? (taker : String) (position : Nat) : Json → Option ArgumentFault
  | .str _ => none
  | v => some (.notText taker position v.kind)

/-- The fault of an argument that is to be a position. -/
def positionFault? : Json → Option ArgumentFault
  | .bool _ => none
  | .int i =>
    if i < -((1 <<< 63 : Nat) : Int) ∨ ((1 <<< 63 : Nat) : Int) ≤ i then some .integerTooLarge
    else none
  | v => some (.notInteger v.kind)

/-- The fault of a number of arguments. -/
def countFault? (taker : String) (limit : Nat) (values : List Json) : Option ArgumentFault :=
  if values.length = limit then none else some (.count taker .exactly limit values.length)

/-! ## Kinds of this library -/

/-- The arguments of the kinds of this library that have a wording of their own, the optional ones
last, and how many must be there. -/
def signatures : List (String × List String × Nat) :=
  [("UnknownServiceError", ["name"], 1),
    ("StartupHealthError", ["service", "url", "reason"], 3),
    ("ServiceTimeoutError", ["service", "url", "waiting_for"], 3),
    ("InvalidCountError", ["count"], 1),
    ("RemoteSinkError", ["message", "response"], 1)]

/-- The fault of arguments for a kind of this library. -/
def ownFault? (kind : String) (names : List String) (least given : Nat) : Option ArgumentFault :=
  if given < least then some (.missing kind ((names.take least).drop given))
  else if names.length < given then some (.surplus kind least names.length given)
  else none

/-! ## Other kinds -/

/-- The function that makes a group of errors. -/
def groupTaker : String := "BaseExceptionGroup.__new__()"

/-- The fault of the second argument for a group, which is never a row of errors here. -/
def membersFault : Json → ArgumentFault
  | .arr (_ :: _) => .notError
  | .str s => if s = "" then .emptySequence else .notError
  | .arr [] => .emptySequence
  | _ => .notSequence

/-- The fault of arguments for a group of errors. -/
def groupFault? : List Json → Option ArgumentFault
  | [text, members] =>
    firstFault [textFault? (groupTaker ++ " ") 1 text, some (membersFault members)]
  | values => countFault? groupTaker 2 values

/-- The function that takes the arguments of a kind for encodings. -/
def plainTaker : String := "function"

/-- The fault of arguments about characters that cannot be encoded. -/
def encodeFault? : List Json → Option ArgumentFault
  | [encoding, object, start, stop, reason] =>
    firstFault [textFault? "" 1 encoding, textFault? "" 2 object, positionFault? start,
      positionFault? stop, textFault? "" 5 reason]
  | values => countFault? plainTaker 5 values

/-- The fault of arguments about octets that cannot be decoded.  No value here is made of octets. -/
def decodeFault? : List Json → Option ArgumentFault
  | [encoding, object, start, stop, reason] =>
    firstFault [textFault? "" 1 encoding, positionFault? start, positionFault? stop,
      textFault? "" 5 reason, some (.notOctets object.kind)]
  | values => countFault? plainTaker 5 values

/-- The fault of arguments about characters that cannot be mapped. -/
def mapFault? : List Json → Option ArgumentFault
  | [object, start, stop, reason] =>
    firstFault [textFault? "" 1 object, positionFault? start, positionFault? stop,
      textFault? "" 4 reason]
  | values => countFault? plainTaker 4 values

/-- The fault of the details of an error in a program text: a file, a line, a column and the text,
perhaps with the line and the column of the end. -/
def detailsFault? (details : Json) : Option ArgumentFault :=
  match details.row? with
  | none => some (.notIterable details.kind)
  | some values =>
    let given := values.length
    if given < 4 then some (.count plainTaker .atLeast 4 given)
    else if 6 < given then some (.count plainTaker .atMost 6 given)
    else if given = 5 then some .noEndColumn
    else none

/-- The fault of what an operation that would block has done. -/
def doneFault? : Json → Option ArgumentFault
  | .int i => (positionFault? (.int i)).map fun _ => .countTooLarge
  | .num x => some (.notInteger (Json.num x).kind)
  | _ => none

/-! ## Making -/

/-- Why a kind does not take its arguments. -/
def argumentFault? (f : Failure) : Option ArgumentFault :=
  let kind := f.properKind
  let values := f.arguments
  match signatures.find? fun s => s.1 = kind with
  | some (_, names, least) => ownFault? kind names least values.length
  | none =>
    if kind = encodeKind then encodeFault? values
    else if kind = decodeKind then decodeFault? values
    else if kind = mapKind then mapFault? values
    else if kind = "BaseExceptionGroup" || kind = "ExceptionGroup" then groupFault? values
    else if isSyntax kind && values.length = 2 then values[1]?.bind detailsFault?
    else if kind = blockingKind && isNumbered values then values[2]?.bind doneFault?
    else none

/-- The error of a kind, if it takes the arguments. -/
def make (kind : String) (arguments : List Json) : Except ArgumentFault Failure :=
  match argumentFault? ⟨kind, arguments⟩ with
  | some e => .error e
  | none => .ok ⟨kind, arguments⟩

/-- The error of a kind, or the one that takes its place. -/
def raised (kind : String) (arguments : List Json) : Failure :=
  match make kind arguments with
  | .ok f => f
  | .error e => e.failure

/-- Arguments that fit make the error that is asked for. -/
theorem raised_of_ok {kind : String} {arguments : List Json} {f : Failure}
    (h : make kind arguments = .ok f) : raised kind arguments = f := by
  simp [raised, h]

end Failure

end Logwire
