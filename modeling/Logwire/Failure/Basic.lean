import Logwire.Json.Display

/-!
# Logwire.Failure.Basic

Errors that come from outside: of a caller that logs them, or of a sink that is
told to fail.  Such an error has a kind and arguments, from which its text
follows.

The kinds of this library put a wording of their own around their arguments,
those of the operating system show a number and a text, perhaps with the files
in question, and those of encodings show the characters in question.  Of all
others one argument is the text, and several are shown as a tuple.
-/

namespace Logwire

open Number

/-- An error by its kind and arguments. -/
structure Failure where
  kind : String
  arguments : List Json := []

namespace Failure

/-- The kinds of error that this library has. -/
def ownKinds : List String :=
  ["PzCommonError", "ConfigError", "UnknownServiceError", "StartupHealthError",
    "ServiceTimeoutError", "SinkNotConfiguredError", "InvalidCountError", "RemoteSinkError",
    "InvalidMessageError", "DocumentIndexError"]

/-- Several values in round brackets. -/
def tupleText (values : List Json) : String :=
  "(" ++ ", ".intercalate (values.map Json.literal) ++ ")"

/-- The text of an error whose arguments have no wording around them. -/
def plainText (kind : String) : List Json → String
  | [] => ""
  | [v] => if kind = "KeyError" then v.literal else v.display
  | values => tupleText values

/-! ## Errors of the operating system -/

/-- The kind of all errors of the operating system. -/
def systemKind : String := "OSError"

/-- The special kinds of such errors, with their numbers. -/
def systemNumbers : List (Int × String) :=
  [(1, "PermissionError"), (2, "FileNotFoundError"), (3, "ProcessLookupError"),
    (4, "InterruptedError"), (10, "ChildProcessError"), (11, "BlockingIOError"),
    (13, "PermissionError"), (17, "FileExistsError"), (20, "NotADirectoryError"),
    (21, "IsADirectoryError"), (32, "BrokenPipeError"), (103, "ConnectionAbortedError"),
    (104, "ConnectionResetError"), (108, "BrokenPipeError"), (110, "TimeoutError"),
    (111, "ConnectionRefusedError"), (114, "BlockingIOError"), (115, "BlockingIOError")]

/-- Whether a kind is one of the operating system. -/
def isSystem (kind : String) : Bool :=
  kind = systemKind || kind = "ConnectionError" || systemNumbers.any fun n => n.2 = kind

/-- An error that is shown by its number: it has a text besides, and up to three more arguments. -/
def isNumbered (values : List Json) : Bool := 2 ≤ values.length && values.length ≤ 5

/-- The special kind of a number.  A truth value counts as a number, a double precision number does
not. -/
def kindOfNumber (v : Json) : String :=
  let kindOf := fun n => ((systemNumbers.find? fun m => m.1 = n).map Prod.snd).getD systemKind
  match v with
  | .int n => kindOf n
  | .bool b => kindOf b.toInt
  | _ => systemKind

/-- The kind for an operation that would block.  It counts what it has done, where others name a
file. -/
def blockingKind : String := "BlockingIOError"

def namesFile (kind : String) : Json → Bool
  | .null => false
  | .bool _ | .int _ | .num _ => kind ≠ blockingKind
  | _ => true

/-- The files in question: one, or two of which the first was to become the second. -/
def filesOf (kind : String) : List Json → List Json
  | [file, _, .null] => if namesFile kind file then [file] else []
  | [file, _, other] => if namesFile kind file then [file, other] else []
  | file :: _ => if namesFile kind file then [file] else []
  | [] => []

/-- The text for the files in question. -/
def filesText : List Json → String
  | [] => ""
  | files => ": " ++ " -> ".intercalate (files.map Json.literal)

/-- The text of an error of the operating system. -/
def systemText (kind : String) (values : List Json) : String :=
  match values with
  | number :: text :: files =>
    if isNumbered values then
      "[Errno " ++ number.display ++ "] " ++ text.display ++ filesText (filesOf kind files)
    else plainText kind values
  | _ => plainText kind values

/-! ## Errors of encodings -/

/-- The kind for characters that cannot be encoded. -/
def encodeKind : String := "UnicodeEncodeError"

/-- The kind for octets that cannot be decoded. -/
def decodeKind : String := "UnicodeDecodeError"

/-- The kind for characters that cannot be mapped. -/
def mapKind : String := "UnicodeTranslateError"

/-- What stands for the text of an error that has none. -/
def unshownText : String := "<exception str() failed>"

/-- The characters of a text from one position to before another, and the reason why they cannot be
`done`.  A single one is shown.  There is nothing to show before the text. -/
def spanText (done object reason : String) (start stop : Int) : String :=
  if stop = start + 1 ∧ start < object.length then
    match start with
    | .negSucc _ => unshownText
    | .ofNat n =>
      let shown := (object.toList[n]?).elim [] Text.codePointEscape
      done ++ " character \x27" ++ String.ofList shown ++ "\x27 in position " ++ intText start
        ++ ": " ++ reason
  else
    -- positions are signed words of 64 bits
    done ++ " characters in position " ++ intText start ++ "-"
      ++ intText (Int.bmod (stop - 1) (1 <<< 64)) ++ ": " ++ reason

/-- A position that is an argument. -/
def positionOf : Json → Int
  | .int i => i
  | .bool b => b.toInt
  | _ => 0

/-- The text of an error about characters. -/
def encodingText : List Json → String
  | [.str encoding, .str object, start, stop, .str reason] =>
    spanText ("\x27" ++ encoding ++ "\x27 codec can't encode") object reason (positionOf start)
      (positionOf stop)
  | [.str object, start, stop, .str reason] =>
    spanText "can't translate" object reason (positionOf start) (positionOf stop)
  | _ => ""

/-! ## Errors in a program text -/

/-- The kinds for errors in a program text. -/
def syntaxKinds : List String := ["SyntaxError", "IndentationError", "TabError"]

/-- Whether a kind is one for errors in a program text. -/
def isSyntax (kind : String) : Bool := syntaxKinds.contains kind

/-! ## Kinds and texts -/

/-- The kind of an error.  Two kinds have a second name, and an error of the operating system
becomes special by its number. -/
def properKind (f : Failure) : String :=
  let kind := if f.kind = "IOError" || f.kind = "EnvironmentError" then systemKind else f.kind
  if kind = systemKind && isNumbered f.arguments then
    kindOfNumber (f.arguments.headD .null)
  else kind

/-- The kinds that are no errors, such as interrupts.  What handles errors does not catch them. -/
def interruptKinds : List String :=
  ["BaseException", "BaseExceptionGroup", "GeneratorExit", "KeyboardInterrupt", "SystemExit"]

/-- Whether what is raised is an error. -/
def isError (f : Failure) : Bool := !interruptKinds.contains f.properKind

def message (f : Failure) : String :=
  match f.properKind, f.arguments with
  | "UnknownServiceError", [name] => "Unknown service: " ++ name.display
  | "StartupHealthError", [service, url, reason] =>
    "Health check failed for service: " ++ service.display ++ " at " ++ url.display ++ " ("
      ++ reason.display ++ ")"
  | "ServiceTimeoutError", [service, url, condition] =>
    "timed out waiting for " ++ condition.display ++ ": " ++ service.display ++ " at "
      ++ url.display
  | "InvalidCountError", [count] => "invalid count: " ++ count.display
  | "RemoteSinkError", text :: _ => text.display
  | kind, values =>
    if isSystem kind then systemText kind values
    else if kind = encodeKind || kind = mapKind then encodingText values
    else if isSyntax kind then (values.headD .null).display
    else plainText kind values

/-- The values that the text of an error shows: an argument by itself, several in a row. -/
def shownValues (f : Failure) : List Json :=
  match f.properKind, f.arguments with
  | "RemoteSinkError", text :: _ => [text]
  | _, [v] => [v]
  | kind, values =>
    if isSyntax kind then values.take 1
    else
      match isSystem kind && isNumbered values, values with
      | true, number :: text :: files => number :: text :: filesOf kind files
      | _, _ => [.arr values]

/-- The text of an error, if all that it shows has a text. -/
def shownMessage (f : Failure) : String :=
  if f.shownValues.all fun v => (v.textFault? Json.shownLimit).isNone then f.message
  else unshownText

/-- The kind with the place of its definition, as a report shows it. -/
def label (f : Failure) : String :=
  if ownKinds.contains f.properKind then "pzcommon.core.errors." ++ f.properKind else f.properKind

/-- A kind and a text, of which the text may be empty. -/
def headline (label text : String) : String := if text = "" then label else label ++ ": " ++ text

end Failure

end Logwire
