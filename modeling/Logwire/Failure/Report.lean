import Logwire.Failure.Excerpt

/-!
# Logwire.Failure.Report

The report of an error: its kind and text, after an excerpt if it is an error in
a program text, and after the error that led to it if there is one.

* `report_of_not_isSyntax` — without an excerpt there is always a report.
-/

namespace Logwire.Failure

/-- Where an error in a program text stands. -/
def spot? (f : Failure) : Option SourceSpot :=
  match f.arguments with
  | [_, details] => details.row?.bind SourceSpot.ofRow?
  | _ => none

/-- What stands for the text of an error in a program text that has none. -/
def noDetail : String := "<no detail available>"

/-- The text of an error in a program text. -/
def detail (f : Failure) : String :=
  let text := f.arguments.headD .null
  if text.isGiven then text.display else noDetail

/-- The report of an error in a program text. -/
def syntaxReport (f : Failure) : Except ExcerptFault String := do
  let text := f.arguments.headD .null
  match f.spot? with
  | none =>
    ExcerptFault.check text
    return f.label ++ ": " ++ f.detail
  | some s =>
    let rows ← s.excerpt
    ExcerptFault.check text
    return rows ++ f.label ++ ": " ++ f.detail ++ s.fileSuffix

/-- The report of an error by itself. -/
def ownReport (f : Failure) : Except ExcerptFault String :=
  if isSyntax f.properKind then f.syntaxReport else .ok (headline f.label f.shownMessage)

/-- The kind of the error that led to another. -/
def causeKind : String := "RuntimeError"

/-- What stands between an error and the one that it led to. -/
def causeText : String :=
  "\n\nThe above exception was the direct cause of the following exception:\n\n"

/-- The report of an error, after the cause that led to it if there is one. -/
def report (f : Failure) (cause : Option String) : Except ExcerptFault String :=
  f.ownReport.map fun own =>
    match cause with
    | none => own
    | some text => headline causeKind text ++ causeText ++ own

/-- Without an excerpt there is always a report. -/
theorem report_of_not_isSyntax (f : Failure) (h : isSyntax f.properKind = false) :
    f.report none = .ok (headline f.label f.shownMessage) := by
  simp [report, ownReport, h, Except.map]

end Logwire.Failure
