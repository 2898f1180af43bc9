import PlainSchema.Sorting

/-!
# Findings about a schema

A finding names its subject, a file, message, field or option, and says what is wrong with it.
Findings are listed once each, errors first, and by subject within one level.
-/

namespace PlainSchema

/-- How severe a finding is. -/
inductive Level where
  /-- No plan is made. -/
  | error
  | warn
  | info
  deriving DecidableEq, Repr, Inhabited

namespace Level

/-- The word for a level. -/
def name : Level → String
  | error => "error"
  | warn => "warn"
  | info => "info"

/-- The position of a level, most severe first. -/
def rank : Level → Nat
  | error => 0
  | warn => 1
  | info => 2

end Level

/-- A finding about a schema. -/
structure Diagnostic where
  level : Level
  subject : String
  message : String
  deriving DecidableEq, Repr, Inhabited

namespace Diagnostic

/-- A finding that prevents a plan. -/
def error (subject message : String) : Diagnostic :=
  { level := .error, subject, message }

/-- A finding about something that is probably not meant. -/
def warn (subject message : String) : Diagnostic :=
  { level := .warn, subject, message }

/-- A finding about something that has no effect. -/
def info (subject message : String) : Diagnostic :=
  { level := .info, subject, message }

/-- Whether the finding prevents a plan. -/
def isError (d : Diagnostic) : Bool :=
  d.level == .error

/-- The finding in one line. -/
def render (d : Diagnostic) : String :=
  d.level.name ++ ": " ++ d.subject ++ ": " ++ d.message

/-- The order of findings: by level, then by subject, then by message. -/
def le (a b : Diagnostic) : Bool :=
  if a.level.rank ≠ b.level.rank then a.level.rank < b.level.rank
  else if a.subject ≠ b.subject then a.subject < b.subject
  else a.message < b.message || a.message == b.message

/-- Findings in order, each one once. -/
def sorted (ds : List Diagnostic) : List Diagnostic :=
  (sortBy le ds).eraseReps

/-- The errors of a list of findings in one line. -/
def summary (ds : List Diagnostic) : String :=
  "; ".intercalate ((ds.filter isError).map render)

/-- An error under a condition. -/
def errorIf (condition : Bool) (subject message : String) : List Diagnostic :=
  if condition then [error subject message] else []

/-- A warning under a condition. -/
def warnIf (condition : Bool) (subject message : String) : List Diagnostic :=
  if condition then [warn subject message] else []

end Diagnostic

end PlainSchema
