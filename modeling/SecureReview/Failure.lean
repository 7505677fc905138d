import SecureReview.Json.Display
import SecureReview.Text.Lines
import SecureReview.Json.Parser
/-!
# Failures

Everything that can stop an operation, by cause. The wording of a failure is a function of its cause,
because some operations catch a failure and report its text. An operation on a state may fail too, and
a failure does not undo what was done before it.
-/

namespace SecureReview

/-- One complaint about a record: where, what, and of which sort. -/
structure Fault where
  place : List String
  text : String
  sort : String
  deriving DecidableEq

/-- The reasons for which a record is refused. -/
structure FaultReport where
  model : String
  faults : List Fault
  deriving DecidableEq

/-- The lines of one complaint. -/
def Fault.lines (f : Fault) : List String :=
  [Text.joinWith " -> " f.place, s!"  {f.text} (type={f.sort})"]

/-- The full wording of a refusal. -/
def FaultReport.message (r : FaultReport) : String :=
  let n := r.faults.length
  let errors := if n == 1 then "error" else "errors"
  Text.unlines (s!"{n} validation {errors} for {r.model}" :: r.faults.flatMap Fault.lines)

/-- Why an operation stopped. -/
inductive Failure where
  /-- A value of kind `kind` does not have the operation `name`. -/
  | noOperation (kind name : String)
  /-- A value of the wrong kind was combined, iterated or passed on. -/
  | wrongKind (text : String)
  /-- A record lacks a required field. -/
  | noField (name : String)
  /-- A position lies outside a sequence. -/
  | outOfRange (text : String)
  /-- A value of the right kind is not acceptable. -/
  | badValue (text : String)
  /-- A number is too large for its target. -/
  | tooLarge (text : String)
  | divisionByZero (text : String)
  /-- A record does not satisfy its model. -/
  | unfit (report : FaultReport)
  /-- A text is not JSON. -/
  | badJson (flaw : Json.Flaw) (doc : String)
  /-- A collaborator failed with a message of its own. -/
  | broken (text : String)
  /-- A caller went over its rate. -/
  | throttled (key : String)
  /-- A request is answered with an error status. -/
  | refused (status : Nat) (detail : String)
  | unknownName (name : String)
  /-- A pattern or replacement is malformed. -/
  | badPattern (text : String)
  | noFile (path : String)
  | isDirectory (path : String)
  | notDirectory (path : String)
  /-- A directory on the way may not be searched. -/
  | denied (path : String)
  /-- The path, or a name on the way, is longer than allowed. -/
  | nameTooLong (path : String)
  | badEncoding (text : String)
  | unknownEncoding (name : String)
  /-- A command took longer than allowed. -/
  | timedOut (command : List String) (seconds : Nat)
  /-- A command that had to succeed did not. -/
  | exited (command : List String) (code : Int)
  /-- The repository host reported an error. -/
  | hostError
  /-- A stored row breaks a constraint. -/
  | integrity
  /-- The store cannot be used. -/
  | noStore
  /-- There is no row that could be deleted. -/
  | noRow

/-- The wording of a failure. -/
def Failure.message : Failure → String
  | .noOperation kind name => s!"'{kind}' object has no attribute '{name}'"
  | .wrongKind text => text
  | .noField name => Text.quote name
  | .outOfRange text => text
  | .badValue text => text
  | .tooLarge text => text
  | .divisionByZero text => text
  | .unfit report => report.message
  | .badJson flaw doc => flaw.describe doc
  | .broken text => text
  | .throttled key => s!"Rate limit exceeded for {key}"
  | .refused _ detail => detail
  | .unknownName name => s!"name '{name}' is not defined"
  | .badPattern text => text
  | .noFile path => s!"[Errno 2] No such file or directory: " ++ Text.quote path
  | .isDirectory path => s!"[Errno 21] Is a directory: " ++ Text.quote path
  | .notDirectory path => s!"[Errno 20] Not a directory: " ++ Text.quote path
  | .denied path => s!"[Errno 13] Permission denied: " ++ Text.quote path
  | .nameTooLong path => s!"[Errno 36] File name too long: " ++ Text.quote path
  | .badEncoding text => text
  | .unknownEncoding name => s!"unknown encoding: {name}"
  | .timedOut command seconds =>
    s!"Command '{(Json.strings command).literal}' timed out after {seconds} seconds"
  | .exited command code =>
    s!"Command '{(Json.strings command).literal}' returned non-zero exit status {Json.intText code}."
  | .hostError => ""
  | .integrity => ""
  | .noStore => ""
  | .noRow => ""

/-- Parse JSON text, or fail. -/
def Json.read (s : String) : Except Failure Json :=
  match Json.parseString s with
  | .ok v => .ok v
  | .error flaw => .error (.badJson flaw s)

/-! ## Operations on a state -/

/-- An operation on a state. -/
abbrev Effect (σ : Type) := ExceptT Failure (StateM σ)

/-- Lift a reading that may fail. -/
def Effect.ofExcept {σ α : Type} : Except Failure α → Effect σ α
  | .ok a => pure a
  | .error e => throw e

end SecureReview
