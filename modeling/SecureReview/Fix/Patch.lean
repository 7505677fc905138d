import SecureReview.Fix.Suggestion
/-!
# Applying a fix

The old code is replaced wherever it occurs in the file. The text of the file before the change is
kept beside it.
-/

namespace SecureReview

/-- The part of a suggestion that matters for the file. -/
structure Patch where
  filePath : Json
  oldCode : Json
  fixedCode : Json

/-- The patch of a suggestion. -/
def FixSuggestion.patch (f : FixSuggestion) : Patch :=
  ⟨f.filePath, .str f.oldCode, .str f.fixedCode⟩

namespace Patch

/-- A text that is used in a replacement. -/
def textArgument (n : Nat) : Json → Except Failure String
  | .str s => .ok s
  | v => .error (.wrongKind s!"replace() argument {n} must be str, not {v.kind}")

/-- Where the text before the change is kept. -/
def backupPath (p : String) : String :=
  Path.withSuffix p (Path.suffix p ++ ".backup")

/-- Write a text file. -/
def save (path text : String) : Run Unit := do
  Run.setFiles (← Run.ofExcept ((← Run.files).writeText path text))

/-- Keep the text of a file beside it, and write the file anew. -/
def overwrite (path old new : String) : Run Unit := do
  save (backupPath path) old
  save path new

/-- Open a file and read its text. -/
def load (fs : Files) (path : String) : Except Failure String :=
  if fs.isDir path then .error (.isDirectory path) else fs.readText path

/-- The steps of a patch: find the file, read it, keep its text, write it anew. -/
def steps (p : Patch) (dryRun : Bool) : Run Bool := do
  let fs ← Run.files
  let path := Path.normal (← Run.ofExcept (FixEngine.pathText p.filePath))
  if !fs.has path then return false
  let content ← Run.ofExcept (load fs path)
  let old ← Run.ofExcept (textArgument 1 p.oldCode)
  let new ← Run.ofExcept (textArgument 2 p.fixedCode)
  if dryRun then return true
  overwrite path content (Text.replace content old new)
  return true

/-- Apply a patch; whatever goes wrong, the outcome is then that it was not applied. The files stay as
the step that went wrong has left them. -/
def apply (p : Patch) (dryRun : Bool) : Run Bool :=
  tryCatch (p.steps dryRun) fun _ => return false

end Patch

end SecureReview
