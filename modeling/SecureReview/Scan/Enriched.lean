import SecureReview.Context.Extract
import SecureReview.Scan.Registry
/-!
# Findings with context

The findings of the scanner of a language, each with the context of its line.
-/

namespace SecureReview.Scan

/-- The parts that such a scan is made of. -/
structure Toolbox where
  scan : Scanner → String → Run (List Json) := Scanner.scan
  context : Json → Json → String → Run Json := fun path line language =>
    Context.extract path line language Context.defaultAround

/-- The scanner of a language, by its names in any letter case. -/
def scannerFor? (language : String) : Option Scanner :=
  match Text.lower language with
  | "python" => some .bandit
  | "javascript" | "js" => some .eslint
  | "go" => some .gosec
  | "rust" => some .rust
  | "typescript" | "ts" => some .typescript
  | _ => none

/-- A finding with its context. -/
def withContext (finding context : Json) : Json :=
  match finding with
  | .obj fields => .obj (Fields.put fields "context" context)
  | v => v

/-- Add the context to a finding, which has to name its file and line. Without a context it stays as
it is. -/
def Toolbox.enrich (t : Toolbox) (language : String) (finding : Json) : Run Json := do
  let path ← Run.ofExcept (finding.require "file")
  let line ← Run.ofExcept (finding.require "line")
  try
    withContext finding <$> t.context path line language
  catch _ => pure finding

/-- Scan a path and add the contexts. -/
def Toolbox.scanLanguage (t : Toolbox) (path language : String) : Run (List Json) := do
  match scannerFor? language with
  | none => throw (.badValue s!"Unsupported language: {language}")
  | some s => (← t.scan s path).mapM (t.enrich language)

/-- The languages of a repository scan, in order. -/
def repositoryLanguages : List String :=
  ["python", "javascript", "typescript", "go", "rust"]

/-- Scan a repository for every language. A scan that fails reports nothing. -/
def Toolbox.scanRepository (t : Toolbox) (path : String) : Run (List (String × List Json)) :=
  repositoryLanguages.mapM (fun language =>
    try
      return (language, ← t.scanLanguage path language)
    catch _ => return (language, []))

end SecureReview.Scan
