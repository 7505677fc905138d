import SecureReview.Scan.Bandit
import SecureReview.Scan.Cargo
import SecureReview.Scan.Cpp
import SecureReview.Scan.Dependencies
import SecureReview.Scan.Eslint
import SecureReview.Scan.Gosec
import SecureReview.Scan.Spotbugs
/-!
# Registry of scanners

Which scanner serves which language, and which language a file has by the ending of its name.
-/

namespace SecureReview.Scan

/-- The scanners. -/
inductive Scanner where
  | bandit
  | eslint
  | typescript
  | gosec
  | rust
  | java
  | cpp
  | dependencies
  deriving DecidableEq

namespace Scanner

/-- The configuration file that a scanner uses unless told otherwise. -/
def defaultConfig : Scanner → Option String
  | .bandit => some "configs/bandit.yaml"
  | .eslint => some "configs/eslint.config.mjs"
  | .typescript => some "configs/eslint.typescript.config.mjs"
  | .gosec => some "configs/gosec.yaml"
  | .rust => some "configs/clippy.toml"
  | _ => none

/-- Run a scanner with a configuration. -/
def scanWith (s : Scanner) (config path : String) : Run (List Json) :=
  match s with
  | .bandit => Bandit.scan config path
  | .eslint => Eslint.scan .javascript config path
  | .typescript => Eslint.scan .typescript config path
  | .gosec => Gosec.scan config path
  | .rust => Cargo.scan path
  | .java => Spotbugs.scan path
  | .cpp => Cpp.scan path
  | .dependencies => Dependencies.scan path

/-- Run a scanner. -/
def scan (s : Scanner) (path : String) : Run (List Json) :=
  s.scanWith (s.defaultConfig.getD "") path

/-- A scanner that works in the background: its findings have to be waited for. -/
def isDeferred : Scanner → Bool
  | .bandit | .eslint | .typescript | .gosec | .rust => true
  | _ => false

end Scanner

/-- Set an entry of a table: in place if there is one, else at the end. -/
def setEntry {α : Type} (k : String) (a : α) : List (String × α) → List (String × α)
  | [] => [(k, a)]
  | e :: es => if e.1 == k then (k, a) :: es else e :: setEntry k a es

/-- The scanners by language and the languages by ending, in the order of registration. -/
structure Registry where
  scanners : List (String × Scanner) := []
  endings : List (String × String) := []

namespace Registry

/-- Register a scanner for a language with its endings. -/
def register (r : Registry) (language : String) (s : Scanner) (endings : List String) : Registry where
  scanners := setEntry language s r.scanners
  endings := endings.foldl (fun es e => setEntry (Text.lower e) language es) r.endings

/-- The registry at the start. -/
def standard : Registry :=
  ((((((Registry.register {} "python" .bandit [".py"]).register "javascript" .eslint [".js", ".jsx"]
    ).register "typescript" .typescript [".ts", ".tsx"]).register "go" .gosec [".go"]
    ).register "rust" .rust [".rs"]).register "java" .java [".java"]
    ).register "cpp" .cpp [".c", ".cpp", ".cc", ".cxx", ".h", ".hpp"]

/-- The scanner of a language. -/
def scanner? (r : Registry) (language : String) : Option Scanner :=
  r.scanners.lookup language

/-- The scanner of a file. -/
def scannerOf? (r : Registry) (path : String) : Option Scanner :=
  match r.endings.lookup (Text.lower (Path.suffix path)) with
  | some language => if language == "" then none else r.scanner? language
  | none => none

/-- Scan a file with the scanner of the given language, or else of the file. A file that nobody serves
is itself a finding. -/
def scanFile (r : Registry) (path : String) (language : Option String) :
    Run (Bool × List Json) := do
  let s := match language.filter (· != "") with
    | some l => r.scanner? l
    | none => r.scannerOf? path
  match s with
  | some s => return (s.isDeferred, ← s.scan path)
  | none => return (false, [trouble path "UNSUPPORTED_LANGUAGE"
      s!"No scanner available for file: {path}" "scanner_registry"])

end Registry

end SecureReview.Scan
