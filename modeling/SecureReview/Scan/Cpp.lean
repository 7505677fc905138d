import SecureReview.Json.Loose
import SecureReview.Scan.Trouble
import SecureReview.Text.Blank
import SecureReview.World.Basic
/-!
# C and C++

The findings of Cppcheck, followed by those of Clang-Tidy if that is installed.
-/

/-! ## Cppcheck

The tool writes its report to a fixed file.
-/

namespace SecureReview.Scan.Cppcheck

/-- Where the report is written. -/
def reportPath : String := "/tmp/cppcheck-output.xml"

/-- The severities of the tool. -/
def severities : List (String × String) :=
  [("error", "HIGH"), ("warning", "MEDIUM"), ("style", "LOW"), ("performance", "LOW"),
   ("portability", "LOW"), ("information", "INFO")]

/-- The finding for one error of the report. -/
def finding (e : Xml.Element) : Except Failure Json := do
  let severity := (severities.lookup ((e.get? "severity").getD "style")).getD "MEDIUM"
  let message := (e.get? "msg").getD "No description"
  let (file, line) ← match e.find? "location" with
    | some l => do pure ((l.get? "file").getD "unknown", ← numberIn l "line")
    | none => pure ("unknown", 1)
  return .obj [
    ("file", .str file),
    ("line", .int line),
    ("severity", .str severity),
    ("rule_id", .str ((e.get? "id").getD "UNKNOWN")),
    ("description", .str ((e.get? "verbose").getD message)),
    ("tool", .str "cppcheck")]

/-- The findings in a report. -/
def read (text : String) : Except Failure (List Json) :=
  readXml text "Cppcheck" "cppcheck" (fun root => (root.findAll "error").mapM finding)

/-- The command line for a path. -/
def command (path : String) : List String :=
  ["cppcheck", "--enable=all", "--xml", "--xml-version=2", s!"--output-file={reportPath}",
   "--suppress=missingIncludeSystem", "--suppress=unmatchedSuppression", "--inline-suppr", "--force",
   path]

/-- Run the tool on a path. -/
def scan (path : String) : Run (List Json) :=
  try
    let _ ← Run.process { words := command path, timeout := some 120 }
    takeReport reportPath read
  catch e =>
    match e with
    | .timedOut .. => return [trouble path "TIMEOUT" "Cppcheck scan timeout exceeded" "cppcheck"]
    | e => return [trouble path "SCAN_ERROR" s!"Cppcheck scan error: {e.message}" "cppcheck"]

end SecureReview.Scan.Cppcheck

/-! ## Clang-Tidy

Findings are read from the diagnostics that the tool prints, one a line:
`file:line:column: level: message [check]`. The tool is optional, and a run that fails ends the scan
with the findings so far.
-/

namespace SecureReview.Scan.ClangTidy

/-- The check and the message of a diagnostic. The check stands in the last brackets. -/
def splitMessage (t : List Char) : List Char × List Char :=
  match Text.lastIndex? '[' t, Text.lastIndex? ']' t with
  | some o, some c => ((t.take c).drop (o + 1), Text.trim (t.take o))
  | _, _ => ("clang-tidy".toList, Text.trim t)

/-- The finding for one line of output, if it is a diagnostic. -/
def finding? (file : String) (line : List Char) : Option Json :=
  let isError := Text.occurs ": error:".toList line
  if isError || Text.occurs ": warning:".toList line then
    match Text.splitAtEach [':'] line with
    | _ :: number :: _ :: message =>
      if message.isEmpty then none
      else
        match Text.readInt (String.ofList number) with
        | .error _ => none
        | .ok n =>
          let (check, text) := splitMessage (Text.join [':'] message)
          some (.obj [
            ("file", .str file),
            ("line", .int n),
            ("severity", .str (if isError then "HIGH" else "MEDIUM")),
            ("rule_id", .str (String.ofList check)),
            ("description", .str (String.ofList text)),
            ("tool", .str "clang-tidy")])
    | _ => none
  else none

/-- The findings in what the tool printed about a file. -/
def read (output file : String) : List Json :=
  (Text.feedLines output.toList).filterMap (finding? file)

/-- The endings of the files that are looked at. -/
def endings : List String := [".c", ".cpp", ".cc", ".cxx", ".h", ".hpp"]

/-- The files to be looked at: at most ten. -/
def targets (fs : Files) (path : String) : List String :=
  (if fs.hasFile path then [path] else endings.flatMap (fs.glob path)).take 10

/-- The command line for a file. -/
def command (file : String) : List String :=
  ["clang-tidy", file, "--checks=cert-*,bugprone-*,clang-analyzer-security*", "--format-style=none",
   "--", "-std=c++17"]

/-- Run the tool on one file after the other, up to the first failure. -/
def scanFiles : List String → Run (List Json)
  | [] => return []
  | file :: files => do
    let found ← try
        let out ← Run.process { words := command file, timeout := some 30 }
        pure (some (read out.stdout file))
      catch _ => pure none
    match found with
    | none => return []
    | some findings => return findings ++ (← scanFiles files)

/-- Run the tool on a path. -/
def scan (path : String) : Run (List Json) := do
  scanFiles (targets (← Run.files) path)

/-- Whether the tool is there. A tool that cannot be found or does not know its version is not; any
other failure to answer is one of the scan. -/
def isAvailable : Run Bool :=
  try
    let _ ← Run.process { words := ["clang-tidy", "--version"], check := true }
    return true
  catch e =>
    match e with
    | .exited .. => return false
    | .noFile _ => return false
    | e => throw e

end SecureReview.Scan.ClangTidy

/-! ## Both tools -/

namespace SecureReview.Scan.Cpp

/-- Scan a file or a project. -/
def scan (path : String) : Run (List Json) := do
  let p := Path.normal path
  let findings ← Cppcheck.scan p
  if ← ClangTidy.isAvailable then return findings ++ (← ClangTidy.scan p) else return findings

end SecureReview.Scan.Cpp
