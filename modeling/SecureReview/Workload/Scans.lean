import SecureReview.Context.Extract
import SecureReview.Fix.Syntax
import SecureReview.Number.Whole
import SecureReview.Path
import SecureReview.Scan.Changes
import SecureReview.Scan.Enriched
import SecureReview.Workload.Basic
/-!
# Workloads of the scanners

Reports in the forms of the tools, files of many languages, and the contexts of findings.
-/

namespace SecureReview.Workload

/-! ## Reports of tools -/

/-- A place in a file, in the words of most tools. -/
def placed (i : Nat) (more : Fields) : Json :=
  .obj (more ++ [("file", .str s!"src/file_{i}"), ("line", .str s!"{i + 1}")])

/-- One issue as the scanner of Python reports it. -/
def banditIssue (i : Nat) : Json :=
  .obj [("filename", .str s!"src/file_{i}.py"), ("line_number", Json.nat (i + 1)),
    ("issue_severity", .str (cycled severities i)), ("issue_confidence", .str "HIGH"),
    ("issue_text", .str (cycled descriptions i)), ("code", .str s!"run({i})"),
    ("test_id", .str (cycled rules i))]

/-- One file with one message as the scanners of scripts report it. -/
def eslintFile (i : Nat) : Json :=
  .obj [("filePath", .str s!"src/file_{i}.js"), ("messages", .arr [
    .obj [("ruleId", .str "security/detect-eval"), ("severity", Json.nat (i % 3)),
      ("message", .str (cycled descriptions i)), ("line", Json.nat (i + 1))]])]

/-- One issue as the scanner of Go reports it. -/
def gosecIssue (i : Nat) : Json :=
  placed i [("severity", .str (cycled severities i)), ("rule_id", .str "G201")]

/-- One vulnerable dependency. -/
def advisory (i : Nat) : Json :=
  .obj [("advisory", .obj [("id", .str s!"RUSTSEC-{i}"), ("title", .str "overflow")]),
    ("package", .obj [("name", .str s!"crate{i}"), ("version", .str "1.0.0")])]

/-- One message of the compiler of Rust. -/
def lint (i : Nat) : Json :=
  .obj [("code", .obj [("code", .str "clippy::unwrap_used")]), ("level", .str "warning"),
    ("message", .str "used unwrap"), ("spans", .arr [
      .obj [("file_name", .str s!"src/file_{i}.rs"), ("line_start", Json.nat (i + 1))]])]

/-- The number of findings in the report of each tool; the compiler has a quarter as many messages and
one more. -/
def scannerNormalizers : Workload :=
  once "scanner_normalizers" "n_records" [100, 400, 1600] (fun n => do
    let report := fun (k : Nat) (f : Nat → Json) => Json.arr ((List.range k).map f)
    let found ← [Scan.Bandit.findings (report n banditIssue),
      Scan.Eslint.findings .javascript (report n eslintFile),
      Scan.Eslint.findings .typescript (report n eslintFile),
      Scan.Gosec.findings (report n gosecIssue),
      Scan.Cargo.advisoryFindings (report n advisory),
      Scan.Cargo.lintFindings (report (n / 4 + 1) lint)].mapM id
    return .arr (found.map (fun f => Json.nat f.length)))

/-- A report on C code: errors with places, and one without. -/
def cppcheckReport (n : Nat) : String :=
  let errors := (List.range n).map (fun i =>
    s!"<error id=\"nullPointer\" severity=\"error\" msg=\"m\"><location file=\"a.c\" line=\"{i + 1}\"/></error>")
  "<results><errors>" ++ String.join errors ++ "<error id=\"toomany\" msg=\"m\"/></errors></results>"

/-- A report on Java code: bugs with places, and one without. -/
def spotbugsReport (n : Nat) : String :=
  let bugs := (List.range n).map (fun i =>
    s!"<BugInstance type=\"SQL\" priority=\"1\"><SourceLine sourcepath=\"A.java\" start=\"{i + 1}\"/></BugInstance>")
  "<BugCollection>" ++ String.join bugs ++ "<BugInstance type=\"XSS\"/></BugCollection>"

/-- Diagnostics of a compiler, one to a line. -/
def diagnostics (n : Nat) : String :=
  String.join ((List.range n).map (fun i => s!"a.cpp:{i + 1}:5: warning: unsafe call [cert-err33-c]\n"))

/-- The number of findings in well-formed and malformed reports, and in diagnostics. -/
def scannerParsers : Workload :=
  once "scanner_parsers" "n_entries" [50, 200, 800] (fun n => do
    let found ← [Scan.Cppcheck.read (cppcheckReport n), Scan.Cppcheck.read "<results>",
      Scan.Spotbugs.read (spotbugsReport n), Scan.Spotbugs.read "<BugCollection>",
      pure (Scan.ClangTidy.read (diagnostics n) "a.cpp")].mapM id
    return .arr (found.map (fun f => Json.nat f.length)))

/-! ## Files -/

/-- How many files have a scanner. -/
def scannerRegistry : Workload :=
  once "scanner_registry" "n_files" [500, 2000, 8000] (fun n =>
    let file := fun (i : Nat) => s!"src/file_{i}" ++ cycled [".py", ".js", ".ts", ".go", ".rs", ".java", ".cpp"] i
    .ok (Json.nat (countUpTo n (fun i => (Scan.Registry.standard.scannerOf? (file i)).isSome))))

/-- The parts of a scan of which every file has one finding. -/
def stubTools : Scan.Toolbox where
  scan _ path := return [.obj [("file", .str path), ("line", .int 1)]]
  context _ _ _ := return .obj []

/-- How many files are in a known language, and how many findings some scans have. -/
def scannerWithContext : Workload :=
  once "scanner_with_context" "n_files" [500, 1500, 5000] (fun n => do
    let file := fun (i : Nat) =>
      s!"src/file_{i}" ++ cycled [".py", ".js", ".jsx", ".ts", ".tsx", ".go", ".rs", ".txt"] i
    let known := countUpTo n (fun i => (Language.ofScanned? (file i)).isSome)
    let found ← inWorld {} ((List.range (max 1 (n / 100))).mapM (fun i =>
      stubTools.scanLanguage (file i) "python"))
    return .arr [Json.nat known, Json.nat (Number.total (found.map List.length))])

/-- Projects without any tool installed: how many findings report the missing tools, and how many
projects have no vulnerable dependency. -/
def scannerSubprocessPaths : Workload :=
  once "scanner_subprocess_paths" "n_projects" [1, 2, 4] (fun n => do
    let targets := fun (i : Nat) => [
      (Scan.Scanner.java, s!"p{i}/A.java"), (.java, s!"p{i}"), (.cpp, s!"p{i}/a.cpp"),
      (.cpp, s!"p{i}/b.c"), (.cpp, s!"p{i}")]
    let files := (List.range n).foldl (fun (fs : Files) i =>
      [s!"p{i}/A.java", s!"p{i}/pom.xml", s!"p{i}/a.cpp", s!"p{i}/b.c"].foldl (fun fs p => fs.put p []) fs) {}
    inWorld { files } (do
      let found ← ((List.range n).flatMap targets).mapM (fun t => t.1.scan t.2)
      let sound ← (List.range n).mapM (fun i => do
        return (← Scan.Scanner.dependencies.scan s!"p{i}").isEmpty)
      return .arr [Json.nat (Number.total (found.map List.length)), Json.nat (sound.countP id)]))

/-- How many files a listing has: all of them, the scripts among them, and those of one language. -/
def incrementalScanner : Workload :=
  once "incremental_scanner" "n_files" [20, 60, 200] (fun n => do
    let file := fun (i : Nat) => s!"repo/file_{i}" ++ cycled [".py", ".js", ".ts", ".go", ".rs"] i
    let files := (List.range n).foldl (fun (fs : Files) i => fs.put (file i) [0]) {}
    inWorld { files } (do
      let r ← Scan.Repository.locate "repo"
      let all := r.allFiles [] files
      let scripts := r.allFiles [".py", ".js"] files
      let python ← r.filesOf "python" true "HEAD~1"
      return Json.nat (all.length + scripts.length + python.length)))

/-! ## Contexts -/

/-- A source text with a number in it. -/
def sourceAt (i : Nat) : String :=
  s!"import os\ndef handler_{i}(req):\n    return run(req)\n"

/-- How many contexts are found when each file is asked for two of its lines and cannot be parsed. -/
def contextSlicer : Workload :=
  once "context_slicer" "n_files" [15, 40, 120] (fun n => do
    let files := (List.range n).foldl (fun (fs : Files) i =>
      fs.put s!"src/file_{i}.py" (Text.encodeUtf8 (sourceAt i))) {}
    let asked := (List.range n).flatMap (fun i => [(i, 1), (i, 2)])
    let found ← inWorld { files } (asked.mapM (fun a =>
      Context.extract (.str s!"src/file_{a.1}.py") (Json.nat a.2) "python" Context.defaultAround))
    return Json.nat (found.countP (fun c => (c.get? "context_code").isSome)))

/-! ## Code -/

/-- How many snippets are well formed, if every other one lacks a bracket. -/
def syntaxValidator : Workload :=
  once "syntax_validator" "n_snippets" [50, 200, 800] (fun n => do
    let parse := fun (code : String) =>
      if code.toList.count '(' == code.toList.count ')' then none
      else some (Fix.ParseTrouble.malformed (.int 1) "'(' was never closed")
    let snippets := (List.range n).map (cycled ["x = f(1)", "def g(:"])
    let checked ← inWorld {} (snippets.mapM (fun s => Fix.checkForm parse s "python"))
    return Json.nat (checked.countP Prod.fst))

end SecureReview.Workload
