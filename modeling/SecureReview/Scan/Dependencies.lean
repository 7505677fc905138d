import SecureReview.Json.Loose
import SecureReview.Text.Blank
import SecureReview.World.Basic
/-!
# Dependencies

Known vulnerabilities in the dependencies of a project, by one tool per ecosystem. A project may use
several ecosystems; each is recognised by the files that it leaves in a project. Within the report of
a tool, the findings before the first entry that cannot be read are kept.
-/

namespace SecureReview.Scan.Dependencies

/-- The results of a function on the items before the first failure. -/
def untilFailure {α β : Type} (f : α → Except Failure β) : List α → List β
  | [] => []
  | x :: xs =>
    match f x with
    | .ok y => y :: untilFailure f xs
    | .error _ => []

/-- A severity in one of three levels. -/
def severity (s : String) : String :=
  let u := Text.upper s
  if u == "CRITICAL" || u == "HIGH" then "HIGH"
  else if u == "MEDIUM" || u == "MODERATE" then "MEDIUM"
  else if u == "LOW" || u == "INFO" then "LOW"
  else "MEDIUM"

/-- A finding on a dependency. -/
def finding (file : String) (severity rule description cve package version fixed : Json)
    (tool : String) : Json :=
  .obj [
    ("file", .str file),
    ("line", .int 1),
    ("severity", severity),
    ("rule_id", rule),
    ("description", description),
    ("cve", cve),
    ("package", package),
    ("version", version),
    ("fixed_version", fixed),
    ("tool", .str tool)]

/-- The report of a tool as a list of entries; a report that cannot be read has none. -/
def entries {α : Type} (r : Except Failure (List α)) : List α :=
  match r with
  | .ok xs => xs
  | .error _ => []

/-! ## Python -/

/-- The finding on a vulnerability in the report. -/
def pythonFinding (v : Json) : Except Failure Json := do
  let level ← (← v.getD "severity" (.str "MEDIUM")).asString "upper"
  let id ← v.get "id"
  let name ← v.get "name"
  let version ← v.get "version"
  let fixed ← (← v.getD "fix_versions" (.arr [.null])).first
  return finding "requirements.txt" (.str (severity level)) (← v.getD "id" (.str "UNKNOWN"))
    (.str s!"Vulnerable dependency: {name.display} {version.display}") id name version fixed
    "pip-audit"

/-- The entries of the report, which may be missing if the tool was content. -/
def pythonEntries (code : Int) (output : String) : Except Failure (List Json) := do
  if code != 0 && output == "" then return []
  let report ← if output == "" then pure (.obj []) else Json.read output
  (← report.getD "vulnerabilities" (.arr [])).items

/-- Scan the requirements of a project. -/
def python (path : String) : Run (List Json) :=
  try
    let out ← Run.process {
      words := ["pip-audit", "--format", "json", "--requirement", "requirements.txt"],
      cwd := some path, timeout := some 60 }
    return untilFailure pythonFinding (entries (pythonEntries out.code out.stdout))
  catch _ => return []

/-! ## JavaScript -/

/-- The finding on a package and what the report says of it. -/
def javascriptFinding (e : String × Json) : Except Failure Json := do
  let (package, v) := e
  let level ← (← v.getD "severity" (.str "medium")).uppered
  let via ← (← v.getD "via" (.arr [.obj []])).first
  let rule := (← via.getD "cve" (.str "UNKNOWN")).display
  let fixed ← (← v.getD "fixAvailable" (.obj [])).get "version"
  return finding "package.json" (.str level) (.str s!"NPM-{rule}")
    (.str s!"Vulnerable dependency: {package}") (← via.get "cve") (.str package)
    (← v.getD "range" (.str "unknown")) fixed "npm-audit"

/-- The packages in the report; an empty report has none. -/
def javascriptEntries (output : String) : Except Failure Fields := do
  if output == "" then return []
  (← (← Json.read output).getD "vulnerabilities" (.obj [])).asFields "items"

/-- Scan the packages of a project. -/
def javascript (path : String) : Run (List Json) :=
  try
    let out ← Run.process { words := ["npm", "audit", "--json"], cwd := some path, timeout := some 60 }
    return untilFailure javascriptFinding (entries (javascriptEntries out.stdout))
  catch _ => return []

/-! ## Go -/

/-- The finding on a vulnerability in the report. All count as high. -/
def goFinding (v : Json) : Except Failure Json := do
  return finding "go.mod" (.str "HIGH") (← v.getD "osv" (.str "UNKNOWN"))
    (← v.getD "description" (.str "Vulnerable Go dependency")) (← v.get "osv") (← v.get "module")
    (← v.get "found") (← v.get "fixed") "govulncheck"

/-- The findings on one line of output; a line that is not JSON has none. -/
def goLine (line : String) : Except Failure (List Json) :=
  match Json.parseString line with
  | .error _ => .ok []
  | .ok data => do
    let v ← data.get "finding"
    if v.truthy then return [← goFinding v] else return []

/-- The lines of output that hold something. -/
def goLines (output : String) : List String :=
  (Text.lines (Text.strip output)).filter (· != "")

/-- Scan the modules of a project. -/
def go (path : String) : Run (List Json) :=
  try
    let out ← Run.process {
      words := ["govulncheck", "-json", "./..."], cwd := some path, timeout := some 120 }
    return (untilFailure goLine (goLines out.stdout)).flatten
  catch _ => return []

/-! ## Rust -/

/-- The finding on a vulnerability in the report. All count as high. -/
def rustFinding (v : Json) : Except Failure Json := do
  let advisory ← v.getD "advisory" (.obj [])
  let package ← v.getD "package" (.obj [])
  let fixed ← (← advisory.getD "patched_versions" (.arr [.null])).first
  return finding "Cargo.toml" (.str "HIGH") (← advisory.getD "id" (.str "UNKNOWN"))
    (← advisory.getD "title" (.str "Vulnerable Rust dependency")) (← advisory.get "id")
    (← package.get "name") (← package.get "version") fixed "cargo-audit"

/-- The vulnerabilities in the report; an empty report has none. -/
def rustEntries (output : String) : Except Failure (List Json) := do
  if output == "" then return []
  let report ← (← Json.read output).getD "vulnerabilities" (.obj [])
  (← report.getD "list" (.arr [])).items

/-- Scan the crates of a project. -/
def rust (path : String) : Run (List Json) :=
  try
    let out ← Run.process { words := ["cargo", "audit", "--json"], cwd := some path, timeout := some 60 }
    return untilFailure rustFinding (entries (rustEntries out.stdout))
  catch _ => return []

/-! ## Java -/

/-- Where the report is written. -/
def javaReportPath : String := "/tmp/dependency-check-report.json"

/-- The finding on a vulnerability of a dependency. -/
def javaFinding (dependency v : Json) : Except Failure Json := do
  return finding "pom.xml" (← v.getD "severity" (.str "MEDIUM")) (← v.getD "name" (.str "UNKNOWN"))
    (← v.getD "description" (.str "Vulnerable Java dependency")) (← v.get "name")
    (← dependency.get "fileName") (.str "unknown") .null "dependency-check"

/-- The findings on the vulnerabilities before the first that cannot be read, and whether all could
be. -/
def javaDependency (d : Json) : List Json × Bool :=
  match d.getD "vulnerabilities" (.arr []) >>= Json.items with
  | .error _ => ([], false)
  | .ok vs =>
    let found := untilFailure (javaFinding d) vs
    (found, found.length == vs.length)

/-- The findings on the dependencies of a report up to the first trouble, and whether there was none. -/
def javaDependencies : List Json → List Json × Bool
  | [] => ([], true)
  | d :: ds =>
    match javaDependency d with
    | (found, false) => (found, false)
    | (found, true) =>
      let (more, all) := javaDependencies ds
      (found ++ more, all)

/-- The entries of the report. -/
def javaEntries (text : String) : Except Failure (List Json) := do
  (← (← Json.read text).getD "dependencies" (.arr [])).items

/-- The command for a project. -/
def javaCommand (path : String) : Command where
  words := ["dependency-check", "--project", "scan", "--scan", path, "--format", "JSON", "--out",
    javaReportPath]
  timeout := some 300

/-- Read the report that the tool may have left, and remove it once it was read to its end. -/
def takeJavaReport : Run (List Json) := do
  let fs ← Run.files
  if !fs.has javaReportPath then return []
  let text ← Run.ofExcept (fs.readText javaReportPath)
  let (found, all) := javaDependencies (← Run.ofExcept (javaEntries text))
  if all then Run.setFiles (← Run.ofExcept (fs.unlink javaReportPath))
  return found

/-- Scan the libraries of a project. -/
def java (path : String) : Run (List Json) :=
  try
    let _ ← Run.process (javaCommand path)
    takeJavaReport
  catch _ => return []

/-! ## All ecosystems -/

/-- An ecosystem: the files that show it, and its scan. -/
structure Ecosystem where
  signs : List String
  scan : String → Run (List Json)

/-- The ecosystems, in the order in which they are scanned. -/
def ecosystems : List Ecosystem :=
  [⟨["requirements.txt", "pyproject.toml"], python⟩, ⟨["package.json"], javascript⟩,
   ⟨["go.mod"], go⟩, ⟨["Cargo.toml"], rust⟩, ⟨["pom.xml", "build.gradle"], java⟩]

/-- Some of these files are in a directory. None is looked up after the first that is there. -/
def looksAny (fs : Files) (closed : List String) (dir : String) : List String → Except Failure Bool
  | [] => .ok false
  | s :: ss => do
    if ← fs.look closed Files.has (Path.below dir s) then return true
    else looksAny fs closed dir ss

/-- The project uses the ecosystem. -/
def Ecosystem.isUsed (e : Ecosystem) (path : String) : Run Bool := do
  let w ← get
  Run.ofExcept (looksAny w.files w.closed path e.signs)

/-- Scan the ecosystems of a list that a project uses. -/
def scanEach (path : String) : List Ecosystem → Run (List Json)
  | [] => return []
  | e :: es => do
    let found ← if ← e.isUsed path then e.scan path else pure []
    return found ++ (← scanEach path es)

/-- Scan the dependencies of a project. -/
def scan (path : String) : Run (List Json) :=
  scanEach (Path.normal path) ecosystems

end SecureReview.Scan.Dependencies
