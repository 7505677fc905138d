import SecureReview.Json.Loose
import SecureReview.Scan.Trouble
/-!
# SpotBugs

Findings in Java code. The tool reads compiled classes, so files and projects are built first.
-/

namespace SecureReview.Scan.Spotbugs

/-- Where the report is written. -/
def reportPath : String := "/tmp/spotbugs-output.xml"

/-- The severity of a priority. -/
def severity (priority : String) : String :=
  if priority == "1" then "HIGH" else if priority == "2" then "MEDIUM" else "LOW"

/-- The finding for one bug of the report. -/
def finding (bug : Xml.Element) : Except Failure Json := do
  let type := (bug.get? "type").getD "UNKNOWN"
  let (file, line) ← match bug.find? "SourceLine" with
    | some l => do pure ((l.get? "sourcepath").getD "unknown", ← numberIn l "start")
    | none => pure ("unknown", 1)
  let description := match bug.find? "LongMessage" with
    | some m => Json.ofString? m.text
    | none => .str type
  return .obj [
    ("file", .str file),
    ("line", .int line),
    ("severity", .str (severity ((bug.get? "priority").getD "3"))),
    ("rule_id", .str type),
    ("description", description),
    ("category", .str ((bug.get? "category").getD "UNKNOWN")),
    ("tool", .str "spotbugs")]

/-- The findings in a report. -/
def read (text : String) : Except Failure (List Json) :=
  readXml text "SpotBugs" "spotbugs" (fun root => (root.findAll "BugInstance").mapM finding)

/-- The command line for some classes. -/
def command (classes : List String) : List String :=
  ["spotbugs", "-textui", "-xml:withMessages", "-output", reportPath, "-effort:max", "-low"] ++ classes

/-- Run the tool on compiled classes. -/
def scanClasses (classes : List String) : Run (List Json) :=
  let file := classes.headD "unknown"
  try
    let _ ← Run.process { words := command classes, timeout := some 120 }
    takeReport reportPath read
  catch e =>
    match e with
    | .timedOut .. => return [trouble file "TIMEOUT" "SpotBugs scan timeout exceeded" "spotbugs"]
    | e => return [trouble file "SCAN_ERROR" s!"SpotBugs scan error: {e.message}" "spotbugs"]

/-- Run the tool on the classes below a directory, if there are any. -/
def scanDirectory (dir : String) : Run (List Json) := do
  let classes := (← Run.files).glob dir ".class"
  if classes.isEmpty then return [] else scanClasses classes

/-- Compile one file and run the tool on its class, which is removed afterwards. -/
def scanFile (path : String) : Run (List Json) :=
  try
    let out ← Run.process { words := ["javac", path], timeout := some 60 }
    if out.code != 0 then
      return [trouble path "COMPILATION_ERROR" s!"Compilation failed: {out.stderr}" "javac"]
    let compiled := Path.withSuffix path ".class"
    if !(← Run.look Files.has compiled) then return []
    let findings ← scanClasses [compiled]
    Run.setFiles (← Run.ofExcept ((← Run.files).unlink compiled))
    return findings
  catch e =>
    match e with
    | .timedOut .. => return [trouble path "TIMEOUT" "Compilation timeout exceeded" "javac"]
    | e => return [trouble path "SCAN_ERROR" s!"Scan error: {e.message}" "spotbugs"]

/-- How a project is built. -/
structure Build where
  title : String
  tool : String
  /-- The file that troubles are reported in. -/
  file : String
  /-- The command line for a project. -/
  words : String → Run (List String)
  classes : String

/-- Build a project and run the tool on its classes. -/
def Build.scan (b : Build) (project : String) : Run (List Json) :=
  let file := Path.below project b.file
  try
    let out ← Run.process { words := ← b.words project, cwd := some project, timeout := some 300 }
    if out.code != 0 then
      return [trouble file "BUILD_ERROR" s!"{b.title} build failed: {out.stderr}" b.tool]
    let classes := Path.below project b.classes
    if ← Run.look Files.has classes then scanDirectory classes else return []
  catch e =>
    match e with
    | .timedOut .. => return [trouble file "TIMEOUT" s!"{b.title} build timeout exceeded" b.tool]
    | e => return [trouble file "SCAN_ERROR" s!"Scan error: {e.message}" b.tool]

/-- A Maven build. -/
def maven : Build where
  title := "Maven"
  tool := "maven"
  file := "pom.xml"
  words := fun _ => return ["mvn", "clean", "compile", "-DskipTests"]
  classes := "target/classes"

/-- A Gradle build, by the wrapper of the project if it has one. -/
def gradle : Build where
  title := "Gradle"
  tool := "gradle"
  file := "build.gradle"
  words := fun project => do
    let wrapped ← Run.look Files.has (Path.below project "gradlew")
    return [if wrapped then "./gradlew" else "gradle", "clean", "build", "-x", "test"]
  classes := "build/classes"

/-- Scan a project: by the build tool it uses, or the classes that are there. -/
def scanProject (project : String) : Run (List Json) := do
  let there := fun (f : String) => Run.look Files.has (Path.below project f)
  if ← there "pom.xml" then maven.scan project
  else if ← there "build.gradle" then gradle.scan project
  else if ← there "build.gradle.kts" then gradle.scan project
  else scanDirectory project

/-- Scan a file or a project. -/
def scan (path : String) : Run (List Json) := do
  let p := Path.normal path
  if ← Run.look Files.hasFile p then scanFile p
  else if ← Run.look Files.hasDir p then scanProject p
  else return []

end SecureReview.Scan.Spotbugs
