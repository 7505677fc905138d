import SecureReview.Digest.Sha256
import SecureReview.Json.Loose
import SecureReview.Text.Blank
import SecureReview.World.Basic
/-!
# Changed files

Which files of a repository have to be scanned: those changed since a reference, or all of them if
version control cannot tell.
-/

namespace SecureReview.Scan

/-- A repository, and whether it is under version control. -/
structure Repository where
  path : String
  isTracked : Bool

namespace Repository

/-- Look at a directory. -/
def locate (path : String) : Run Repository := do
  let p := Path.normal path
  let tracked ← try
      let out ← Run.process {
        words := ["git", "rev-parse", "--git-dir"], cwd := some p, timeout := some 5 }
      pure (out.code == 0)
    catch _ => pure false
  return ⟨p, tracked⟩

/-- What marks a directory as ignored, wherever it stands in its path. -/
def ignored : List String :=
  [".git", "node_modules", "__pycache__", ".venv", "venv"]

/-- The directory is ignored. -/
def isIgnored (dir : String) : Bool :=
  ignored.any (Text.contains dir)

/-- The name has one of the endings; without endings every name does. -/
def hasEnding (endings : List String) (name : String) : Bool :=
  endings.isEmpty || endings.any (Text.endsWith name)

/-- The path that is reached from the repository by going on from name to name. -/
def reach (r : Repository) (names : List String) : String :=
  names.foldl Path.join r.path

/-- All files with one of the endings that are in no ignored directory. -/
def allFiles (r : Repository) (endings : List String) (fs : Files) : List String :=
  let kept := (fs.visit r.path).filter (fun q =>
    !isIgnored (r.reach q.dropLast) && hasEnding endings (q.getLast?.getD ""))
  kept.map r.reach

/-- The files in a list of names that have one of the endings and are there. -/
def present (r : Repository) (endings : List String) (fs : Files) (output : String) : List String :=
  let names := (Text.lines (Text.strip output)).filter (fun f => f != "" && hasEnding endings f)
  (names.map (Path.below r.path)).filter fs.has

/-- The files changed since a reference. -/
def changedFiles (r : Repository) (base : String) (endings : List String) : Run (List String) := do
  let all : Run (List String) := do return r.allFiles endings (← Run.files)
  if !r.isTracked then all
  else
    try
      let out ← Run.process {
        words := ["git", "diff", "--name-only", base, "HEAD"], cwd := some r.path,
        timeout := some 10 }
      if out.code != 0 then all
      else return r.present endings (← Run.files) out.stdout
    catch _ => all

end Repository

/-- The hash of the content of a file; empty if there is none. -/
def contentHash (fs : Files) (path : String) : String :=
  match fs.read path with
  | .ok bytes => Sha256.hex (Sha256.hash bytes)
  | .error _ => ""

/-- The endings of the files of a language. -/
def languageEndings : List (String × List String) :=
  [("python", [".py"]), ("javascript", [".js", ".jsx"]), ("typescript", [".ts", ".tsx"]),
   ("go", [".go"]), ("rust", [".rs"])]

/-- The files of a language with the hashes of their contents. -/
def Repository.filesOf (r : Repository) (language : String) (onlyChanged : Bool) (base : String) :
    Run (List (String × String)) := do
  match languageEndings.lookup (Text.lower language) with
  | none => return []
  | some endings =>
    let paths ←
      if onlyChanged then r.changedFiles base endings
      else pure (r.allFiles endings (← Run.files))
    let fs ← Run.files
    return (paths.map (fun p => (p, contentHash fs p))).filter (fun e => e.2 != "")

/-- A file has to be scanned if it is there and its content is not the one already seen. -/
def needsScan (fs : Files) (path : String) (seen : Option String) : Bool :=
  path != "" && fs.has path &&
    match seen with
    | none => true
    | some h => contentHash fs path != h

end SecureReview.Scan
