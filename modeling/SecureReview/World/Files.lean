import SecureReview.Path
import SecureReview.Text.Utf8
import SecureReview.Text.Lines
import SecureReview.Failure
/-!
# Files

A tree of files seen as a list of paths with their bytes. Directories are the paths above files, and
those that were made empty. Every path is taken relative to one working directory.
-/

namespace SecureReview

/-- The files, by normal path, and the directories made without files. -/
structure Files where
  entries : List (String × List UInt8) := []
  made : List String := []

namespace Files

/-- Resolve the `..` components of a path as far as possible. -/
def resolve : List String → List String → List String
  | done, [] => done.reverse
  | done, c :: cs =>
    if c == ".." then
      match done with
      | d :: ds => if d == ".." then resolve (".." :: done) cs else resolve ds cs
      | [] => resolve [".."] cs
    else resolve (c :: done) cs

/-- The path under which a file is kept. -/
def key (p : String) : String :=
  Path.build (Path.rootOf p) (resolve [] (Path.components p))

/-- The bytes of a file. -/
def get? (fs : Files) (p : String) : Option (List UInt8) :=
  fs.entries.lookup (key p)

/-- There is a file with this path. -/
def isFile (fs : Files) (p : String) : Bool :=
  (fs.get? p).isSome

/-- The components of `q` below the directory `d`. -/
def relative (d q : String) : List String :=
  (Path.components q).drop (Path.components d).length

/-- The path `q` lies strictly below the directory `d`: it goes on where that ends, and not back. -/
def isBelow (d q : String) : Bool :=
  Path.rootOf q == Path.rootOf d && (Path.components d).isPrefixOf (Path.components q) &&
    match relative d q with
    | [] => false
    | c :: _ => c != ".."

/-- There is a directory with this path. -/
def isDir (fs : Files) (p : String) : Bool :=
  let k := key p
  k == "." || k == "/" || k == "/tmp" || fs.made.contains k ||
    fs.entries.any (fun e => isBelow k e.1) || fs.made.any (isBelow k)

/-- Every directory that a path goes back from is there. -/
def isPassable (fs : Files) (p : String) : Bool :=
  let cs := Path.components p
  (List.range cs.length).all (fun n => cs[n]? == some ".." || cs[n + 1]? != some ".." ||
    fs.isDir (Path.build (Path.rootOf p) (cs.take (n + 1))))

/-- The path leads to a file. -/
def hasFile (fs : Files) (p : String) : Bool :=
  fs.isPassable p && fs.isFile p

/-- The path leads to a directory. -/
def hasDir (fs : Files) (p : String) : Bool :=
  fs.isPassable p && fs.isDir p

/-- There is a file or a directory with this path. -/
def has (fs : Files) (p : String) : Bool :=
  fs.isPassable p && (fs.isFile p || fs.isDir p)

/-- The size from which on a path is too long to be looked up, in bytes. -/
def pathLimit : Nat := 4096

/-- The size of the longest name, in bytes. -/
def nameLimit : Nat := 255

/-- Why the system refuses to look up a path, if it does. The way is gone as far as there are
directories, and stops at the first that is among the `closed` ones, which may not be searched, or
that would have to be searched for too long a name. -/
def obstacle? (fs : Files) (closed : List String) (p : String) : Option Failure :=
  let cs := Path.components p
  if pathLimit ≤ p.utf8ByteSize then some (.nameTooLong p)
  else
    (List.range cs.length).findSome? (fun n =>
      let dir := Path.build (Path.rootOf p) (cs.take n)
      if !fs.hasDir dir then none
      else if closed.contains (key dir) then some (.denied p)
      else if nameLimit < (cs.getD n "").utf8ByteSize then some (.nameTooLong p)
      else none)

/-- Look up a path, and ask something of what is there. -/
def look (fs : Files) (closed : List String) (question : Files → String → Bool) (p : String) :
    Except Failure Bool :=
  match fs.obstacle? closed p with
  | some e => .error e
  | none => .ok (question fs p)

/-- Some directory on the way to a path is a file. -/
def isBlocked (fs : Files) (p : String) : Bool :=
  let cs := Path.components p
  (List.range cs.length).any (fun n => fs.isFile (Path.build (Path.rootOf p) (cs.take n))) ||
    Text.endsWith p "/" && fs.isFile p

/-- Read the bytes of a file. -/
def read (fs : Files) (p : String) : Except Failure (List UInt8) :=
  if p == "" then .error (.noFile p)
  else if p.toList.contains (Char.ofNat 0) then .error (.badValue "embedded null byte")
  else if fs.isBlocked p then .error (.notDirectory p)
  else if !fs.isPassable p then .error (.noFile p)
  else
    match fs.get? p with
    | some bytes => .ok bytes
    | none => if fs.isDir p then .error (.isDirectory p) else .error (.noFile p)

/-- Read a text file; every line end becomes a line feed. -/
def readText (fs : Files) (p : String) : Except Failure String := do
  let bytes ← fs.read p
  match Text.decodeUtf8 bytes with
  | .ok s => return String.ofList (Text.normalizeNewlines s.toList)
  | .error flaw => throw (.badEncoding flaw.message)

/-- Read a text file as it is written. -/
def readExact (fs : Files) (p : String) : Except Failure String := do
  let bytes ← fs.read p
  match Text.decodeUtf8 bytes with
  | .ok s => return s
  | .error flaw => throw (.badEncoding flaw.message)

/-- Set the bytes of the file with normal path `k`: in place, or at the end. -/
def setEntry (k : String) (bytes : List UInt8) :
    List (String × List UInt8) → List (String × List UInt8)
  | [] => [(k, bytes)]
  | e :: es => if e.1 == k then (k, bytes) :: es else e :: setEntry k bytes es

/-- Put a file in place, making the directories above it. -/
def put (fs : Files) (p : String) (bytes : List UInt8) : Files :=
  { fs with entries := setEntry (key p) bytes fs.entries }

/-- Write a file whose directory must exist. -/
def write (fs : Files) (p : String) (bytes : List UInt8) : Except Failure Files :=
  if !fs.isPassable p then .error (if fs.isBlocked p then .notDirectory p else .noFile p)
  else if fs.isDir p || Text.endsWith p "/" then .error (.isDirectory p)
  else if fs.isDir (Path.parent (key p)) then .ok (fs.put p bytes)
  else .error (.noFile p)

/-- Write a text file. -/
def writeText (fs : Files) (p : String) (s : String) : Except Failure Files :=
  fs.write p (Text.encodeUtf8 s)

/-- Remove a file. -/
def remove (fs : Files) (p : String) : Files :=
  { fs with entries := fs.entries.filter (fun e => e.1 != key p) }

/-- Remove a file, which must be there. -/
def unlink (fs : Files) (p : String) : Except Failure Files :=
  if fs.isFile p then .ok (fs.remove p)
  else if fs.isDir p then .error (.isDirectory p)
  else .error (.noFile p)

/-- Remove a directory with everything below it. -/
def removeTree (fs : Files) (p : String) : Files :=
  let k := key p
  { entries := fs.entries.filter (fun e => !isBelow k e.1)
    made := fs.made.filter (fun d => d != k && !isBelow k d) }

/-- Make a directory and those above it. -/
def makeDir (fs : Files) (p : String) : Files :=
  if fs.isDir p then fs else { fs with made := fs.made ++ [key p] }

/-- Insert a name into an increasing list, unless it is there. -/
def insertName (n : String) : List String → List String
  | [] => [n]
  | m :: ms => if n == m then m :: ms else if n < m then n :: m :: ms else m :: insertName n ms

/-- The names in a directory, in increasing order. -/
def names (fs : Files) (d : String) : List String :=
  let k := key d
  let paths := fs.entries.map (·.1) ++ fs.made
  (paths.filter (isBelow k)).foldl (fun ns q =>
    match relative k q with
    | [] => ns
    | n :: _ => insertName n ns) []

/-- The order in which a tree is visited: the files of a directory by name, then its directories by
name, each with all it holds. -/
def visitedBefore : List String → List String → Bool
  | [], _ => true
  | _, [] => false
  | [a], [b] => !decide (b < a)
  | [_], _ :: _ :: _ => true
  | _ :: _ :: _, [_] => false
  | a :: as, b :: bs => if a == b then visitedBefore as bs else !decide (b < a)

/-- The files below a directory, as components relative to it, in the order of a visit. -/
def visit (fs : Files) (d : String) : List (List String) :=
  let k := key d
  if fs.isPassable d then
    ((fs.entries.filter (fun e => isBelow k e.1)).map (fun e => relative k e.1)).mergeSort
      visitedBefore
  else []

/-- The directories below a directory, as components relative to it. -/
def directories (fs : Files) (d : String) : List (List String) :=
  let k := key d
  let above := fun (q : List String) => (List.range q.length).map (fun n => q.take n)
  let fromFiles := (fs.entries.filter (fun e => isBelow k e.1)).flatMap (fun e => above (relative k e.1))
  let fromMade := (fs.made.filter (isBelow k)).flatMap
    (fun q => above (relative k q) ++ [relative k q])
  if fs.isPassable d then ((fromFiles ++ fromMade).filter (fun q => !q.isEmpty)).eraseDups else []

/-- The paths of everything below a directory whose name has the given ending, in the order of a
visit. -/
def glob (fs : Files) (d ending : String) : List String :=
  let hits := (fs.visit d ++ fs.directories d).filter
    (fun q => Text.endsWith (q.getLast?.getD "") ending)
  (hits.mergeSort visitedBefore).map (fun q => Path.below d (Text.joinWith "/" q))

end Files

end SecureReview
