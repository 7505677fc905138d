import SecureReview.Text.Case
import SecureReview.Text.Search
/-!
# Paths

A path is a text. Its normal form has no empty and no `.` components, and the path of the current
directory is `.`.
-/

namespace SecureReview.Path

/-- The components of a path, without empty ones and without `.`. -/
def components (p : String) : List String :=
  (Text.split p "/").filter (fun c => c != "" && c != ".")

/-- What an absolute path starts with: two slashes are kept, more count as one. -/
def rootOf (p : String) : String :=
  if Text.startsWith p "///" then "/"
  else if Text.startsWith p "//" then "//"
  else if Text.startsWith p "/" then "/"
  else ""

/-- A path made of a root and components. -/
def build (root : String) (parts : List String) : String :=
  if root == "" && parts.isEmpty then "." else root ++ Text.joinWith "/" parts

/-- The normal form of a path. -/
def normal (p : String) : String :=
  build (rootOf p) (components p)

/-- The last component. -/
def name (p : String) : String :=
  (components p).getLast?.getD ""

/-- The path without its last component. -/
def parent (p : String) : String :=
  build (rootOf p) (components p).dropLast

/-- The normal form of `q` below the directory `p`; an absolute `q` stands for itself. -/
def below (p q : String) : String :=
  if Text.startsWith q "/" then normal q
  else build (rootOf p) (components p ++ components q)

/-- The ending of a name, from its last dot. A dot at either end of the name does not count. -/
def suffixOfName (n : String) : String :=
  match Text.lastIndex? '.' n.toList with
  | some i => if 0 < i && i + 1 < n.length then Text.drop n i else ""
  | none => ""

/-- The ending of the last component of a path. -/
def suffix (p : String) : String :=
  suffixOfName (name p)

/-- The path with another ending of its last component. -/
def withSuffix (p new : String) : String :=
  let n := name p
  let stem := Text.take n (n.length - (suffixOfName n).length)
  build (rootOf p) ((components p).dropLast ++ [stem ++ new])

/-- The ending of a path as written: from the last dot after the last slash, dots that begin the name
not counted. -/
def extension (p : String) : String :=
  let t := p.toList
  let base := (t.reverse.takeWhile (· != '/')).reverse
  match Text.lastIndex? '.' (base.dropWhile (· == '.')) with
  | some i => String.ofList ((base.dropWhile (· == '.')).drop i)
  | none => ""

/-- Two paths written one after the other with a slash between them; an absolute second path stands
for itself. -/
def join (p q : String) : String :=
  if Text.startsWith q "/" then q
  else if p == "" || Text.endsWith p "/" then p ++ q
  else p ++ "/" ++ q

end SecureReview.Path

/-! ## Languages of files

The language of a source file by the ending of its name. The fixer and the scanners have tables of
their own and cut off the ending in different ways.
-/

namespace SecureReview.Language

/-- Endings known to the fixer. -/
def fixerEndings : List (String × String) :=
  [(".py", "python"), (".js", "javascript"), (".ts", "typescript"), (".go", "go"), (".rs", "rust"),
   (".java", "java"), (".rb", "ruby"), (".php", "php")]

/-- The language of a file that is to be fixed. -/
def ofFixed (path : String) : String :=
  (fixerEndings.lookup (Text.lower (Path.suffix path))).getD "unknown"

/-- Endings known to the scanners. -/
def scannerEndings : List (String × String) :=
  [(".py", "python"), (".js", "javascript"), (".jsx", "javascript"),
   (".ts", "typescript"), (".tsx", "typescript"), (".go", "go"), (".rs", "rust")]

/-- The language of a file that is to be scanned. -/
def ofScanned? (path : String) : Option String :=
  scannerEndings.lookup (Text.lower (Path.extension path))

end SecureReview.Language
