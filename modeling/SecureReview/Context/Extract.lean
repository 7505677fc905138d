import SecureReview.Context.Tree
import SecureReview.Failure
import SecureReview.Number.Num
import SecureReview.Text.Search
import SecureReview.World.Basic
/-!
# The context of a finding

The function or the class around a line, with the imports of the file. If the file cannot be parsed,
the context is a window of lines; if it cannot be read, the context tells why.
-/

namespace SecureReview.Context

/-! ## Windows of lines

The lines around a line: some before it, some after it, as far as the text goes. This is the context
of a finding when the structure of its file is not known.
-/

/-- A window: the number of lines before it, and the number of its last line. -/
structure Window where
  skipped : Int
  last : Int

/-- The window around a line of a text with `n` lines. -/
def window (n : Nat) (line around : Int) : Window :=
  ⟨max 0 (line - around - 1), min n (line + around)⟩

/-- The text in a window. -/
def Window.text (w : Window) (lines : List (List Char)) : List Char :=
  Text.join ['\n'] (Text.slice lines w.skipped w.last)

/-- What is said about a window. -/
def Window.report (w : Window) (lines : List (List Char)) (line : Json) : Json :=
  .obj [
    ("target_line", line),
    ("context_start_line", .int (w.skipped + 1)),
    ("context_end_line", .int w.last),
    ("context_code", .str (String.ofList (w.text lines))),
    ("context_type", .str "line_based_fallback")]

/-- The window around a line given by a number with a fraction. It can be cut only where the bounds of
the text replace those of the window. -/
def floatWindow (n : Nat) (line around : Num) : Except Failure Window := do
  let before ← (← line.sub around).sub (.int 1)
  let after ← line.add around
  if Num.lt (.int 0) before || Num.lt after (.int n) then
    throw (.wrongKind "slice indices must be integers or None or have an __index__ method")
  return ⟨0, n⟩

/-- A value that is not a number cannot be counted with. -/
def notCountable (v : Json) : Failure :=
  .wrongKind s!"unsupported operand type(s) for -: '{v.kind}' and 'int'"

/-- The window around a line that may be of any kind. -/
def windowOf (n : Nat) (line : Json) (around : Int) : Except Failure Window :=
  match Num.ofJson? line with
  | some (.int l) => .ok (window n l around)
  | some (.float x) => floatWindow n (.float x) (.int around)
  | none => .error (notCountable line)

/-- The context of a line in a source text. -/
def lineContext (source : String) (line : Json) (around : Int) : Except Failure Json := do
  let lines := Text.feedLines source.toList
  return (← windowOf lines.length line around).report lines line

/-! ## Contexts -/

/-- The languages that can be parsed. -/
def isParsed (language : String) : Bool :=
  ["python", "javascript", "js"].contains (Text.lower language)

/-- Read a source file. Its path may come from anywhere. -/
def readSource (path : Json) (fs : Files) : Except Failure String :=
  match path with
  | .str p => fs.readText p
  | .int _ => .error (.badValue "[Errno 9] Bad file descriptor")
  | .bool _ => .error (.badValue "[Errno 9] Bad file descriptor")
  | v => .error (.wrongKind s!"expected str, bytes or os.PathLike object, not {v.kind}")

/-- The row of a line, which may be of any kind. -/
def rowOf (line : Json) : Except Failure Num :=
  match Num.ofJson? line with
  | some n => n.sub (.int 1)
  | none => .error (notCountable line)

/-- The node that is shown: the function around a place, else the class, else the place itself. -/
def Place.shown (p : Place) (g : Grammar) : Node :=
  ((p.enclosing? g.functions).or (p.enclosing? g.classes)).getD p.node

/-- The context of a place in a tree. -/
def treeContext (path line : Json) (source : List Char) (g : Grammar) (root : Node) (p : Place) :
    Json :=
  let shown := p.shown g
  .obj [
    ("file", path),
    ("target_line", line),
    ("context_start_line", .int (shown.startRow + 1)),
    ("context_end_line", .int (shown.stopRow + 1)),
    ("context_code", .str (textOf source shown)),
    ("context_type", .str shown.type),
    ("function_name", Json.ofString? ((p.enclosing? g.functions).bind nameOf?)),
    ("class_name", Json.ofString? ((p.enclosing? g.classes).bind nameOf?)),
    ("imports", Json.strings (importsOf g source root))]

/-- The context of a line by the structure of its file, or a window if no node includes it. -/
def structured (path line : Json) (language : String) (around : Int) : Run Json := do
  let source ← Run.ofExcept (readSource path (← Run.files))
  if !isParsed language then throw (.badValue s!"Unsupported language: {language}")
  let root ← Run.parseSource
  let row ← Run.ofExcept (rowOf line)
  match findRow row [] root with
  | none => Run.ofExcept (lineContext source line around)
  | some p => return treeContext path line source.toList (grammar language) root p

/-- The context of a line of a file. -/
def extract (path line : Json) (language : String) (around : Int) : Run Json :=
  try
    structured path line language around
  catch e =>
    match readSource path (← Run.files) >>= fun source => lineContext source line around with
    | .ok context => return context
    | .error _ => return .obj [("file", path), ("target_line", line), ("error", .str e.message)]

/-- What a place in a tree lies in, the innermost node of a line, and the imports. -/
def outline (source language : String) (root : Node) (path : List Nat) (line : Json) :
    Except Failure Json := do
  let g := grammar language
  match descend path ⟨root, []⟩ with
  | none => throw (.outOfRange "list index out of range")
  | some p =>
    let f := p.enclosing? g.functions
    let c := p.enclosing? g.classes
    let row ← rowOf line
    return .obj [
      ("function", Json.ofString? (f.bind nameOf?)),
      ("class", Json.ofString? (c.bind nameOf?)),
      ("function_type", Json.ofString? (f.map Node.type)),
      ("class_type", Json.ofString? (c.map Node.type)),
      ("found", match findRow row [] root with
        | some q => .arr [.str q.node.type, .int q.node.startByte, .int q.node.stopByte]
        | none => .null),
      ("imports", Json.strings (importsOf g source.toList root))]

/-- How many lines are shown around a line unless told otherwise. -/
def defaultAround : Int := 10

end SecureReview.Context
