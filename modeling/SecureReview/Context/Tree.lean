import SecureReview.Text.Case
import SecureReview.Text.Search
import SecureReview.World.Script
/-!
# Searching syntax trees

A place in a tree is a node together with the nodes above it, the nearest first.
-/

namespace SecureReview.Context

/-- A node of a tree with the nodes above it. -/
structure Place where
  node : Node
  above : List Node

/-- The node and the nodes above it, from the inside out. -/
def Place.chain (p : Place) : List Node :=
  p.node :: p.above

/-- The lines of a node include the given row. -/
def covers (row : Num) (start stop : Int) : Bool :=
  Num.le (.int start) row && Num.le row (.int stop)

mutual

/-- The most specific place at a row: the first child that includes the row decides. -/
def findRow (row : Num) (above : List Node) : Node → Option Place
  | .mk type startRow stopRow startByte stopByte text children =>
    let node : Node := .mk type startRow stopRow startByte stopByte text children
    if covers row startRow stopRow then
      match findRowIn row (node :: above) children with
      | some p => some p
      | none => some ⟨node, above⟩
    else none

/-- The most specific place at a row in a list of siblings. -/
def findRowIn (row : Num) (above : List Node) : List Node → Option Place
  | [] => none
  | n :: ns =>
    match findRow row above n with
    | some p => some p
    | none => findRowIn row above ns

end

/-- The place reached by taking children one below the other. -/
def descend : List Nat → Place → Option Place
  | [], p => some p
  | i :: is, p =>
    match p.node.children[i]? with
    | some c => descend is ⟨c, p.node :: p.above⟩
    | none => none

/-- The sorts of nodes that matter in a language. -/
structure Grammar where
  functions : List String := []
  classes : List String := []
  imports : List String := []

/-- The grammar of Python. -/
def python : Grammar where
  functions := ["function_definition", "async_function_definition"]
  classes := ["class_definition"]
  imports := ["import_statement", "import_from_statement"]

/-- The grammar of JavaScript. -/
def javascript : Grammar where
  functions := ["function_declaration", "function_expression", "arrow_function", "method_definition"]
  classes := ["class_declaration", "class_expression"]
  imports := ["import_statement", "import_declaration"]

/-- The grammar of a language, by its full name in any letter case. -/
def grammar (language : String) : Grammar :=
  match Text.lower language with
  | "python" => python
  | "javascript" => javascript
  | _ => {}

/-- The nearest node around a place that is of one of the given sorts. -/
def Place.enclosing? (p : Place) (types : List String) : Option Node :=
  p.chain.find? (fun n => types.contains n.type)

/-- The name of a function or class: its first child that is an identifier. -/
def nameOf? (n : Node) : Option String :=
  (n.children.find? (fun c => c.type == "identifier")).map Node.text

mutual

/-- The nodes of a tree of the given sorts, from the top down. -/
def collect (types : List String) : Node → List Node
  | .mk type startRow stopRow startByte stopByte text children =>
    let below := collectIn types children
    if types.contains type then .mk type startRow stopRow startByte stopByte text children :: below
    else below

/-- The nodes of the given sorts in a list of trees. -/
def collectIn (types : List String) : List Node → List Node
  | [] => []
  | n :: ns => collect types n ++ collectIn types ns

end

/-- The text of a node: the characters between its positions. -/
def textOf (source : List Char) (n : Node) : String :=
  String.ofList (Text.slice source n.startByte n.stopByte)

/-- The first ten imports of a file. -/
def importsOf (g : Grammar) (source : List Char) (root : Node) : List String :=
  ((collect g.imports root).map (textOf source)).take 10

end SecureReview.Context
