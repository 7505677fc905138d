import SecureReview.Number.Whole
import SecureReview.World.Basic
/-!
# Workloads

A workload exercises one part of the program at a chosen size and answers with a small summary of what
came out, so that two runs can be compared. What a run leaves behind is there for the next one.
-/

namespace SecureReview

/-- A workload of adjustable size. -/
structure Workload where
  name : String
  /-- The name of its size. -/
  parameter : String
  /-- The sizes at which it is usually run. -/
  sizes : List Nat
  /-- What is kept from run to run. -/
  State : Type
  start : State
  run : Nat → State → Except Failure Json × State

namespace Workload

/-- A workload that keeps nothing. -/
def once (name parameter : String) (sizes : List Nat) (f : Nat → Except Failure Json) : Workload where
  name
  parameter
  sizes
  State := Unit
  start := ()
  run n _ := (f n, ())

/-- The summaries of several runs from a state. -/
def runsFrom (w : Workload) (n : Nat) : Nat → w.State → List (Except Failure Json)
  | 0, _ => []
  | k + 1, s =>
    let (a, s) := w.run n s
    a :: runsFrom w n k s

/-- The summaries of so many runs of a size. -/
def runs (w : Workload) (n k : Nat) : List (Except Failure Json) :=
  w.runsFrom n k w.start

/-- The usual sizes as named parameters. -/
def usual (w : Workload) : Json :=
  .arr (w.sizes.map (fun n => .obj [(w.parameter, Json.nat n)]))

/-- The size that named parameters ask for. -/
def sizeOf (w : Workload) (params : Fields) : Except Failure Nat :=
  match params with
  | [(k, .int n)] => if k == w.parameter then .ok n.toNat else .error (.wrongKind "wrong arguments")
  | _ => .error (.wrongKind "wrong arguments")

/-- Let an operation run in a world of its own. -/
def inWorld {α : Type} (w : World) (act : Run α) : Except Failure α :=
  (act.run.run w).1

/-- The number of places that hold for all members up to a size. -/
def countUpTo (n : Nat) (p : Nat → Bool) : Nat :=
  (List.range n).countP p

/-- The sum of a quantity over all members up to a size. -/
def sumUpTo (n : Nat) (f : Nat → Except Failure Nat) : Except Failure Nat := do
  return Number.total (← (List.range n).mapM f)

/-- A sum of money or of scores, to six places. -/
def sixPlaces : Num → Json
  | .int n => .int n
  | .float x => .float (Number.roundTo x 6)

/-- The entry of a cycle at a place. -/
def cycled (xs : List String) (i : Nat) : String :=
  xs.getD (i % xs.length) ""

end Workload

end SecureReview

/-! ## Sample findings

Findings of many kinds, made up for measuring. The parts of a finding go round in cycles of different
lengths, so that many combinations occur.
-/

namespace SecureReview.Workload

/-- The rules that are reported, in turn. -/
def rules : List String :=
  ["B303", "B608", "B105", "G201", "no-eval", "clippy::unsafe_code", "B602", "B301", "G401",
   "no-danger"]

/-- The severities, in turn. -/
def severities : List String := ["CRITICAL", "HIGH", "MEDIUM", "LOW"]

/-- The tools, in turn. -/
def tools : List String := ["bandit", "eslint", "gosec"]

/-- The descriptions, in turn. -/
def descriptions : List String :=
  ["sql injection in query builder",
   "hardcoded secret key discovered",
   "weak crypto md5 used for password",
   "personal email pii leaked in log",
   "phi patient health record exposed",
   "missing auth check on endpoint",
   "encrypt data at rest missing",
   "audit log not written for access"]

/-- The endings of file names, in turn. -/
def endings : List String :=
  [".py", ".js", ".ts", ".go", ".rs", ".java", ".rb", ".php", ".cpp"]

/-- The context of a sample finding. -/
def context (i : Nat) : Json :=
  .obj [
    ("function_name", .str s!"handler_{i}"),
    ("class_name", .null),
    ("imports", Json.strings ["import os", "import hashlib"]),
    ("context_code", .str (s!"def handler_{i}(req):\n" ++
      "    api_key = \"AAAAAAAAAAAAAAAAAAAAAAAA\"\n" ++
      "    q = f\"SELECT * FROM t WHERE id=\x7breq.id\x7d\"\n" ++
      "    return db.exec(q)\n"))]

/-- A sample finding. -/
def finding (i : Nat) : Json :=
  let ending := cycled endings i
  .obj [
    ("id", Json.nat i),
    ("file", .str s!"/home/user{i % 3}/proj/src/module_{i}{ending}"),
    ("line", Json.nat (10 + i % 90)),
    ("severity", .str (cycled severities i)),
    ("rule_id", .str (cycled rules i)),
    ("description", .str (cycled descriptions i)),
    ("tool", .str (cycled tools i)),
    ("code", .str s!"password = 'secret_{i}'; run(user_input_{i})"),
    ("context", context i)]

/-- The first so many sample findings. -/
def findings (n : Nat) : List Json :=
  (List.range n).map finding

end SecureReview.Workload
