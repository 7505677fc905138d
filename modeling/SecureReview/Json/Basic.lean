/-!
# JSON values

Findings, tool reports and settings are open records, so they are kept as JSON values. Objects keep
the order in which their keys were first written, and whole numbers are unbounded and distinct from
floating-point numbers.
-/

namespace SecureReview

/-- A JSON value. -/
inductive Json where
  | null
  | bool (b : Bool)
  | int (n : Int)
  | float (x : Float)
  | str (s : String)
  | arr (xs : List Json)
  | obj (fields : List (String × Json))
  deriving Inhabited

/-- The fields of an object, in order. -/
abbrev Fields := List (String × Json)

/-- Set the field `k`: in place if there is one, else at the end. -/
def Fields.put : Fields → String → Json → Fields
  | [], k, v => [(k, v)]
  | (k', v') :: fs, k, v => if k' == k then (k, v) :: fs else (k', v') :: Fields.put fs k v

/-- Set several fields one after the other. -/
def Fields.putAll (fs : Fields) (news : Fields) : Fields :=
  news.foldl (fun fs kv => Fields.put fs kv.1 kv.2) fs

/-- The value of the field `k`. -/
def Fields.get? (fs : Fields) (k : String) : Option Json :=
  List.lookup k fs

/-- The field `k` is there. -/
def Fields.has (fs : Fields) (k : String) : Bool :=
  (Fields.get? fs k).isSome

namespace Json

mutual

/-- Two values are written alike. Unlike numerical equality this tells `1` from `1.0`. -/
def same : Json → Json → Bool
  | .null, .null => true
  | .bool a, .bool b => a == b
  | .int a, .int b => a == b
  | .float a, .float b => a.toBits == b.toBits
  | .str a, .str b => a == b
  | .arr as, .arr bs => sameList as bs
  | .obj as, .obj bs => sameFields as bs
  | _, _ => false

/-- Two lists are written alike. -/
def sameList : List Json → List Json → Bool
  | [], [] => true
  | a :: as, b :: bs => same a b && sameList as bs
  | _, _ => false

/-- Two field lists are written alike. -/
def sameFields : List (String × Json) → List (String × Json) → Bool
  | [], [] => true
  | (k, a) :: as, (l, b) :: bs => k == l && same a b && sameFields as bs
  | _, _ => false

end

/-- Empty containers, the empty text, zeros, `false` and `null` count as absent. -/
def truthy : Json → Bool
  | .null => false
  | .bool b => b
  | .int n => n != 0
  | .float x => x != 0
  | .str s => s != ""
  | .arr xs => !xs.isEmpty
  | .obj fs => !fs.isEmpty

/-- The name under which error messages mention the kind of a value. -/
def kind : Json → String
  | .null => "NoneType"
  | .bool _ => "bool"
  | .int _ => "int"
  | .float _ => "float"
  | .str _ => "str"
  | .arr _ => "list"
  | .obj _ => "dict"

/-- The field `k` of an object. -/
def get? : Json → String → Option Json
  | .obj fs, k => Fields.get? fs k
  | _, _ => none

/-- An optional string as a value. -/
def ofString? : Option String → Json
  | some s => .str s
  | none => .null

/-- A list of strings as a value. -/
def strings (ss : List String) : Json :=
  .arr (ss.map .str)

/-- A natural number as a value. -/
def nat (n : Nat) : Json :=
  .int n

end Json

end SecureReview
