import SecureReview.Failure
import SecureReview.Number.Num
import SecureReview.Text.Case
import SecureReview.Text.Numeral
/-!
# Reading values of unknown shape

Tool reports and findings come from outside, so every step into them may meet a value of the wrong
kind. The readers here either give what was asked for or the failure that names the mismatch.
-/

namespace SecureReview

/-- The fields are named arguments: all required names are there and there are no unknown ones. -/
def Fields.checkNames (required optional : List String) (fs : Fields) : Except Failure Unit :=
  if required.all (Fields.has fs) && fs.all (fun e => (required ++ optional).contains e.1) then .ok ()
  else .error (.wrongKind "wrong arguments")

namespace Json

/-- The fields of an object, which is asked for the operation `name`. -/
def asFields (name : String) : Json → Except Failure Fields
  | .obj fs => .ok fs
  | v => .error (.noOperation v.kind name)

/-- The field `k` of an object, or `default` if it is absent. -/
def getD (v : Json) (k : String) (default : Json) : Except Failure Json :=
  match v with
  | .obj fs => .ok ((Fields.get? fs k).getD default)
  | _ => .error (.noOperation v.kind "get")

/-- The field `k` of an object, or `null`. -/
def get (v : Json) (k : String) : Except Failure Json :=
  v.getD k .null

/-- The string in a value, which is asked for the operation `name`. -/
def asString (name : String) : Json → Except Failure String
  | .str s => .ok s
  | v => .error (.noOperation v.kind name)

/-- The items of a value that can be gone through: the items of a list, the keys of an object, the
characters of a text. -/
def items : Json → Except Failure (List Json)
  | .arr xs => .ok xs
  | .obj fs => .ok (fs.map (fun kv => .str kv.1))
  | .str s => .ok (s.toList.map (fun c => .str (String.singleton c)))
  | v => .error (.wrongKind s!"'{v.kind}' object is not iterable")

/-- The number of items of a value. -/
def size : Json → Except Failure Nat
  | .arr xs => .ok xs.length
  | .obj fs => .ok fs.length
  | .str s => .ok s.length
  | v => .error (.wrongKind s!"object of type '{v.kind}' has no len()")

/-- The first item of a list or the first character of a text. -/
def first : Json → Except Failure Json
  | .arr (x :: _) => .ok x
  | .arr [] => .error (.outOfRange "list index out of range")
  | .str s =>
    match s.toList with
    | c :: _ => .ok (.str (String.singleton c))
    | [] => .error (.outOfRange "string index out of range")
  | .obj _ => .error (.noField "0")
  | v => .error (.wrongKind s!"'{v.kind}' object is not subscriptable")

/-- A field that has to be there. -/
def require (v : Json) (k : String) : Except Failure Json :=
  match v with
  | .obj fs =>
    match Fields.get? fs k with
    | some x => .ok x
    | none => .error (.noField k)
  | .str _ => .error (.wrongKind "string indices must be integers, not 'str'")
  | .arr _ => .error (.wrongKind "list indices must be integers or slices, not str")
  | v => .error (.wrongKind s!"'{v.kind}' object is not subscriptable")

/-- A text is part of a value: of a text, of the items of a list, or of the keys of an object. -/
def includes (v : Json) (t : String) : Except Failure Bool :=
  match v with
  | .str s => .ok (Text.contains s t)
  | .arr xs => .ok (xs.any (fun x => match x with | .str s => s == t | _ => false))
  | .obj fs => .ok (Fields.has fs t)
  | v => .error (.wrongKind s!"argument of type '{v.kind}' is not iterable")

/-- A value used as the key of a table: containers cannot be keys, and only a text can match. -/
def lookupIn {α : Type} (table : List (String × α)) : Json → Except Failure (Option α)
  | .str s => .ok (table.lookup s)
  | .arr _ => .error (.wrongKind "unhashable type: 'list'")
  | .obj _ => .error (.wrongKind "unhashable type: 'dict'")
  | _ => .ok none

/-- A value in lower case. -/
def lowered (v : Json) : Except Failure String :=
  (v.asString "lower").map Text.lower

/-- A value in upper case. -/
def uppered (v : Json) : Except Failure String :=
  (v.asString "upper").map Text.upper

/-- A whole number made from a value: fractions are dropped and numerals are read. -/
def toInt : Json → Except Failure Int
  | .int n => .ok n
  | .bool b => .ok (if b then 1 else 0)
  | .float x =>
    match Number.truncate? x with
    | some n => .ok n
    | none =>
      if x.isNaN then .error (.badValue "cannot convert float NaN to integer")
      else .error (.tooLarge "cannot convert float infinity to integer")
  | .str s => (Text.readInt s).mapError (fun e => .badValue e.message)
  | v => .error (.wrongKind
      s!"int() argument must be a string, a bytes-like object or a real number, not '{v.kind}'")

/-- The value is the number `n`, in whichever notation. -/
def isNumber (n : Int) : Json → Bool
  | .int m => m == n
  | .bool b => (if b then 1 else 0) == n
  | .float x => x == Float.ofInt n
  | _ => false

end Json

end SecureReview

/-! ## Arithmetic on values of unknown kind

Numbers are added and divided; texts and lists can be added to their own kind only.
-/

namespace SecureReview.Json

/-- The sum of two values. -/
def plus (a b : Json) : Except Failure Json :=
  match Num.ofJson? a, Num.ofJson? b with
  | some m, some n => Num.toJson <$> m.add n
  | _, _ =>
    match a, b with
    | .str s, .str t => .ok (.str (s ++ t))
    | .arr xs, .arr ys => .ok (.arr (xs ++ ys))
    | .str _, v => .error (.wrongKind s!"can only concatenate str (not \"{v.kind}\") to str")
    | .arr _, v => .error (.wrongKind s!"can only concatenate list (not \"{v.kind}\") to list")
    | v, w => .error (.wrongKind s!"unsupported operand type(s) for +: '{v.kind}' and '{w.kind}'")

/-- The quotient of two values. -/
def dividedBy (a b : Json) : Except Failure Num :=
  match Num.ofJson? a, Num.ofJson? b with
  | some m, some n => m.div n
  | _, _ =>
    .error (.wrongKind s!"unsupported operand type(s) for /: '{a.kind}' and '{b.kind}'")

end SecureReview.Json
