import SecureReview.Number.Decimal
import SecureReview.Failure
/-!
# Numbers that are whole or floating

Whole numbers stay whole until arithmetic with a floating-point number, or a division, makes them
floating. Comparison is exact.
-/

namespace SecureReview

/-- A whole or a floating-point number. -/
inductive Num where
  | int (n : Int)
  | float (x : Float)

namespace Num

/-- The number as a JSON value. -/
def toJson : Num → Json
  | .int n => .int n
  | .float x => .float x

/-- The number in a JSON value; truth values count as one and zero. -/
def ofJson? : Json → Option Num
  | .int n => some (.int n)
  | .bool b => some (.int (if b then 1 else 0))
  | .float x => some (.float x)
  | _ => none

/-- The double nearest to the number. -/
def toFloat : Num → Except Failure Float
  | .float x => .ok x
  | .int n =>
    match Number.ofInt? n with
    | some x => .ok x
    | none => .error (.tooLarge "int too large to convert to float")

/-- Apply an operation to two numbers: exactly if both are whole, else on doubles. -/
def combine (onInt : Int → Int → Int) (onFloat : Float → Float → Float) (a b : Num) :
    Except Failure Num :=
  match a, b with
  | .int m, .int n => .ok (.int (onInt m n))
  | _, _ => do
    let x ← a.toFloat
    let y ← b.toFloat
    return .float (onFloat x y)

/-- The sum. -/
def add : Num → Num → Except Failure Num := combine (· + ·) (· + ·)

/-- The difference. -/
def sub : Num → Num → Except Failure Num := combine (· - ·) (· - ·)

/-- The product. -/
def mul : Num → Num → Except Failure Num := combine (· * ·) (· * ·)

/-- The number is zero. -/
def isZero : Num → Bool
  | .int n => n == 0
  | .float x => x == 0

/-- The quotient is floating. Of two whole numbers it is the double nearest to the exact quotient. -/
def div (a b : Num) : Except Failure Num :=
  if b.isZero then
    match a, b with
    | .int _, .int _ => .error (.divisionByZero "division by zero")
    | _, _ => .error (.divisionByZero "float division by zero")
  else
    match a, b with
    | .int m, .int n =>
      match Number.ofQuotient ((m < 0) != (n < 0) && m != 0) m.natAbs n.natAbs with
      | some x => .ok (.float x)
      | none => .error (.tooLarge "integer division result too large for a float")
    | _, _ => do
      let x ← a.toFloat
      let y ← b.toFloat
      return .float (x / y)

/-- The order of a number and a double, by their exact values; a number that is not one has none. -/
def compareParts (a b : Number.Parts) : Option Ordering :=
  let value := fun (p : Number.Parts) => match p with
    | .finite negative m q =>
      let (num, den) := Number.quotient m q
      some ((if negative then -(num : Int) else num), den)
    | _ => none
  match a, b with
  | .notANumber, _ => none
  | _, .notANumber => none
  | .infinite s, .infinite t => some (compare (!s) (!t))
  | .infinite s, .finite .. => some (if s then .lt else .gt)
  | .finite .., .infinite t => some (if t then .gt else .lt)
  | .finite .., .finite .. =>
    match value a, value b with
    | some (m, d), some (n, e) => some (compare (m * (e : Int)) (n * (d : Int)))
    | _, _ => none

/-- The exact parts of a number. -/
def parts : Num → Number.Parts
  | .int n => .finite (n < 0) n.natAbs 0
  | .float x => Number.parts x

/-- The order of two numbers by their exact values. -/
def order (a b : Num) : Option Ordering :=
  match a, b with
  | .int m, .int n => some (compare m n)
  | _, _ => compareParts a.parts b.parts

/-- `a < b`. -/
def lt (a b : Num) : Bool := a.order b == some .lt

/-- `a ≤ b`. -/
def le (a b : Num) : Bool := a.order b == some .lt || a.order b == some .eq

/-- The numbers have the same value. -/
def eq (a b : Num) : Bool := a.order b == some .eq

end Num

end SecureReview
