import SecureReview.Json.Basic
import SecureReview.Number.Decimal
import SecureReview.Text.Quoted
/-!
# Values inside sentences

How a value reads when it is put into a message: texts stand as they are, everything else is shown in
the notation of literals, in which the texts inside lists and records are quoted.
-/

namespace SecureReview.Json

/-- A whole number in decimal. -/
def intText (n : Int) : String :=
  String.ofList (if n < 0 then '-' :: Number.digits n.natAbs else Number.digits n.natAbs)

mutual

/-- A value in the notation of literals. -/
def literal : Json → String
  | .null => "None"
  | .bool b => if b then "True" else "False"
  | .int n => intText n
  | .float x => Number.floatText x
  | .str s => Text.quote s
  | .arr [] => "[]"
  | .arr (x :: xs) => "[" ++ literal x ++ literalItems xs
  | .obj [] => "\x7b\x7d"
  | .obj ((k, v) :: fs) => "\x7b" ++ Text.quote k ++ ": " ++ literal v ++ literalFields fs

/-- The items after the first of a list. -/
def literalItems : List Json → String
  | [] => "]"
  | x :: xs => ", " ++ literal x ++ literalItems xs

/-- The fields after the first of a record. -/
def literalFields : List (String × Json) → String
  | [] => "\x7d"
  | (k, v) :: fs => ", " ++ Text.quote k ++ ": " ++ literal v ++ literalFields fs

end

/-- A value as part of a sentence. -/
def display : Json → String
  | .str s => s
  | v => literal v

end SecureReview.Json
