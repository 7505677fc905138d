import SecureReview.Number.Num
/-!
# Reading descriptions

A description is a value written by hand in which parts may be left out: a part that is missing, or
not of the kind that is asked for, reads as an empty one.
-/

namespace SecureReview.Json

/-- A part of a description; a missing one is null. -/
def part (v : Json) (k : String) : Json :=
  (v.get? k).getD .null

/-- A part is there. -/
def has (v : Json) (k : String) : Bool :=
  (v.get? k).isSome

/-- A part, or a default if it is missing. -/
def partOr (v : Json) (k : String) (default : Json) : Json :=
  (v.get? k).getD default

/-- A text, if the part is one. -/
def text? : Json → Option String
  | .str s => some s
  | _ => none

/-- A text; anything else reads as the empty one. -/
def text (v : Json) : String :=
  v.text?.getD ""

/-- The items of a list; anything else has none. -/
def list : Json → List Json
  | .arr xs => xs
  | _ => []

/-- The fields of an object; anything else has none. -/
def entries : Json → Fields
  | .obj fs => fs
  | _ => []

/-- The items of a list as texts. -/
def texts (v : Json) : List String :=
  v.list.map text

/-- A number; anything else reads as zero. -/
def number (v : Json) : Num :=
  (Num.ofJson? v).getD (.int 0)

/-- A whole number; fractions are dropped. -/
def whole (v : Json) (default : Int := 0) : Int :=
  match v with
  | .float x => (Number.truncate? x).getD 0
  | v =>
    match Num.ofJson? v with
    | some (.int n) => n
    | _ => default

/-- A number as a double; one out of range reads as zero. -/
def double (v : Json) : Float :=
  match v.number with
  | .float x => x
  | .int n => (Number.ofInt? n).getD 0

/-- A switch; a missing one is in its default position. -/
def flag (v : Json) (default : Bool) : Bool :=
  match v with
  | .null => default
  | v => v.truthy

end SecureReview.Json
