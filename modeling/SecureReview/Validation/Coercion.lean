import SecureReview.Failure
import SecureReview.Json.Loose
/-!
# Coercions

How the fields of a record are read. A field of one kind accepts values of related kinds: a text may be
given as a number, a number as a numeral, a truth value as one of several words.
-/

namespace SecureReview

/-! ## Checks

Reading a record either succeeds, or collects every complaint about its fields, or stops at a failure
that is not a complaint. -/

/-- The outcome of a check. -/
inductive Checked (α : Type) where
  | ok (a : α)
  | faulty (faults : List Fault)
  | failed (e : Failure)

namespace Checked

/-- Apply a checked function to a checked value, with the complaints of both. -/
def apply {α β : Type} (f : Checked (α → β)) (x : Checked α) : Checked β :=
  match f, x with
  | .failed e, _ => .failed e
  | _, .failed e => .failed e
  | .ok g, .ok a => .ok (g a)
  | .ok _, .faulty fs => .faulty fs
  | .faulty fs, .ok _ => .faulty fs
  | .faulty fs, .faulty gs => .faulty (fs ++ gs)

instance : Applicative Checked where
  pure := .ok
  seq f x := apply f (x ())

/-- Check the value further if it is acceptable so far. -/
def andThen {α β : Type} (x : Checked α) (f : α → Checked β) : Checked β :=
  match x with
  | .ok a => f a
  | .faulty fs => .faulty fs
  | .failed e => .failed e

/-- A single complaint, whose place is not yet known. -/
def complain {α : Type} (text sort : String) : Checked α :=
  .faulty [⟨[], text, sort⟩]

/-- Say where the complaints arose. -/
def within {α : Type} (place : String) : Checked α → Checked α
  | .ok a => .ok a
  | .faulty fs => .faulty (fs.map (fun f => { f with place := place :: f.place }))
  | .failed e => .failed e

/-- The checks of the items of a list, each at its position. -/
def items {α : Type} (check : Json → Checked α) : Nat → List Json → Checked (List α)
  | _, [] => .ok []
  | n, x :: xs => List.cons <$> (check x).within (toString n) <*> items check (n + 1) xs

/-- The value of a check on a record of the given name. -/
def get {α : Type} (model : String) : Checked α → Except Failure α
  | .ok a => .ok a
  | .faulty fs => .error (.unfit ⟨model, fs⟩)
  | .failed e => .error e

/-! ## Kinds -/

/-- A text: numbers and truth values are taken as they are displayed. -/
def string : Json → Checked String
  | .str s => .ok s
  | .int n => .ok (Json.int n).display
  | .float x => .ok (Json.float x).display
  | .bool b => .ok (Json.bool b).display
  | _ => complain "str type expected" "type_error.str"

/-- A whole number: fractions are dropped, and numerals are read. -/
def int (v : Json) : Checked Int :=
  match v.toInt with
  | .ok n => .ok n
  | .error (.tooLarge t) => .failed (.tooLarge t)
  | .error _ => complain "value is not a valid integer" "type_error.integer"

/-- The number that a decimal numeral stands for. -/
def ofNumeral (s : String) : Option Float :=
  (Text.readDecimal? s).map fun d =>
    match d with
    | .finite neg digits exp => Number.ofDecimal neg digits exp
    | .infinite neg => if neg then -Number.infinity else Number.infinity
    | .notANumber => Number.nan

/-- A floating-point number: whole numbers are converted, and numerals are read. -/
def float (v : Json) : Checked Float :=
  let bad : Checked Float := complain "value is not a valid float" "type_error.float"
  match v with
  | .float x => .ok x
  | .int n =>
    match Number.ofInt? n with
    | some x => .ok x
    | none => .failed (.tooLarge "int too large to convert to float")
  | .bool b => .ok (if b then 1 else 0)
  | .str s =>
    match ofNumeral s with
    | some x => .ok x
    | none => bad
  | _ => bad

/-- The words for yes. -/
def yes : List String := ["1", "on", "t", "true", "y", "yes"]

/-- The words for no. -/
def no : List String := ["0", "off", "f", "false", "n", "no"]

/-- A truth value: one and zero count, and the words for yes and no in any letter case. -/
def bool (v : Json) : Checked Bool :=
  let bad : Checked Bool := complain "value could not be parsed to a boolean" "type_error.bool"
  match v with
  | .bool b => .ok b
  | .str s =>
    let w := Text.lower s
    if yes.contains w then .ok true else if no.contains w then .ok false else bad
  | v => if v.isNumber 1 then .ok true else if v.isNumber 0 then .ok false else bad

/-- A value that must not be missing. -/
def present {α : Type} (check : Json → Checked α) : Json → Checked α
  | .null => complain "none is not an allowed value" "type_error.none.not_allowed"
  | v => check v

/-- A list of values of one kind. -/
def list {α : Type} (check : Json → Checked α) : Json → Checked (List α)
  | .arr xs => items (present check) 0 xs
  | _ => complain "value is not a valid list" "type_error.list"

/-- One of the members of an enumeration, given by their texts. `shown` lists the members as they are
told in a complaint. -/
def member {α : Type} (members : List (String × α)) (shown : List String) (v : Json) : Checked α :=
  let found := match v with
    | .str s => members.lookup s
    | _ => none
  match found with
  | some a => .ok a
  | none =>
    let permitted := Text.joinWith ", " (members.map (fun m => Text.quote m.1))
    let values := Text.joinWith ", " shown
    complain s!"value is not a valid enumeration member; permitted: {permitted}"
      s!"type_error.enum; enum_values=[{values}]"

/-! ## Limits -/

/-- A text of at least so many characters. -/
def atLeast (n : Nat) (s : String) : Checked String :=
  if s.length < n then
    complain s!"ensure this value has at least {n} characters"
      s!"value_error.any_str.min_length; limit_value={n}"
  else .ok s

/-- A text of at most so many characters. -/
def atMost (n : Nat) (s : String) : Checked String :=
  if n < s.length then
    complain s!"ensure this value has at most {n} characters"
      s!"value_error.any_str.max_length; limit_value={n}"
  else .ok s

/-- A number between zero and one. -/
def unit (x : Float) : Checked Float :=
  if !(0.0 ≤ x) then
    complain "ensure this value is greater than or equal to 0.0"
      "value_error.number.not_ge; limit_value=0.0"
  else if !(x ≤ 1.0) then
    complain "ensure this value is less than or equal to 1.0"
      "value_error.number.not_le; limit_value=1.0"
  else .ok x

/-! ## Fields -/

/-- A field that has to be there. -/
def required {α : Type} (fs : Fields) (k : String) (check : Json → Checked α) : Checked α :=
  match Fields.get? fs k with
  | some v => (present check v).within k
  | none => (complain "field required" "value_error.missing").within k

/-- A field that may be missing or null. -/
def optional {α : Type} (fs : Fields) (k : String) (check : Json → Checked α) :
    Checked (Option α) :=
  match Fields.get? fs k with
  | some .null => .ok none
  | some v => (some <$> check v).within k
  | none => .ok none

/-- A field that has a value of its own if it is missing. -/
def defaulted {α : Type} (fs : Fields) (k : String) (default : α) (check : Json → Checked α) :
    Checked α :=
  match Fields.get? fs k with
  | some v => (present check v).within k
  | none => .ok default

/-! ## Whole records -/

/-- A complaint about the record as a whole. -/
def wholly {α : Type} (text sort : String) : Checked α :=
  (complain text sort).within "__root__"

/-- The two parts of a pair. -/
def pairOf : Json → Option (Json × Json)
  | .arr [k, v] => some (k, v)
  | .str s =>
    match s.toList with
    | [a, b] => some (.str (String.singleton a), .str (String.singleton b))
    | _ => none
  | .obj [a, b] => some (.str a.1, .str b.1)
  | _ => none

/-- Fields out of pairs; a key has to be a plain value. -/
def fieldsOfPairs : List Json → Option Fields
  | [] => some []
  | p :: ps => do
    let (k, v) ← pairOf p
    let rest ← fieldsOfPairs ps
    match k with
    | .str k => if Fields.has rest k then pure rest else pure ((k, v) :: rest)
    | .arr _ => none
    | .obj _ => none
    | _ => pure rest

/-- The fields of a record; a list of pairs counts as one. -/
def fieldsOf (model : String) (v : Json) : Checked Fields :=
  let pairs := match v with
    | .arr xs => fieldsOfPairs xs
    | .str s => fieldsOfPairs (s.toList.map (fun c => .str (String.singleton c)))
    | _ => none
  match v, pairs with
  | .obj fs, _ => .ok fs
  | _, some fs => .ok fs
  | v, none => wholly s!"{model} expected dict not {v.kind}" "type_error"

/-- The fields of a record that is given as JSON text, if there is a text. -/
def fieldsOfText (model : String) : Option String → Checked Fields
  | none => wholly "the JSON object must be str, bytes or bytearray, not NoneType" "type_error"
  | some doc =>
    match Json.parseString doc with
    | .ok v => fieldsOf model v
    | .error flaw =>
      let line := Json.lineAt doc.toList flaw.pos
      let column := Json.columnAt doc.toList flaw.pos
      wholly (flaw.describe doc) <|
        s!"value_error.jsondecode; msg={flaw.message}; doc={doc}; pos={flaw.pos}; " ++
          s!"lineno={line}; colno={column}"

end Checked

end SecureReview
