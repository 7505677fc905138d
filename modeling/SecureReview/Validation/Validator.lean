import SecureReview.Json.Printer
import SecureReview.Validation.Coercion
/-!
# Validators

A form says which fields a record has, of which kinds and within which limits. What a kind accepts, which
complaints there are and how a record is written is up to a validator. A validator comes from elsewhere, so
it is a parameter of the forms that are written and read again; in a run it is `Validator.coercing`.
-/

namespace SecureReview

/-- The operations that a form is put together from. -/
class Validator where
  /-- A value as JSON text. -/
  write : Json → String
  /-- The fields of a record of the named form that is given as JSON text, if there is a text. -/
  fields : String → Option String → Checked Fields
  string : Json → Checked String
  float : Json → Checked Float
  /-- One of the members of an enumeration, by their texts and as they are told in a complaint. -/
  member {α : Type} : List (String × α) → List String → Json → Checked α
  list {α : Type} : (Json → Checked α) → Json → Checked (List α)
  /-- A text of at least so many characters. -/
  atLeast : Nat → String → Checked String
  /-- A text of at most so many characters. -/
  atMost : Nat → String → Checked String
  /-- A number between zero and one. -/
  unit : Float → Checked Float
  /-- A field that has to be there. -/
  required {α : Type} : Fields → String → (Json → Checked α) → Checked α
  /-- A field that may be missing or null. -/
  optional {α : Type} : Fields → String → (Json → Checked α) → Checked (Option α)

/-- The validator that takes values of related kinds, and writes on one line. -/
instance Validator.coercing : Validator where
  write := Json.compact
  fields := Checked.fieldsOfText
  string := Checked.string
  float := Checked.float
  member := Checked.member
  list := Checked.list
  atLeast := Checked.atLeast
  atMost := Checked.atMost
  unit := Checked.unit
  required := Checked.required
  optional := Checked.optional

end SecureReview
