import SecureReview.Number.Num
/-!
# Scores

How good a scanner's findings are, from the numbers of right and wrong ones. A score whose
denominator is zero is not defined.
-/

namespace SecureReview.Score

/-- The share of `part` in `part + rest`, if that is not zero. -/
def share (part rest : Num) : Except Failure (Option Num) := do
  let whole ← part.add rest
  if whole.isZero then return none else return some (← part.div whole)

/-- The harmonic mean of precision and recall, if both are defined and their sum is not zero. -/
def f1 (precision recalled : Option Num) : Except Failure (Option Num) :=
  match precision, recalled with
  | some p, some r => do
    let whole ← p.add r
    if whole.isZero then return none
    else return some (← (← Num.mul (.int 2) (← p.mul r)).div whole)
  | _, _ => return none

/-- The counts of judged findings. -/
structure Counts where
  truePositives : Num
  falsePositives : Num
  falseNegatives : Num
  trueNegatives : Num := .int 0

/-- A score as a value. -/
def toJson : Option Num → Json
  | some n => n.toJson
  | none => .null

/-- All scores of some counts, with the counts. -/
def all (c : Counts) : Except Failure Json := do
  let precision ← share c.truePositives c.falsePositives
  let recalled ← share c.truePositives c.falseNegatives
  return .obj [
    ("precision", toJson precision),
    ("recall", toJson recalled),
    ("f1_score", toJson (← f1 precision recalled)),
    ("true_positives", c.truePositives.toJson),
    ("false_positives", c.falsePositives.toJson),
    ("false_negatives", c.falseNegatives.toJson),
    ("true_negatives", c.trueNegatives.toJson)]

/-- How findings may be grouped. -/
inductive Grouping where
  | period
  | language
  | tool
  | severity

/-- The scores of groups of findings. Nothing is kept about groups, so there are none yet. -/
def grouped : Grouping → Json
  | .period => .arr []
  | _ => .obj []

end SecureReview.Score
