import SecureReview.Diff.Blocks
import SecureReview.Text.Lines
import SecureReview.Number.Decimal
/-!
# Unified line differences

The changes between two texts in the usual notation: groups of changed lines with three lines of
context around them, each under a header that gives the line ranges.
-/

namespace SecureReview.Diff

/-- What happens to a stretch of lines. -/
inductive Tag where
  | equal
  | replace
  | delete
  | insert
  deriving DecidableEq

/-- A stretch of the first text and the stretch of the second text it corresponds to. -/
structure Edit where
  tag : Tag
  i1 : Nat
  i2 : Nat
  j1 : Nat
  j2 : Nat
  deriving DecidableEq

/-- The edits between stretches, from positions `i` and `j` on. -/
def editsFrom : Nat → Nat → List Block → List Edit
  | _, _, [] => []
  | i, j, m :: ms =>
    let change :=
      if i < m.i && j < m.j then [⟨.replace, i, m.i, j, m.j⟩]
      else if i < m.i then [⟨.delete, i, m.i, j, m.j⟩]
      else if j < m.j then [⟨.insert, i, m.i, j, m.j⟩]
      else []
    let same := if m.size == 0 then [] else [⟨.equal, m.i, m.i + m.size, m.j, m.j + m.size⟩]
    change ++ same ++ editsFrom (m.i + m.size) (m.j + m.size) ms

variable {α : Type} [BEq α]

/-- The edits that turn the first sequence into the second. -/
def edits (as bs : List α) : List Edit :=
  editsFrom 0 0 (blocks as bs)

/-- The number of lines of context. -/
def context : Nat := 3

/-- Keep only the last lines of an unchanged stretch. -/
def Edit.tailOnly (e : Edit) : Edit :=
  if e.tag = .equal then { e with i1 := max e.i1 (e.i2 - context), j1 := max e.j1 (e.j2 - context) }
  else e

/-- Keep only the first lines of an unchanged stretch. -/
def Edit.headOnly (e : Edit) : Edit :=
  if e.tag = .equal then { e with i2 := min e.i2 (e.i1 + context), j2 := min e.j2 (e.j1 + context) }
  else e

/-- Shorten unchanged stretches at the beginning and at the end. -/
def trimEnds : List Edit → List Edit
  | [] => [Edit.headOnly (Edit.tailOnly ⟨.equal, 0, 1, 0, 1⟩)]
  | e :: es =>
    match (Edit.tailOnly e :: es).reverse with
    | [] => []
    | l :: ls => (Edit.headOnly l :: ls).reverse

/-- A group is worth showing if it holds a change. -/
def isShown : List Edit → Bool
  | [] => false
  | [e] => e.tag ≠ .equal
  | _ => true

/-- Cut the edits into groups at long unchanged stretches. -/
def groupsFrom : List Edit → List Edit → List (List Edit)
  | group, [] => if isShown group then [group] else []
  | group, e :: es =>
    if e.tag = .equal && 2 * context < e.i2 - e.i1 then
      (group ++ [e.headOnly]) :: groupsFrom [e.tailOnly] es
    else groupsFrom (group ++ [e]) es

/-- The groups of edits to be shown. -/
def groups (es : List Edit) : List (List Edit) :=
  groupsFrom [] (trimEnds es)

/-- A range of lines: its first line and, unless it is one, its length. -/
def rangeText (start stop : Nat) : List Char :=
  let length := stop - start
  if length == 1 then Number.digits (start + 1)
  else if length == 0 then Number.digits start ++ ",0".toList
  else Number.digits (start + 1) ++ ',' :: Number.digits length

/-- The elements from `i` up to, but without, `j`. -/
def segment (xs : List (List Char)) (i j : Nat) : List (List Char) :=
  (xs.drop i).take (j - i)

/-- The lines of one edit, each behind its mark. -/
def Edit.lines (as bs : List (List Char)) (e : Edit) : List (List Char) :=
  let old := segment as e.i1 e.i2
  let new := segment bs e.j1 e.j2
  match e.tag with
  | .equal => old.map (' ' :: ·)
  | .replace => old.map ('-' :: ·) ++ new.map ('+' :: ·)
  | .delete => old.map ('-' :: ·)
  | .insert => new.map ('+' :: ·)

/-- The header of a group. -/
def headerLine (group : List Edit) : List Char :=
  let first := group.head?.getD ⟨.equal, 0, 0, 0, 0⟩
  let last := group.getLast?.getD ⟨.equal, 0, 0, 0, 0⟩
  "@@ -".toList ++ rangeText first.i1 last.i2 ++ " +".toList ++ rangeText first.j1 last.j2 ++
    " @@".toList

/-- The text of a group. -/
def groupText (as bs : List (List Char)) (group : List Edit) : List Char :=
  headerLine group ++ (group.flatMap (Edit.lines as bs)).flatten

/-- The difference of two sequences of lines. Nothing ends the headers. -/
def unifiedLines (as bs : List (List Char)) : List Char :=
  match groups (edits as bs) with
  | [] => []
  | gs => "--- original+++ fixed".toList ++ gs.flatMap (groupText as bs)

/-- The difference of two texts. -/
def unified (old fixed : String) : String :=
  String.ofList (unifiedLines (Text.fullLines old.toList) (Text.fullLines fixed.toList))

end SecureReview.Diff
