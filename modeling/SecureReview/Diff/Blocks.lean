/-!
# Matching blocks

Two sequences are compared by their longest common stretch, then the parts before and after it in the
same way. Elements that occur very often in a long second sequence do not start a stretch; they only
extend one.
-/

namespace SecureReview.Diff

variable {α : Type} [BEq α]

/-- A common stretch: its positions in the two sequences and its length. -/
structure Block where
  i : Nat
  j : Nat
  size : Nat
  deriving DecidableEq

/-- The lengths of the common stretches that end at `a` and at each element of the second sequence,
from those that end one place earlier in both. -/
def nextRow (usable : α → Bool) (a : α) : List α → List Nat → List Nat
  | [], _ => []
  | b :: bs, prev =>
    (if b == a && usable b then prev.headD 0 + 1 else 0) :: nextRow usable a bs prev.tail

/-- The first stretch ending at position `i` that is longer than the best so far. -/
def bestInRow (i : Nat) : Nat → List Nat → Block → Block
  | _, [], best => best
  | j, k :: ks, best =>
    bestInRow i (j + 1) ks (if best.size < k then ⟨i + 1 - k, j + 1 - k, k⟩ else best)

/-- Go through the first sequence row by row. -/
def bestOfRows (usable : α → Bool) (bs : List α) : Nat → List α → List Nat → Block → Block
  | _, [], _, best => best
  | i, a :: as, row, best =>
    let row := nextRow usable a bs (0 :: row)
    bestOfRows usable bs (i + 1) as row (bestInRow i 0 row best)

/-- The length of the common beginning of two sequences. -/
def commonLead : List α → List α → Nat
  | a :: as, b :: bs => if a == b then commonLead as bs + 1 else 0
  | _, _ => 0

/-- The longest common stretch, the earliest of several, extended at both ends as far as the
sequences agree. -/
def longest (usable : α → Bool) (as bs : List α) : Block :=
  let m := bestOfRows usable bs 0 as [] ⟨0, 0, 0⟩
  let before := commonLead (as.take m.i).reverse (bs.take m.j).reverse
  let after := commonLead (as.drop (m.i + m.size)) (bs.drop (m.j + m.size))
  ⟨m.i - before, m.j - before, before + m.size + after⟩

/-- The common stretches of two sequences that start at the given positions, in order. -/
def blocksFrom (usable : α → Bool) (as bs : List α) (i j : Nat) : List Block :=
  let m := longest usable as bs
  if _h : 0 < m.size ∧ m.i < as.length then
    blocksFrom usable (as.take m.i) (bs.take m.j) i j ++
      ⟨i + m.i, j + m.j, m.size⟩ ::
        blocksFrom usable (as.drop (m.i + m.size)) (bs.drop (m.j + m.size))
          (i + m.i + m.size) (j + m.j + m.size)
  else []
termination_by as.length
decreasing_by
  all_goals
    have bounds : 0 < (longest usable as bs).size ∧ (longest usable as bs).i < as.length := _h
    simp only [List.length_take, List.length_drop]
    omega

/-- From two hundred elements on, an element is popular if it occurs more often than once in a
hundred places, and once more. -/
def isPopular (bs : List α) (b : α) : Bool :=
  200 ≤ bs.length && bs.length / 100 + 1 < bs.count b

/-- Join stretches that touch in both sequences. -/
def joinBlocks : Block → List Block → List Block
  | m, [] => if m.size == 0 then [] else [m]
  | m, n :: ns =>
    if m.i + m.size == n.i && m.j + m.size == n.j then
      joinBlocks ⟨m.i, m.j, m.size + n.size⟩ ns
    else if m.size == 0 then joinBlocks n ns
    else m :: joinBlocks n ns

/-- The common stretches of two sequences, closed by an empty one at their ends. -/
def blocks (as bs : List α) : List Block :=
  joinBlocks ⟨0, 0, 0⟩ (blocksFrom (fun b => !isPopular bs b) as bs 0 0) ++
    [⟨as.length, bs.length, 0⟩]

end SecureReview.Diff
