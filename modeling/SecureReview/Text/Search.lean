/-!
# Occurrences of one text in another

Finding, splitting at and replacing the leftmost non-overlapping occurrences of a text. Splitting is
by structural recursion on the searched text: `skip` counts the characters of the current occurrence
that are still to be passed over.
-/

namespace SecureReview.Text

/-- The position of the first occurrence of `p` in `t`. -/
def find? (p : List Char) : List Char → Option Nat
  | [] => if p.isEmpty then some 0 else none
  | c :: t => if p.isPrefixOf (c :: t) then some 0 else (find? p t).map (· + 1)

/-- `p` occurs somewhere in `t`. -/
def occurs (p t : List Char) : Bool :=
  (find? p t).isSome

/-- The pieces of `t` between the occurrences of `sep`, the first of them set apart. -/
def pieces (sep : List Char) : Nat → List Char → List Char × List (List Char)
  | _, [] => ([], [])
  | skip + 1, _ :: t => pieces sep skip t
  | 0, c :: t =>
    if sep.isPrefixOf (c :: t) then
      let r := pieces sep (sep.length - 1) t
      ([], r.1 :: r.2)
    else
      let r := pieces sep 0 t
      (c :: r.1, r.2)

/-- Split `t` at every leftmost non-overlapping occurrence of the non-empty text `sep`. -/
def splitAtEach (sep t : List Char) : List (List Char) :=
  let r := pieces sep 0 t
  r.1 :: r.2

/-- Write `sep` between the parts. -/
def join (sep : List Char) : List (List Char) → List Char
  | [] => []
  | [p] => p
  | p :: ps => p ++ sep ++ join sep ps

theorem join_cons (sep p : List Char) {ps : List (List Char)} (h : ps ≠ []) :
    join sep (p :: ps) = p ++ sep ++ join sep ps := by
  cases ps with
  | nil => exact absurd rfl h
  | cons => rfl

/-- Replace every leftmost non-overlapping occurrence of `old` by `new`. An empty `old` occurs before
every character and at the end. -/
def substitute (old new t : List Char) : List Char :=
  if old.isEmpty then new ++ t.flatMap (fun c => c :: new)
  else join new (splitAtEach old t)

/-- The position of the last occurrence of the character `c`. -/
def lastIndex? (c : Char) (t : List Char) : Option Nat :=
  (t.reverse.findIdx? (· == c)).map (fun i => t.length - 1 - i)

/-! The same operations on strings. -/

/-- `p` occurs in `s`. -/
def contains (s p : String) : Bool :=
  occurs p.toList s.toList

/-- Split a string at every occurrence of a non-empty separator. -/
def split (s sep : String) : List String :=
  (splitAtEach sep.toList s.toList).map String.ofList

/-- Replace every occurrence of `old` in `s`. -/
def replace (s old new : String) : String :=
  String.ofList (substitute old.toList new.toList s.toList)

/-- The parts of a list of strings with `sep` between them. -/
def joinWith (sep : String) : List String → String
  | [] => ""
  | [p] => p
  | p :: ps => p ++ sep ++ joinWith sep ps

/-- `s` begins with `p`. -/
def startsWith (s p : String) : Bool :=
  p.toList.isPrefixOf s.toList

/-- `s` ends with `p`. -/
def endsWith (s p : String) : Bool :=
  p.toList.isSuffixOf s.toList

/-- The first `n` characters. -/
def take (s : String) (n : Nat) : String :=
  String.ofList (s.toList.take n)

/-- All but the first `n` characters. -/
def drop (s : String) (n : Nat) : String :=
  String.ofList (s.toList.drop n)

/-! ## Slices

Parts of a sequence between two positions. A negative position counts from the end, and positions
outside the sequence are moved to its nearest end.
-/

/-- A position in a sequence of length `n`. -/
def position (n : Nat) (i : Int) : Nat :=
  if i < 0 then (i + n).toNat else min i.toNat n

/-- The part of a sequence from `start` up to, but not including, `stop`. -/
def slice {α : Type} (xs : List α) (start stop : Int) : List α :=
  let a := position xs.length start
  let b := position xs.length stop
  (xs.take b).drop a

end SecureReview.Text
