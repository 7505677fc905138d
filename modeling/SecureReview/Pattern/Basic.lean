/-!
# Text patterns

A pattern describes stretches of text. `Pattern.Matches p u` says that the whole of `u` fits `p`;
`Pattern.rests` lists, in order of preference, what may remain of a text after a stretch at its start
that fits. A match is found at the leftmost position, and there the preferred one is taken: the first
of two alternatives, and as many repetitions as possible.
-/

namespace SecureReview

/-- A set of characters: those inside the ranges, or those outside them. -/
structure CharSet where
  ranges : List (Nat × Nat)
  negated : Bool := false

/-- The character belongs to the set. -/
def CharSet.has (s : CharSet) (c : Char) : Bool :=
  s.ranges.any (fun r => r.1 ≤ c.toNat && c.toNat ≤ r.2) != s.negated

/-- Patterns. Only sets of characters are repeated. -/
inductive Pattern where
  | empty
  | set (s : CharSet)
  | repeated (s : CharSet) (least : Nat) (most : Option Nat)
  | seq (p q : Pattern)
  | alt (p q : Pattern)

namespace Pattern

/-- What may remain after a run of characters of `s`, the longest run first. -/
def runRests (s : CharSet) : Nat → Option Nat → List Char → List (List Char)
  | least, _, [] => if least == 0 then [[]] else []
  | least, most, c :: t =>
    let longer :=
      if most != some 0 && s.has c then runRests s (least - 1) (most.map (· - 1)) t else []
    if least == 0 then longer ++ [c :: t] else longer

/-- What may remain after a stretch at the start of the text that fits, in order of preference. -/
def rests : Pattern → List Char → List (List Char)
  | .empty, t => [t]
  | .set s, t =>
    match t with
    | [] => []
    | c :: r => if s.has c then [r] else []
  | .repeated s least most, t => runRests s least most t
  | .seq p q, t => (rests p t).flatMap (rests q)
  | .alt p q, t => rests p t ++ rests q t

/-- The whole of a text fits a pattern. -/
inductive Matches : Pattern → List Char → Prop where
  | empty : Matches .empty []
  | set {s : CharSet} {c : Char} : s.has c → Matches (.set s) [c]
  | repeated {s : CharSet} {least : Nat} {most : Option Nat} {u : List Char} :
      (∀ c ∈ u, s.has c) → least ≤ u.length → (∀ n, most = some n → u.length ≤ n) →
      Matches (.repeated s least most) u
  | seq {p q : Pattern} {u v : List Char} : Matches p u → Matches q v → Matches (.seq p q) (u ++ v)
  | left {p q : Pattern} {u : List Char} : Matches p u → Matches (.alt p q) u
  | right {p q : Pattern} {u : List Char} : Matches q u → Matches (.alt p q) u

/-- Some stretch of the text fits the pattern. -/
def OccursIn (p : Pattern) (t : List Char) : Prop :=
  ∃ a u b, t = a ++ u ++ b ∧ Matches p u

/-- The preferred length of a match at the start of the text. -/
def length? (p : Pattern) (t : List Char) : Option Nat :=
  (rests p t).head?.map (fun r => t.length - r.length)

/-- A stretch of text given by its first position and the position after it. -/
structure Span where
  start : Nat
  stop : Nat
  deriving DecidableEq

/-- The matches of a pattern from left to right, none overlapping another. The text starts at `pos`,
and its first `skip` characters belong to the match before. -/
def spansFrom (p : Pattern) : Nat → Nat → List Char → List Span
  | _, _, [] => []
  | skip + 1, pos, _ :: t => spansFrom p skip (pos + 1) t
  | 0, pos, c :: t =>
    match p.length? (c :: t) with
    | some n => ⟨pos, pos + n⟩ :: spansFrom p (n - 1) (pos + 1) t
    | none => spansFrom p 0 (pos + 1) t

/-- The matches of a pattern in a text. -/
def spans (p : Pattern) (t : List Char) : List Span :=
  spansFrom p 0 0 t

/-- The pattern matches somewhere. -/
def found (p : Pattern) (t : List Char) : Bool :=
  !(p.spans t).isEmpty

/-! Ways to write patterns. -/

/-- Several patterns one after the other. -/
def all : List Pattern → Pattern
  | [] => .empty
  | [p] => p
  | p :: ps => .seq p (all ps)

/-- The first of several patterns that fits. -/
def any : List Pattern → Pattern
  | [] => .repeated ⟨[], false⟩ 1 none
  | [p] => p
  | p :: ps => .alt p (any ps)

/-- A single character. -/
def char (c : Char) : Pattern :=
  .set ⟨[(c.toNat, c.toNat)], false⟩

/-- A fixed text. -/
def text (s : String) : Pattern :=
  all (s.toList.map char)

/-- The pattern or nothing, the pattern preferred. -/
def optional (p : Pattern) : Pattern :=
  .alt p .empty

/-- Zero or more characters of a set. -/
def many (s : CharSet) : Pattern := .repeated s 0 none

/-- One or more characters of a set. -/
def some₁ (s : CharSet) : Pattern := .repeated s 1 none

/-- At least `n` characters of a set. -/
def atLeast (n : Nat) (s : CharSet) : Pattern := .repeated s n none

/-- Exactly `n` characters of a set. -/
def exactly (n : Nat) (s : CharSet) : Pattern := .repeated s n (some n)

/-- The letters of other alphabets that count as the letter `c` when case is ignored: the long s, the
Kelvin sign, and the two Turkish forms of i. -/
def foreignForms (c : Char) : List (Nat × Nat) :=
  if c == 's' then [(0x17F, 0x17F)]
  else if c == 'k' then [(0x212A, 0x212A)]
  else if c == 'i' then [(0x130, 0x131)]
  else []

/-- A lower-case letter or other character, ignoring case. -/
def charAnyCase (c : Char) : Pattern :=
  .set ⟨[(c.toNat, c.toNat), (c.toUpper.toNat, c.toUpper.toNat)] ++ foreignForms c, false⟩

/-- A fixed text in lower case, ignoring case. -/
def textAnyCase (s : String) : Pattern :=
  all (s.toList.map charAnyCase)

end Pattern

namespace CharSet

/-- The characters of a text. -/
def ofString (s : String) : CharSet :=
  ⟨s.toList.map (fun c => (c.toNat, c.toNat)), false⟩

/-- All characters but one. -/
def allBut (c : Char) : CharSet :=
  ⟨[(c.toNat, c.toNat)], true⟩

/-- The set with the characters of a text added to its ranges. -/
def adding (a : CharSet) (s : String) : CharSet :=
  ⟨a.ranges ++ (ofString s).ranges, a.negated⟩

/-- White space. -/
def blank : CharSet :=
  ⟨[(9, 13), (28, 32), (0x85, 0x85), (0xA0, 0xA0), (0x1680, 0x1680), (0x2000, 0x200A),
    (0x2028, 0x2029), (0x202F, 0x202F), (0x205F, 0x205F), (0x3000, 0x3000)], false⟩

/-- The ASCII letters and digits. -/
def alnum : CharSet :=
  ⟨[(97, 122), (65, 90), (48, 57)], false⟩

/-- The letters and digits, with the letters that count as ASCII letters when case is ignored. -/
def alnumAnyCase : CharSet :=
  ⟨alnum.ranges ++ [(0x17F, 0x17F), (0x212A, 0x212A), (0x130, 0x131)], false⟩

/-- The ASCII digits and capital letters. -/
def digitOrCapital : CharSet :=
  ⟨[(48, 57), (65, 90)], false⟩

end CharSet

end SecureReview
