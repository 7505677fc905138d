import SecureReview.Number.Num
import SecureReview.Pattern.Basic
import SecureReview.Text.Search
/-!
# A store of texts

Texts by key, some of them with a time to live, and sets of texts that are sorted by a score. Keys
keep the order in which they were first set. A store may be out of reach, and then every operation
fails.
-/

namespace SecureReview

/-- A store. -/
structure Store where
  texts : List (String × String) := []
  expiries : List (String × Json) := []
  sorted : List (String × List (String × Num)) := []
  isDown : Bool := false

namespace Store

/-- Set an entry: in place if there is one, else at the end. -/
def put {α : Type} (k : String) (a : α) : List (String × α) → List (String × α)
  | [] => [(k, a)]
  | e :: es => if e.1 == k then (k, a) :: es else e :: put k a es

/-- The store can be reached. -/
def reach (s : Store) : Except Failure Unit :=
  if s.isDown then .error (.broken "redis down") else .ok ()

/-- The text under a key. -/
def get (s : Store) (k : String) : Except Failure (Option String) := do
  s.reach
  return s.texts.lookup k

/-- Set a text with a time to live. -/
def set (s : Store) (k : String) (ttl : Json) (text : String) : Except Failure Store := do
  s.reach
  return { s with texts := put k text s.texts, expiries := put k ttl s.expiries }

/-- Remove keys. -/
def delete (s : Store) (ks : List String) : Except Failure Store := do
  s.reach
  return { s with
    texts := s.texts.filter (fun e => !ks.contains e.1)
    expiries := s.expiries.filter (fun e => !ks.contains e.1) }

/-- A part of a pattern of keys: any text, or one character of a set. -/
inductive KeyPart where
  | any
  | one (s : CharSet)

/-- The set of one character. -/
def single (c : Char) : CharSet :=
  ⟨[(c.toNat, c.toNat)], false⟩

/-- The ranges of a class up to its bracket, and what follows it. The ends of a range come in either
order, a backslash takes the next character as it is, and a class that is not closed ends with the
pattern. -/
def keyRanges : List Char → List (Nat × Nat) × List Char
  | [] => ([], [])
  | c :: p =>
    if c == ']' then ([], p)
    else
      match c == '\\', p with
      | true, d :: q => ((d.toNat, d.toNat) :: (keyRanges q).1, (keyRanges q).2)
      | _, '-' :: d :: q =>
        ((min c.toNat d.toNat, max c.toNat d.toNat) :: (keyRanges q).1, (keyRanges q).2)
      | _, q => ((c.toNat, c.toNat) :: (keyRanges q).1, (keyRanges q).2)

/-- A class after its opening bracket, and what follows it. A caret in front turns the class round. -/
def keyClass : List Char → CharSet × List Char
  | '^' :: p => (⟨(keyRanges p).1, true⟩, (keyRanges p).2)
  | p => (⟨(keyRanges p).1, false⟩, (keyRanges p).2)

theorem length_keyRanges (p : List Char) : (keyRanges p).2.length ≤ p.length := by
  fun_induction keyRanges p <;> grind

theorem length_keyClass (p : List Char) : (keyClass p).2.length ≤ p.length := by
  unfold keyClass
  split
  · next p => exact Nat.le_succ_of_le (length_keyRanges p)
  · exact length_keyRanges p

/-- The parts of a pattern. A star is any text, a question mark any character, and a backslash takes
the next character as it is. -/
def keyParts : List Char → List KeyPart
  | [] => []
  | c :: p =>
    if c == '*' then .any :: keyParts p
    else if c == '?' then .one ⟨[], true⟩ :: keyParts p
    else if c == '[' then .one (keyClass p).1 :: keyParts (keyClass p).2
    else if c == '\\' then .one (single (p.headD c)) :: keyParts p.tail
    else .one (single c) :: keyParts p
termination_by p => p.length
decreasing_by
  · simp
  · simp
  · exact Nat.lt_succ_of_le (length_keyClass p)
  · rw [List.length_tail, List.length_cons]
    omega
  · simp

/-- A text has the parts of a pattern one after the other. -/
def hasParts : List KeyPart → List Char → Bool
  | [], t => t.isEmpty
  | .any :: ps, [] => hasParts ps []
  | .any :: ps, c :: t => hasParts ps (c :: t) || hasParts (.any :: ps) t
  | .one _ :: _, [] => false
  | .one s :: ps, c :: t => s.has c && hasParts ps t
termination_by ps t => (ps.length, t.length)

/-- A key fits a pattern. -/
def fits (pattern key : List Char) : Bool :=
  hasParts (keyParts pattern) key

/-- The keys that fit a pattern. -/
def keys (s : Store) (pattern : String) : Except Failure (List String) := do
  s.reach
  return (s.texts.map (·.1)).filter (fun k => fits pattern.toList k.toList)

/-- Remove everything. -/
def clear (s : Store) : Except Failure Store := do
  s.reach
  return { s with texts := [], expiries := [], sorted := [] }

/-- The number of texts. -/
def size (s : Store) : Except Failure Nat := do
  s.reach
  return s.texts.length

/-- Add a member to a sorted set, or give it a new score. -/
def addSorted (s : Store) (k member : String) (score : Num) : Except Failure Store := do
  s.reach
  return { s with sorted := put k (put member score ((s.sorted.lookup k).getD [])) s.sorted }

/-- Give a key a time to live. -/
def expire (s : Store) (k : String) (ttl : Json) : Except Failure Store := do
  s.reach
  return { s with expiries := put k ttl s.expiries }

/-- The order of the members of a sorted set: by score, then by text. -/
def memberLe (a b : String × Num) : Bool :=
  a.2.lt b.2 || a.2.eq b.2 && !decide (b.1 < a.1)

/-- The members of a sorted set in order. -/
def members (s : Store) (k : String) : List (String × Num) :=
  ((s.sorted.lookup k).getD []).mergeSort memberLe

/-- The members of a sorted set whose scores lie between two bounds, in order. -/
def range (s : Store) (k : String) (low high : Num) : Except Failure (List String) := do
  s.reach
  return ((s.members k).filter (fun m => low.le m.2 && m.2.le high)).map (·.1)

/-- The texts and their times to live. -/
def textReport (s : Store) : Fields :=
  [("data", .obj (s.texts.map (fun e => (e.1, .str e.2)))), ("ttl", .obj s.expiries)]

/-- The sorted sets and their times to live. -/
def setReport (s : Store) : Fields :=
  [("zsets", .obj (s.sorted.map (fun e =>
    (e.1, .arr ((s.members e.1).map (fun m => .arr [m.2.toJson, .str m.1])))))),
   ("ttl", .obj s.expiries)]

end Store

end SecureReview
