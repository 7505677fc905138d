import SecureReview.Failure
import SecureReview.Number.Num
import SecureReview.Number.Whole
import SecureReview.Text.Numeral
import SecureReview.Time.Date
/-!
# Time stamps

A time as a number of seconds after the start of 1970, and the lenient reading of a time that is
written as a text or given as such a number.
-/

namespace SecureReview.DateTime

/-- The first time whose number of seconds can be told without an offset: the calendar has no day
before the first of the year one, and the search for the local clock looks one day back. -/
def firstTold : Int :=
  ((dayNumber 1 1 2 : Int) - 719163) * 86400

/-- Seconds after the start of 1970, as a double. With an offset the exact number is rounded once;
without one the fraction is added to the whole seconds. -/
def stamp (t : DateTime) : Except Failure Num :=
  match t.offset with
  | some _ => Num.div (.int t.ordinal) (.int 1000000)
  | none =>
    if t.localSeconds < firstTold then .error (.badValue "year 0 is out of range")
    else do
      let fraction ← Num.div (.int t.micro) (.float 1e6)
      Num.add (.int t.localSeconds) fraction

/-- `a ≤ b` in time. Times with and without an offset cannot be compared. -/
def notAfter (a b : DateTime) : Except Failure Bool :=
  if a.offset.isSome == b.offset.isSome then .ok (a.ordinal ≤ b.ordinal)
  else .error (.wrongKind "can't compare offset-naive and offset-aware datetimes")

/-! ## Reading -/

/-- A number of at least one and at most `n` digits, as many as there are. -/
def digitsUpTo (n : Nat) (cs : List Char) : Option (Nat × Nat × List Char) :=
  let ds := ((cs.take n).map Text.digitValue?).takeWhile Option.isSome
  if ds.isEmpty then none
  else some (Text.numberOf (ds.filterMap id), ds.length, cs.drop ds.length)

/-- A number of exactly `n` digits. -/
def digitsOf (n : Nat) (cs : List Char) : Option (Nat × List Char) :=
  match digitsUpTo n cs with
  | some (v, k, r) => if k == n then some (v, r) else none
  | none => none

/-- A character that has to be there. -/
def mark (c : Char) : List Char → Option (List Char)
  | d :: r => if c == d then some r else none
  | [] => none

/-- The end of the text, or a last line feed. -/
def atEnd : List Char → Bool
  | [] => true
  | ['\n'] => true
  | _ => false

/-- The fraction of a second, of at most twelve digits, of which six count. -/
def fraction (cs : List Char) : Option (Nat × List Char) := do
  let r ← mark '.' cs
  let (v, k, r) ← digitsUpTo 6 r
  let rest := match digitsUpTo 6 r with
    | some (_, _, rest) => rest
    | none => r
  return (v * Number.tenTo (6 - k), rest)

/-- Seconds with their fraction, if there are any. -/
def secondsPart (cs : List Char) : Nat × Nat × List Char :=
  match (do digitsUpTo 2 (← mark ':' cs)) with
  | none => (0, 0, cs)
  | some (s, _, r) =>
    match fraction r with
    | some (u, r) => (s, u, r)
    | none => (s, 0, r)

/-- The minutes of an offset, if there are any. -/
def offsetMinutes (cs : List Char) : Nat × List Char :=
  match digitsOf 2 ((mark ':' cs).getD cs) with
  | some (m, r) => (m, r)
  | none => (0, cs)

/-- The offset at the end of the text, if there is one. -/
def offsetPart (cs : List Char) : Option (Option Int) :=
  match cs with
  | 'Z' :: r => if atEnd r then some (some 0) else none
  | c :: r =>
    if c == '+' || c == '-' then do
      let (h, r) ← digitsOf 2 r
      let (m, r) := offsetMinutes r
      guard (atEnd r && h * 60 + m < 1440)
      let seconds : Int := ((h * 60 + m) * 60 : Nat)
      return some (if c == '-' then -seconds else seconds)
    else if atEnd cs then some none else none
  | [] => some none

/-- Read a written time, in which only the year needs all its digits. -/
def readWritten (s : String) : Option DateTime := do
  let (year, r) ← digitsOf 4 s.toList
  let (month, _, r) ← digitsUpTo 2 (← mark '-' r)
  let (day, _, r) ← digitsUpTo 2 (← mark '-' r)
  let r ← mark 'T' r <|> mark ' ' r
  let (hour, _, r) ← digitsUpTo 2 r
  let (minute, _, r) ← digitsUpTo 2 (← mark ':' r)
  let (second, micro, r) := secondsPart r
  let offset ← offsetPart r
  let t : DateTime := { year, month, day, hour, minute, second, micro, offset }
  guard t.isValid
  return t

/-- The time a number of microseconds after the start of 1970, in universal time. -/
def ofMicros (n : Int) : DateTime :=
  { ofSeconds (n.fdiv 1000000) (n.fmod 1000000).toNat with offset := some 0 }

/-- Larger numbers count thousandths of a second, or thousandths of those. -/
def watershed : Num := .int 20000000000

/-- The magnitude of a number. -/
def magnitude : Num → Num
  | .int n => .int n.natAbs
  | .float x => .float x.abs

/-- Divide by a thousand until the number counts seconds; fewer than eight steps are ever needed. -/
def toSeconds : Nat → Num → Option Num
  | 0, n => some n
  | steps + 1, n =>
    if watershed.lt (magnitude n) then
      match n.div (.int 1000) with
      | .ok m => toSeconds steps m
      | .error _ => none
    else some n

/-- Microseconds of a number of seconds: the fraction is taken in doubles and rounded to the nearest
microsecond, a half to the even one. -/
def microsOf : Num → Option Int
  | .int n => some (n * 1000000)
  | .float x => do
    let whole ← Number.truncate? x
    let part := (x - (← Number.ofInt? whole)) * 1e6
    match Number.parts part with
    | .finite negative m q =>
      let (num, den) := Number.quotient m q
      let u : Int := Number.roundHalfEven num den
      return whole * 1000000 + (if negative then -u else u)
    | _ => none

/-- The last time of the calendar. -/
def last : DateTime :=
  { year := 9999, month := 12, day := 31, hour := 23, minute := 59, second := 59, micro := 999999 }

/-- The first time of the calendar. -/
def first : DateTime := { year := 1, month := 1, day := 1 }

/-- The time that a number of seconds stands for. -/
def ofStamp? (n : Num) : Option DateTime :=
  let most : Num := .int 300000000000000000000
  if most.lt n then some last
  else if n.lt (.int (-300000000000000000000)) then some first
  else do
    let seconds ← toSeconds 8 n
    return ofMicros (← microsOf seconds)

end SecureReview.DateTime
