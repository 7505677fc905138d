import SecureReview.Text.Search
import SecureReview.Time.Date
/-!
# Reading dates

The usual written form: a date, a `T` or a blank, a time with or without seconds and a fraction of up
to six digits, and an offset from UTC, which may be missing.
-/

namespace SecureReview.DateTime

/-- A number of exactly `n` digits. -/
def digitsExactly (n : Nat) (cs : List Char) : Option (Nat × List Char) :=
  let ds := cs.take n
  if ds.length == n && ds.all Char.isDigit then
    some (ds.foldl (fun v c => v * 10 + (c.toNat - '0'.toNat)) 0, cs.drop n)
  else none

/-- One character out of a list. -/
def oneOf (allowed : List Char) : List Char → Option (List Char)
  | c :: cs => if allowed.contains c then some cs else none
  | [] => none

/-- A fraction of a second in millionths; digits after the sixth are dropped. -/
def readMicros (cs : List Char) : Option (Nat × List Char) :=
  match cs with
  | '.' :: r =>
    let ds := r.takeWhile Char.isDigit
    if ds.isEmpty then none
    else
      let six := (ds ++ List.replicate 6 '0').take 6
      some (six.foldl (fun v c => v * 10 + (c.toNat - '0'.toNat)) 0, r.drop ds.length)
  | _ => some (0, cs)

/-- An offset from UTC in seconds. -/
def readOffset (cs : List Char) : Option (Option Int) :=
  match cs with
  | [] => some none
  | ['Z'] => some (some 0)
  | ['z'] => some (some 0)
  | sign :: r => do
    guard (sign == '+' || sign == '-')
    let (h, r) ← digitsExactly 2 r
    let m ← match r with
      | [] => some 0
      | ':' :: r => do
        let (m, rest) ← digitsExactly 2 r
        guard rest.isEmpty
        pure m
      | r => do
        let (m, rest) ← digitsExactly 2 r
        guard rest.isEmpty
        pure m
    let seconds : Int := (h * 60 + m) * 60
    return some (if sign == '-' then -seconds else seconds)

/-- Seconds and their fraction, which may be missing. -/
def readSeconds (cs : List Char) : Option (Nat × Nat × List Char) :=
  match cs with
  | ':' :: r => do
    let (s, r) ← digitsExactly 2 r
    let (u, r) ← readMicros r
    return (s, u, r)
  | _ => some (0, 0, cs)

/-- Read a date with a time. -/
def ofText? (t : String) : Option DateTime := do
  let (y, r) ← digitsExactly 4 t.toList
  let r ← oneOf ['-'] r
  let (m, r) ← digitsExactly 2 r
  let r ← oneOf ['-'] r
  let (d, r) ← digitsExactly 2 r
  if r.isEmpty then return { year := y, month := m, day := d }
  let r ← oneOf ['T', 't', ' '] r
  let (h, r) ← digitsExactly 2 r
  let r ← oneOf [':'] r
  let (min, r) ← digitsExactly 2 r
  let (s, u, r) ← readSeconds r
  let offset ← readOffset r
  return { year := y, month := m, day := d, hour := h, minute := min, second := s, micro := u, offset }

end SecureReview.DateTime
