import SecureReview.Number.Whole

/-!
# Dates and times

Calendar dates of the Gregorian calendar with a time of day to the microsecond, and optionally the
distance of the local clock from universal time. `ordinal` counts days, so that times can be compared
and subtracted.
-/

namespace SecureReview

/-- A date and time. `offset` is the distance from universal time in seconds, if one is given. -/
structure DateTime where
  year : Nat
  month : Nat
  day : Nat
  hour : Nat := 0
  minute : Nat := 0
  second : Nat := 0
  micro : Nat := 0
  offset : Option Int := none
  deriving DecidableEq

namespace DateTime

/-- The year has a 29th of February. -/
def isLeap (y : Nat) : Bool :=
  y % 4 == 0 && (y % 100 != 0 || y % 400 == 0)

/-- The number of days of a month. -/
def daysInMonth (y m : Nat) : Nat :=
  if m == 2 then (if isLeap y then 29 else 28)
  else if m == 4 || m == 6 || m == 9 || m == 11 then 30
  else 31

/-- The number of days before the first day of a year, counted from the year one. -/
def daysBeforeYear (y : Nat) : Nat :=
  let z := y - 1
  z * 365 + z / 4 - z / 100 + z / 400

/-- The number of days of a year before a month. -/
def daysBeforeMonth (y m : Nat) : Nat :=
  Number.total ((List.range (m - 1)).map (fun i => daysInMonth y (i + 1)))

/-- The number of a day; the first of January of the year one is day one. -/
def dayNumber (y m d : Nat) : Nat :=
  daysBeforeYear y + daysBeforeMonth y m + d

/-- Whole seconds from the start of 1970, as shown by the local clock. -/
def localSeconds (t : DateTime) : Int :=
  ((dayNumber t.year t.month t.day : Int) - 719163) * 86400 +
    (t.hour * 3600 + t.minute * 60 + t.second : Nat)

/-- Microseconds from the start of 1970 in universal time; without an offset the local clock shows
universal time. -/
def ordinal (t : DateTime) : Int :=
  (t.localSeconds - t.offset.getD 0) * 1000000 + t.micro

/-- The month that holds the day number `d` of a year, and the day of that month. -/
def monthOf (y : Nat) : List Nat → Nat → Nat × Nat
  | [], d => (12, d)
  | m :: ms, d => if d ≤ daysInMonth y m then (m, d) else monthOf y ms (d - daysInMonth y m)

/-- The largest of the years from `y` down that begins before day `n`. -/
def yearAtMost (n : Nat) : Nat → Nat
  | 0 => 1
  | y + 1 => if daysBeforeYear (y + 1) < n then y + 1 else yearAtMost n y

/-- The calendar date of a day number. -/
def dateOf (n : Nat) : Nat × Nat × Nat :=
  let y := yearAtMost n (n / 365 + 1)
  let (m, d) := monthOf y (List.range 12 |>.map (· + 1)) (n - daysBeforeYear y)
  (y, m, d)

/-- The date and time a number of seconds after the start of 1970. -/
def ofSeconds (s : Int) (micro : Nat := 0) : DateTime :=
  let days := s.fdiv 86400
  let rest := (s.fmod 86400).toNat
  let (y, m, d) := dateOf (days + 719163).toNat
  { year := y, month := m, day := d, hour := rest / 3600, minute := rest % 3600 / 60,
    second := rest % 60, micro }

/-- The time a number of seconds later, on the same clock. -/
def addSeconds (t : DateTime) (s : Int) : DateTime :=
  { ofSeconds (t.localSeconds + s) t.micro with offset := t.offset }

/-- The last `width` decimal digits of `n`. -/
def pad : Nat → Nat → List Char
  | 0, _ => []
  | width + 1, n => pad width (n / 10) ++ [Char.ofNat (48 + n % 10)]

/-- A number with a fixed number of digits. -/
def padded (width n : Nat) : String :=
  String.ofList (pad width n)

/-- An offset as text: sign, hours, minutes, and seconds if there are any. -/
def offsetText (o : Int) : String :=
  let n := o.natAbs
  let seconds := if n % 60 == 0 then "" else ":" ++ padded 2 (n % 60)
  (if o < 0 then "-" else "+") ++ padded 2 (n / 3600) ++ ":" ++ padded 2 (n % 3600 / 60) ++ seconds

/-- The part of a text form that is common to all: date, separator, time, fraction if not zero. -/
def textWith (separator : String) (t : DateTime) : String :=
  padded 4 t.year ++ "-" ++ padded 2 t.month ++ "-" ++ padded 2 t.day ++ separator ++
    padded 2 t.hour ++ ":" ++ padded 2 t.minute ++ ":" ++ padded 2 t.second ++
    (if t.micro == 0 then "" else "." ++ padded 6 t.micro) ++
    (match t.offset with
      | none => ""
      | some o => offsetText o)

/-- The standard text of a time. -/
def iso (t : DateTime) : String := t.textWith "T"

/-- The text of a time in a sentence. -/
def display (t : DateTime) : String := t.textWith " "

/-- Year and month. The year has no leading zeros. -/
def monthText (t : DateTime) : String :=
  String.ofList (Nat.toDigits 10 t.year) ++ "-" ++ padded 2 t.month

/-- The fields name a day of the calendar and a time of the day. -/
def isValid (t : DateTime) : Bool :=
  1 ≤ t.year && t.year ≤ 9999 && 1 ≤ t.month && t.month ≤ 12 && 1 ≤ t.day &&
    t.day ≤ daysInMonth t.year t.month && t.hour < 24 && t.minute < 60 && t.second < 60 &&
    t.micro < 1000000

end DateTime

end SecureReview
