import SecureReview.Number.Binary
import SecureReview.Number.Whole
/-!
# Decimal text of a double

The shortest decimal that reads back as the same double, and decimals with a fixed number of places.
Both work on the exact value of the double, so no rounding happens on the way.
-/

namespace SecureReview.Number

/-- The decimal digits of a natural number. -/
def digits (n : Nat) : List Char :=
  Nat.toDigits 10 n

/-- A magnitude `m * 2 ^ q` reads back from every real in an interval; `low / den` and `high / den`
are its ends, which belong to it when `closed`. Below a power of two the spacing is halved. -/
structure Interval where
  low : Nat
  high : Nat
  den : Nat
  closed : Bool

/-- The interval of the reals that round to `m * 2 ^ q`. -/
def roundingInterval (m : Nat) (q : Int) : Interval :=
  let (num, den) := quotient 1 (q - 2)
  let below := if m == twoTo 52 && q != -1074 then 1 else 2
  { low := (4 * m - below) * num, high := (4 * m + 2) * num, den, closed := m % 2 == 0 }

/-- The quotient `num / den` lies in the interval. -/
def Interval.holds (i : Interval) (num den : Nat) : Bool :=
  if i.closed then
    i.low * den ≤ num * i.den && num * i.den ≤ i.high * den
  else
    i.low * den < num * i.den && num * i.den < i.high * den

/-- `c * 10 ^ e` as a quotient. -/
def decimalQuotient (c : Nat) (e : Int) : Nat × Nat :=
  match e with
  | .ofNat k => (c * tenTo k, 1)
  | .negSucc k => (c, tenTo (k + 1))

/-- The floor of the decimal logarithm of a positive quotient. -/
def floorLog10 (num den : Nat) : Int :=
  let guess : Int := ((digits num).length : Int) - ((digits den).length : Int)
  let (a, b) := match guess with
    | .ofNat k => (num, den * tenTo k)
    | .negSucc k => (num * tenTo (k + 1), den)
  if a < b then guess - 1 else guess

/-- The coefficient of the decimal with last place `10 ^ e` that is the best one inside the interval
around `num / den`: of the two neighbours the nearer, and the even one of two equally near. -/
def Interval.coefficient? (i : Interval) (num den : Nat) (e : Int) : Option Nat :=
  let (a, b) := match e with
    | .ofNat k => (num, den * tenTo k)
    | .negSucc k => (num * tenTo (k + 1), den)
  let inside := fun c => let (n, d) := decimalQuotient c e; i.holds n d
  let best := roundHalfEven a b
  if inside best then some best
  else
    let down := a / b
    if inside down then some down
    else if inside (down + 1) then some (down + 1)
    else none

/-- Search for the fewest digits: `places` more digits may be tried, the last place being `10 ^ e`. -/
def Interval.fewest (i : Interval) (num den : Nat) : Nat → Int → Nat × Int
  | 0, e => (roundHalfEven num den, e)
  | places + 1, e =>
    match i.coefficient? num den e with
    | some c => (c, e)
    | none => i.fewest num den places (e - 1)

/-- The shortest decimal `c * 10 ^ e` that reads back as the positive magnitude `m * 2 ^ q`. -/
def shortest (m : Nat) (q : Int) : Nat × Int :=
  let (num, den) := quotient m q
  (roundingInterval m q).fewest num den 17 (floorLog10 num den)

/-- Drop the zeros at the end. -/
def dropZeros (t : List Char) : List Char :=
  (t.reverse.dropWhile (· == '0')).reverse

/-- Exponents are written with a sign and at least two digits. -/
def exponentText (k : Int) : List Char :=
  let ds := digits k.natAbs
  (if k < 0 then '-' else '+') :: (if ds.length < 2 then '0' :: ds else ds)

/-- The text of a decimal with significant digits `ds`, the first of which has weight `10 ^ k`.
Positional from `10 ^ -4` up to, but without, `10 ^ 16`; a whole number ends in `.0`. -/
def layout (ds : List Char) (k : Int) : List Char :=
  if k < -4 || 16 ≤ k then
    match ds with
    | [] => []
    | [d] => d :: 'e' :: exponentText k
    | d :: rest => d :: '.' :: rest ++ 'e' :: exponentText k
  else if k < 0 then
    '0' :: '.' :: List.replicate ((-k).toNat - 1) '0' ++ ds
  else
    let whole := k.toNat + 1
    let padded := ds ++ List.replicate (whole - ds.length) '0'
    let fraction := padded.drop whole
    padded.take whole ++ '.' :: (if fraction.isEmpty then ['0'] else fraction)

/-- The shortest text that reads back as the double. -/
def floatText (x : Float) : String :=
  match parts x with
  | .notANumber => "nan"
  | .infinite negative => if negative then "-inf" else "inf"
  | .finite negative m q =>
    let sign := if negative then ['-'] else []
    if m == 0 then String.ofList (sign ++ ['0', '.', '0'])
    else
      let (c, e) := shortest m q
      let all := digits c
      let k := e + (all.length : Int) - 1
      String.ofList (sign ++ layout (dropZeros all) k)

/-- `n` with a decimal point before its last `places` digits. -/
def pointed (n places : Nat) : List Char :=
  if places == 0 then digits n
  else
    let ds := digits n
    let padded := List.replicate (places + 1 - ds.length) '0' ++ ds
    padded.take (padded.length - places) ++ '.' :: padded.drop (padded.length - places)

/-- A quotient rounded to a number of places, a half going to the even neighbour. -/
def fixedQuotient (num den places : Nat) : List Char :=
  pointed (roundHalfEven (num * tenTo places) den) places

/-- A double with a fixed number of places, rounded from its exact value. -/
def fixed (x : Float) (places : Nat) : String :=
  match parts x with
  | .notANumber => "nan"
  | .infinite negative => if negative then "-inf" else "inf"
  | .finite negative m q =>
    let (num, den) := quotient m q
    String.ofList ((if negative then ['-'] else []) ++ fixedQuotient num den places)

/-- The double nearest to the decimal that `x` rounds to at a number of places. -/
def roundTo (x : Float) (places : Nat) : Float :=
  match parts x with
  | .finite negative m q =>
    let (num, den) := quotient m q
    ofDecimal negative (roundHalfEven (num * tenTo places) den) (-(places : Int))
  | _ => x

end SecureReview.Number
