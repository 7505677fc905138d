import SecureReview.Number.Whole

/-!
# Exact views of binary floating point

A finite double is a sign and a magnitude `m * 2 ^ q`. The functions here decode a double into that
form, turn the magnitude into a quotient of natural numbers, and round a quotient to the nearest
double, a tie going to the even neighbour.
-/

namespace SecureReview.Number

/-- A double taken apart. -/
inductive Parts where
  | finite (negative : Bool) (mantissa : Nat) (exponent : Int)
  | infinite (negative : Bool)
  | notANumber
  deriving BEq

/-- Decode a double: the magnitude of a finite one is `mantissa * 2 ^ exponent`. -/
def parts (x : Float) : Parts :=
  let bits := x.toBits.toNat
  let negative := bits / twoTo 63 == 1
  let field : Nat := bits / twoTo 52 % twoTo 11
  let fraction : Nat := bits % twoTo 52
  if field == 2047 then
    if fraction == 0 then .infinite negative else .notANumber
  else if field == 0 then .finite negative fraction (-1074)
  else .finite negative (twoTo 52 + fraction) ((field : Int) - 1075)

/-- `m * 2 ^ q` as a quotient of natural numbers. -/
def quotient (m : Nat) (q : Int) : Nat × Nat :=
  match q with
  | .ofNat k => (m * twoTo k, 1)
  | .negSucc k => (m, twoTo (k + 1))

/-- Round `num / den` to a whole number, a half going to the even neighbour. -/
def roundHalfEven (num den : Nat) : Nat :=
  let whole := num / den
  let twice := 2 * (num % den)
  if twice < den then whole
  else if den < twice then whole + 1
  else if whole % 2 == 0 then whole
  else whole + 1

/-- The double with the given bit pattern and sign. -/
def signed (negative : Bool) (bits : Nat) : Float :=
  Float.ofBits (UInt64.ofNat (if negative then twoTo 63 + bits else bits))

/-- The floor of the binary logarithm of the positive quotient `num / den`. -/
def floorLog2 (num den : Nat) : Int :=
  let guess : Int := (Nat.log2 num : Int) - (Nat.log2 den : Int)
  let (a, b) := match guess with
    | .ofNat k => (num, den * twoTo k)
    | .negSucc k => (num * twoTo (k + 1), den)
  if a < b then guess - 1 else guess

/-- The bit pattern of the double nearest to `num / den`, if it is finite. -/
def nearestBits (num den : Nat) : Option Nat :=
  if num == 0 then some 0
  else
    let q := max (-1074) (floorLog2 num den - 52)
    let m := match q with
      | .ofNat k => roundHalfEven num (den * twoTo k)
      | .negSucc k => roundHalfEven (num * twoTo (k + 1)) den
    let bits := if m < twoTo 52 then m else (q + 1075).toNat * twoTo 52 + (m - twoTo 52)
    if bits < 2047 * twoTo 52 then some bits else none

/-- The double nearest to a signed quotient, if it is finite. -/
def ofQuotient (negative : Bool) (num den : Nat) : Option Float :=
  (nearestBits num den).map (signed negative)

/-- The double nearest to a whole number, if it is finite. -/
def ofInt? (n : Int) : Option Float :=
  ofQuotient (n < 0) n.natAbs 1

/-- Positive infinity. -/
def infinity : Float := signed false (2047 * twoTo 52)

/-- The double that is not a number. -/
def nan : Float := signed false (2047 * twoTo 52 + twoTo 51)

/-- The double nearest to `digits * 10 ^ exponent`; beyond the finite range it is infinite. -/
def ofDecimal (negative : Bool) (digits : Nat) (exponent : Int) : Float :=
  let rounded := match exponent with
    | .ofNat k =>
      -- a power of ten past the range of a double decides the matter by itself
      if digits == 0 then some 0 else if 400 < k then none else nearestBits (digits * tenTo k) 1
    | .negSucc k =>
      if 400 + Nat.log2 digits < k then some 0 else nearestBits digits (tenTo (k + 1))
  match rounded with
  | some bits => signed negative bits
  | none => signed negative (2047 * twoTo 52)

/-- A whole number with the same value as the double, dropping its fraction. -/
def truncate? (x : Float) : Option Int :=
  match parts x with
  | .finite negative m q =>
    let (num, den) := quotient m q
    some (if negative then -((num / den : Nat) : Int) else (num / den : Nat))
  | _ => none

end SecureReview.Number
