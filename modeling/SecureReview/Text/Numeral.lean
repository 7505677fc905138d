import SecureReview.Text.Blank
import SecureReview.Text.Quoted
/-!
# Numerals in text

Reading a whole number or a decimal from text. Blanks around the numeral are allowed, a sign may
stand before it, single underscores may stand between digits, and the decimal digits of every script
count as digits.
-/

namespace SecureReview.Text

/-- The code points of the digit zero in every script. -/
def zeroDigits : List Nat := [
  0x30, 0x660, 0x6f0, 0x7c0, 0x966, 0x9e6, 0xa66, 0xae6, 0xb66, 0xbe6,
  0xc66, 0xce6, 0xd66, 0xde6, 0xe50, 0xed0, 0xf20, 0x1040, 0x1090, 0x17e0,
  0x1810, 0x1946, 0x19d0, 0x1a80, 0x1a90, 0x1b50, 0x1bb0, 0x1c40, 0x1c50, 0xa620,
  0xa8d0, 0xa900, 0xa9d0, 0xa9f0, 0xaa50, 0xabf0, 0xff10, 0x104a0, 0x10d30, 0x11066,
  0x110f0, 0x11136, 0x111d0, 0x112f0, 0x11450, 0x114d0, 0x11650, 0x116c0, 0x11730, 0x118e0,
  0x11950, 0x11c50, 0x11d50, 0x11da0, 0x16a60, 0x16ac0, 0x16b50, 0x1d7ce, 0x1d7d8, 0x1d7e2,
  0x1d7ec, 0x1d7f6, 0x1e140, 0x1e2f0, 0x1e950, 0x1fbf0]

/-- The value of a decimal digit. -/
def digitValue? (c : Char) : Option Nat :=
  let n := c.toNat
  if 48 ≤ n && n ≤ 57 then some (n - 48)
  else if n < 0x660 then none
  else (zeroDigits.find? (fun z => z ≤ n && n ≤ z + 9)).map (n - ·)

/-- The number written by a list of digit values, the first the most significant. -/
def numberOf (ds : List Nat) : Nat :=
  ds.foldl (fun n d => 10 * n + d) 0

/-- Digits with single underscores between them; `afterDigit` says that a digit has just been read. -/
def digitRun? : Bool → List Char → Option (List Nat)
  | afterDigit, [] => if afterDigit then some [] else none
  | afterDigit, c :: t =>
    if c == '_' then (if afterDigit then digitRun? false t else none)
    else match digitValue? c with
      | some d => (digitRun? true t).map (d :: ·)
      | none => none

/-- What can go wrong when a whole number is read. -/
inductive NumeralError where
  | malformed (text : String)
  | tooLong (digits : Nat)

/-- The longest numeral that is converted. -/
def maxDigits : Nat := 4300

/-- The wording of the two errors; a long text is cut. -/
def NumeralError.message : NumeralError → String
  | .malformed text =>
    "invalid literal for int() with base 10: " ++ String.ofList ((quote text).toList.take 200)
  | .tooLong digits =>
    s!"Exceeds the limit ({maxDigits} digits) for integer string conversion: value has {digits} digits; use sys.set_int_max_str_digits() to increase the limit"

/-- A sign before a numeral. -/
def takeSign : List Char → Bool × List Char
  | '-' :: t => (true, t)
  | '+' :: t => (false, t)
  | t => (false, t)

/-- Read a whole number. -/
def readInt (s : String) : Except NumeralError Int :=
  let (negative, t) := takeSign (trim s.toList)
  match digitRun? false t with
  | none => .error (.malformed s)
  | some ds =>
    if ds.length > maxDigits then .error (.tooLong ds.length)
    else .ok (if negative then -(numberOf ds : Int) else numberOf ds)

/-- The part of a decimal before its exponent: digits, a point, digits. The exponent mark `e` ends it. -/
def splitExponent (t : List Char) : List Char × Option (List Char) :=
  let isMark := fun c => c == 'e' || c == 'E'
  match t.dropWhile (fun c => !isMark c) with
  | [] => (t, none)
  | _ :: e => (t.takeWhile (fun c => !isMark c), some e)

/-- Digits that may be absent. -/
def digitRunOrNone? (t : List Char) : Option (List Nat) :=
  if t.isEmpty then some [] else digitRun? false t

/-- The digits and the scale of an unsigned decimal without exponent. -/
def mantissa? (t : List Char) : Option (List Nat × Nat) :=
  let whole := t.takeWhile (· != '.')
  match t.dropWhile (· != '.') with
  | [] => (digitRun? false whole).map (fun ds => (ds, 0))
  | _ :: fraction =>
    match digitRunOrNone? whole, digitRunOrNone? fraction with
    | some a, some b => if a.isEmpty && b.isEmpty then none else some (a ++ b, b.length)
    | _, _ => none

/-- A decimal read from text: a sign, then digits times a power of ten, or one of the two special
values. -/
inductive Decimal where
  | finite (negative : Bool) (digits : Nat) (exponent : Int)
  | infinite (negative : Bool)
  | notANumber

/-- Read a decimal. -/
def readDecimal? (s : String) : Option Decimal :=
  let (negative, t) := takeSign (trim s.toList)
  let word := String.ofList (t.map Char.toLower)
  if word == "inf" || word == "infinity" then some (.infinite negative)
  else if word == "nan" then some .notANumber
  else
    let (m, e) := splitExponent t
    match mantissa? m with
    | none => none
    | some (ds, scale) =>
      match e with
      | none => some (.finite negative (numberOf ds) (-(scale : Int)))
      | some e =>
        let (down, e) := takeSign e
        (digitRun? false e).map (fun es =>
          .finite negative (numberOf ds)
            ((if down then -(numberOf es : Int) else numberOf es) - scale))

end SecureReview.Text
