import SecureReview.Json.Basic
import SecureReview.Number.Binary
/-!
# Tokens of JSON text

The text is cut into tokens, each with its position. The scanner recurses on the text itself: `skip`
counts the characters of the current token that are still to be passed over. A string that is broken
is a token too, since it is an error only where a string is wanted.
-/

namespace SecureReview.Json

/-- What is wrong with a text, and where. -/
structure Flaw where
  message : String
  pos : Nat
  deriving BEq, DecidableEq

/-- The smallest parts of JSON text. -/
inductive Token where
  | openArr
  | closeArr
  | openObj
  | closeObj
  | comma
  | colon
  | text (s : String)
  | scalar (v : Json)
  | broken (flaw : Flaw)
  | unknown
  | stop

/-- A token and the position of its first character. -/
structure Spot where
  pos : Nat
  token : Token

/-- The value of a hexadecimal digit. -/
def hexValue? (c : Char) : Option Nat :=
  let n := c.toNat
  if 48 ≤ n && n ≤ 57 then some (n - 48)
  else if 97 ≤ n && n ≤ 102 then some (n - 87)
  else if 65 ≤ n && n ≤ 70 then some (n - 55)
  else none

/-- The value of four hexadecimal digits. -/
def hexValue4? (a b c d : Char) : Option Nat :=
  match hexValue? a, hexValue? b, hexValue? c, hexValue? d with
  | some a, some b, some c, some d => some (((a * 16 + b) * 16 + c) * 16 + d)
  | _, _, _, _ => none

/-- The character meant by a one-letter escape. -/
def escaped? : Char → Option Char
  | '"' => some '"'
  | '\\' => some '\\'
  | '/' => some '/'
  | 'b' => some '\x08'
  | 'f' => some '\x0c'
  | 'n' => some '\n'
  | 'r' => some '\r'
  | 't' => some '\t'
  | _ => none

/-- The first half of a pair of code units. -/
def isHighUnit (n : Nat) : Bool := 0xD800 ≤ n && n ≤ 0xDBFF

/-- The second half of a pair of code units. -/
def isLowUnit (n : Nat) : Bool := 0xDC00 ≤ n && n ≤ 0xDFFF

/-- The character of a code unit that stands alone; half a pair becomes the replacement character. -/
def charOfUnit (n : Nat) : Char :=
  if isHighUnit n || isLowUnit n then Char.ofNat 0xFFFD else Char.ofNat n

/-- The character of a pair of code units. -/
def charOfPair (high low : Nat) : Char :=
  Char.ofNat (0x10000 + (high - 0xD800) * 0x400 + (low - 0xDC00))

/-- The second half of a pair, if an escaped code unit stands at the start of the text. -/
def secondUnit? : List Char → Option (Option Nat)
  | '\\' :: 'u' :: a :: b :: c :: d :: _ :: _ => some (hexValue4? a b c d)
  | _ => none

/-- The escape whose backslash is at `pos` and which continues with the given text, in a string that
began at `start`: the character it means and the number of characters after the backslash. An escaped
code unit is read only if another character follows it. -/
def escapeAt (start pos : Nat) : List Char → Except Flaw (Char × Nat)
  | [] => .error ⟨"Unterminated string starting at", start⟩
  | 'u' :: a :: b :: c :: d :: e :: t =>
    match hexValue4? a b c d with
    | none => .error ⟨"Invalid \\uXXXX escape", pos + 1⟩
    | some n =>
      if isHighUnit n then
        match secondUnit? (e :: t) with
        | none => .ok (charOfUnit n, 5)
        | some none => .error ⟨"Invalid \\uXXXX escape", pos + 7⟩
        | some (some m) => if isLowUnit m then .ok (charOfPair n m, 11) else .ok (charOfUnit n, 5)
      else .ok (charOfUnit n, 5)
  | 'u' :: _ => .error ⟨"Invalid \\uXXXX escape", pos + 1⟩
  | c :: _ =>
    match escaped? c with
    | some x => .ok (x, 1)
    | none => .error ⟨"Invalid \\escape", pos⟩

/-- The rest of a string after its opening quote at `start`: the text continues at `pos`, its first
`skip` characters belong to an escape, and `acc` holds the characters read so far in reverse. The
answer is the string and the position after it. -/
def stringBody (start : Nat) : Nat → Nat → List Char → List Char → Except Flaw (String × Nat)
  | _, _, _, [] => .error ⟨"Unterminated string starting at", start⟩
  | skip + 1, pos, acc, _ :: t => stringBody start skip (pos + 1) acc t
  | 0, pos, acc, c :: t =>
    if c == '"' then .ok (String.ofList acc.reverse, pos + 1)
    else if c == '\\' then
      match escapeAt start pos t with
      | .ok (x, n) => stringBody start n (pos + 1) (x :: acc) t
      | .error flaw => .error flaw
    else if c.toNat < 32 then .error ⟨"Invalid control character at", pos⟩
    else stringBody start 0 (pos + 1) (c :: acc) t

/-- The value of a run of ASCII digits. -/
def digitsValue (ds : List Char) : Nat :=
  ds.foldl (fun n c => 10 * n + (c.toNat - 48)) 0

/-- The digits at the start of a text. -/
def leadingDigits (t : List Char) : List Char :=
  t.takeWhile Char.isDigit

/-- The fraction at the start of a text: its digits, if a point and a digit stand there. -/
def leadingFraction : List Char → List Char
  | '.' :: t => leadingDigits t
  | _ => []

/-- The exponent at the start of a text: its value and length, if it has a digit. -/
def leadingExponent? : List Char → Option (Int × Nat)
  | e :: t =>
    if e == 'e' || e == 'E' then
      let (negative, sign, rest) := match t with
        | '-' :: r => (true, 1, r)
        | '+' :: r => (false, 1, r)
        | r => (false, 0, r)
      let ds := leadingDigits rest
      if ds.isEmpty then none
      else
        let n : Int := digitsValue ds
        some (if negative then -n else n, 1 + sign + ds.length)
    else none
  | [] => none

/-- The digits of a whole number at the start of a text: no zero stands before other digits. -/
def leadingWhole : List Char → List Char
  | '0' :: _ => ['0']
  | t => leadingDigits t

/-- A number at the start of a text, with its length. -/
def number? (t : List Char) : Option (Json × Nat) :=
  let (negative, unsigned) := match t with
    | '-' :: r => (true, r)
    | r => (false, r)
  let whole := leadingWhole unsigned
  if whole.isEmpty then none
  else
    let afterWhole := unsigned.drop whole.length
    let fraction := leadingFraction afterWhole
    let fractionLength := if fraction.isEmpty then 0 else fraction.length + 1
    let afterFraction := afterWhole.drop fractionLength
    let signLength := if negative then 1 else 0
    let length := signLength + whole.length + fractionLength
    match leadingExponent? afterFraction with
    | some (e, n) =>
      some (.float (Number.ofDecimal negative (digitsValue (whole ++ fraction))
        (e - fraction.length)), length + n)
    | none =>
      if fraction.isEmpty then
        let n : Int := digitsValue whole
        some (.int (if negative then -n else n), length)
      else
        some (.float (Number.ofDecimal negative (digitsValue (whole ++ fraction))
          (-(fraction.length : Int))), length)

/-- The words that are values. -/
def words : List (String × Json) :=
  [("null", .null), ("true", .bool true), ("false", .bool false),
   ("NaN", .float Number.nan), ("Infinity", .float Number.infinity),
   ("-Infinity", .float (-Number.infinity))]

/-- The token at the start of a non-empty text at `pos`, and its length. -/
def Token.first (pos : Nat) : List Char → Token × Nat
  | '[' :: _ => (.openArr, 1)
  | ']' :: _ => (.closeArr, 1)
  | '\x7b' :: _ => (.openObj, 1)
  | '\x7d' :: _ => (.closeObj, 1)
  | ',' :: _ => (.comma, 1)
  | ':' :: _ => (.colon, 1)
  | '"' :: t =>
    match stringBody pos 0 (pos + 1) [] t with
    | .ok (s, next) => (.text s, next - pos)
    | .error flaw => (.broken flaw, 1)
  | t =>
    match words.find? (fun w => w.1.toList.isPrefixOf t) with
    | some (w, v) => (.scalar v, w.length)
    | none =>
      match number? t with
      | some (v, n) => (.scalar v, n)
      | none => (.unknown, 1)

/-- The blanks between tokens. -/
def isGap (c : Char) : Bool :=
  c == ' ' || c == '\n' || c == '\t' || c == '\r'

/-- Cut a text into tokens. The first `skip` characters belong to the token before. -/
def scanFrom : Nat → Nat → List Char → List Spot
  | _, pos, [] => [⟨pos, .stop⟩]
  | skip + 1, pos, _ :: t => scanFrom skip (pos + 1) t
  | 0, pos, c :: t =>
    if isGap c then scanFrom 0 (pos + 1) t
    else
      let (token, length) := Token.first pos (c :: t)
      ⟨pos, token⟩ :: scanFrom (length - 1) (pos + 1) t

/-- The tokens of a text; the last one marks its end. -/
def scan (t : List Char) : List Spot :=
  scanFrom 0 0 t

end SecureReview.Json
