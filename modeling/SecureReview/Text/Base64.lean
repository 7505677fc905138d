/-!
# Bytes as text

The usual encoding of bytes by sixty-four characters: three bytes make four characters, and the last
group is filled up with equals signs.
-/

namespace SecureReview.Text

/-- The value of a character, if it stands for one. -/
def sextet? (c : Char) : Option Nat :=
  let n := c.toNat
  if 65 ≤ n && n ≤ 90 then some (n - 65)
  else if 97 ≤ n && n ≤ 122 then some (n - 71)
  else if 48 ≤ n && n ≤ 57 then some (n + 4)
  else if c == '+' then some 62
  else if c == '/' then some 63
  else none

/-- The character for a value below sixty-four. -/
def sextetChar (n : Nat) : Char :=
  if n < 26 then Char.ofNat (65 + n)
  else if n < 52 then Char.ofNat (71 + n)
  else if n < 62 then Char.ofNat (n - 4)
  else if n == 62 then '+' else '/'

/-- The bytes of a sequence of values. -/
def bytesOfSextets : List Nat → List UInt8
  | a :: b :: c :: d :: r =>
    let n := ((a * 64 + b) * 64 + c) * 64 + d
    UInt8.ofNat (n / 65536) :: UInt8.ofNat (n / 256 % 256) :: UInt8.ofNat (n % 256) :: bytesOfSextets r
  | [a, b, c] =>
    let n := ((a * 64 + b) * 64 + c) * 64
    [UInt8.ofNat (n / 65536), UInt8.ofNat (n / 256 % 256)]
  | [a, b] => [UInt8.ofNat ((a * 64 + b) / 16)]
  | _ => []

/-- The characters for a sequence of bytes. -/
def sextetChars : List UInt8 → List Char
  | a :: b :: c :: r =>
    let n := (a.toNat * 256 + b.toNat) * 256 + c.toNat
    sextetChar (n / 262144) :: sextetChar (n / 4096 % 64) :: sextetChar (n / 64 % 64) ::
      sextetChar (n % 64) :: sextetChars r
  | [a, b] =>
    let n := (a.toNat * 256 + b.toNat) * 256
    [sextetChar (n / 262144), sextetChar (n / 4096 % 64), sextetChar (n / 64 % 64), '=']
  | [a] =>
    let n := a.toNat * 65536
    [sextetChar (n / 262144), sextetChar (n / 4096 % 64), '=', '=']
  | [] => []

/-- Read bytes; characters that stand for no value are skipped. -/
def decodeBase64 (s : String) : List UInt8 :=
  bytesOfSextets (s.toList.filterMap sextet?)

/-- Write bytes. -/
def encodeBase64 (bytes : List UInt8) : String :=
  String.ofList (sextetChars bytes)

end SecureReview.Text
