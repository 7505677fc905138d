import SecureReview.Number.Whole

/-!
# Bytes of text

Text files are kept as bytes. Decoding them as UTF-8 either gives the text or names the first
sequence of bytes that is not a character.
-/

namespace SecureReview.Text

/-- The bytes of a text. -/
def encodeUtf8 (s : String) : List UInt8 :=
  s.toUTF8.toList

/-- A malformed sequence: its first position, the position after it, its first byte, and the
complaint. -/
structure EncodingFlaw where
  start : Nat
  stop : Nat
  byte : UInt8
  reason : String

/-- The wording of a complaint. -/
def EncodingFlaw.message (f : EncodingFlaw) : String :=
  if f.stop == f.start + 1 then
    let hex := String.ofList (Nat.toDigits 16 f.byte.toNat)
    s!"'utf-8' codec can't decode byte 0x{hex} in position {f.start}: {f.reason}"
  else
    s!"'utf-8' codec can't decode bytes in position {f.start}-{f.stop - 1}: {f.reason}"

/-- A byte that continues a character. -/
def isContinuation (b : UInt8) : Bool :=
  0x80 ≤ b && b ≤ 0xBF

/-- The bytes that may follow the first byte of a longer character. Overlong forms, halves of pairs
and values beyond the last code point are left out. -/
def isSecond (first second : UInt8) : Bool :=
  if first == 0xE0 then 0xA0 ≤ second && second ≤ 0xBF
  else if first == 0xED then 0x80 ≤ second && second ≤ 0x9F
  else if first == 0xF0 then 0x90 ≤ second && second ≤ 0xBF
  else if first == 0xF4 then 0x80 ≤ second && second ≤ 0x8F
  else isContinuation second

/-- The number of bytes of a character by its first byte; zero if no character starts so. -/
def characterWidth (b : UInt8) : Nat :=
  if b < 0x80 then 1
  else if b < 0xC2 then 0
  else if b < 0xE0 then 2
  else if b < 0xF0 then 3
  else if b < 0xF5 then 4
  else 0

/-- How many bytes after the first belong to the character that is being read, and the flaw if one
of them is missing or wrong. -/
def continuationFlaw? (pos width : Nat) (first : UInt8) (rest : List UInt8) : Option EncodingFlaw :=
  let bad := fun n => some ⟨pos, pos + n, first, "invalid continuation byte"⟩
  let short := fun n => some ⟨pos, pos + n, first, "unexpected end of data"⟩
  match width, rest with
  | 1, _ => none
  | _, [] => short 1
  | _, b1 :: r =>
    if !isSecond first b1 then bad 1
    else if width == 2 then none
    else match r with
      | [] => short 2
      | b2 :: r =>
        if !isContinuation b2 then bad 2
        else if width == 3 then none
        else match r with
          | [] => short 3
          | b3 :: _ => if isContinuation b3 then none else bad 3

/-- The character of a well-formed sequence. -/
def assemble (width : Nat) (first : UInt8) (rest : List UInt8) : Char :=
  let low := fun (b : UInt8) => b.toNat % 64
  let lead := if width == 1 then first.toNat else first.toNat % Number.twoTo (7 - width)
  Char.ofNat ((rest.take (width - 1)).foldl (fun n b => n * 64 + low b) lead)

/-- Decode from `pos` on; the first `skip` bytes belong to the character before. -/
def decodeFrom : Nat → Nat → List Char → List UInt8 → Except EncodingFlaw (List Char)
  | _, _, acc, [] => .ok acc.reverse
  | skip + 1, pos, acc, _ :: t => decodeFrom skip (pos + 1) acc t
  | 0, pos, acc, b :: t =>
    let width := characterWidth b
    if width == 0 then .error ⟨pos, pos + 1, b, "invalid start byte"⟩
    else match continuationFlaw? pos width b t with
      | some flaw => .error flaw
      | none => decodeFrom (width - 1) (pos + 1) (assemble width b t :: acc) t

/-- Decode bytes as UTF-8. -/
def decodeUtf8 (bytes : List UInt8) : Except EncodingFlaw String :=
  (decodeFrom 0 0 [] bytes).map String.ofList

end SecureReview.Text
