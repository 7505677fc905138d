import SecureReview.Json.Basic
import SecureReview.Number.Decimal
import SecureReview.Text.Numeral
/-!
# Writing JSON text

Text is plain ASCII: every other character is written as one or two escaped code units. There are
two layouts: one line with a blank after each comma and colon, and one item per line with an indent
of two blanks for each level. A whole number of too many digits has no text.
-/

namespace SecureReview.Json

/-- A code unit as an escape. -/
def unitEscape (n : Nat) : List Char :=
  '\\' :: 'u' :: Text.hexDigits 4 n

/-- A character inside a string. -/
def escapeChar (c : Char) : List Char :=
  let n := c.toNat
  if c == '"' then ['\\', '"']
  else if c == '\\' then ['\\', '\\']
  else if c == '\n' then ['\\', 'n']
  else if c == '\r' then ['\\', 'r']
  else if c == '\t' then ['\\', 't']
  else if n == 8 then ['\\', 'b']
  else if n == 12 then ['\\', 'f']
  else if 32 ≤ n && n < 127 then [c]
  else if n < 0x10000 then unitEscape n
  else
    let m := n - 0x10000
    unitEscape (0xD800 + m / 0x400) ++ unitEscape (0xDC00 + m % 0x400)

/-- A string in its quotes. -/
def renderString (s : String) : List Char :=
  '"' :: (s.toList.flatMap escapeChar ++ ['"'])

/-- The decimal text of a whole number. -/
def renderInt (n : Int) : List Char :=
  if n < 0 then '-' :: Number.digits n.natAbs else Number.digits n.natAbs

/-- A floating-point number; the special values are words. -/
def renderFloat (x : Float) : List Char :=
  match Number.parts x with
  | .notANumber => "NaN".toList
  | .infinite negative => if negative then "-Infinity".toList else "Infinity".toList
  | .finite .. => (Number.floatText x).toList

mutual

/-- A value on one line. -/
def render : Json → List Char
  | .null => "null".toList
  | .bool b => if b then "true".toList else "false".toList
  | .int n => renderInt n
  | .float x => renderFloat x
  | .str s => renderString s
  | .arr [] => ['[', ']']
  | .arr (x :: xs) => '[' :: (render x ++ renderItems xs)
  | .obj [] => ['\x7b', '\x7d']
  | .obj ((k, v) :: fs) => '\x7b' :: (renderString k ++ ':' :: ' ' :: (render v ++ renderFields fs))

/-- The items after the first of an array, and its end. -/
def renderItems : List Json → List Char
  | [] => [']']
  | x :: xs => ',' :: ' ' :: (render x ++ renderItems xs)

/-- The fields after the first of an object, and its end. -/
def renderFields : List (String × Json) → List Char
  | [] => ['\x7d']
  | (k, v) :: fs =>
    ',' :: ' ' :: (renderString k ++ ':' :: ' ' :: (render v ++ renderFields fs))

end

/-- A new line at a level of indentation. -/
def newline (level : Nat) : List Char :=
  '\n' :: List.replicate (2 * level) ' '

mutual

/-- A value with one item per line; `level` is the indentation of the line it begins on. -/
def renderIndented (level : Nat) : Json → List Char
  | .null => "null".toList
  | .bool b => if b then "true".toList else "false".toList
  | .int n => renderInt n
  | .float x => renderFloat x
  | .str s => renderString s
  | .arr [] => ['[', ']']
  | .arr (x :: xs) =>
    '[' :: (newline (level + 1) ++ (renderIndented (level + 1) x ++ indentedItems level xs))
  | .obj [] => ['\x7b', '\x7d']
  | .obj ((k, v) :: fs) =>
    '\x7b' :: (newline (level + 1) ++ (renderString k ++ ':' :: ' ' ::
      (renderIndented (level + 1) v ++ indentedFields level fs)))

/-- The items after the first of an array, and its end. -/
def indentedItems (level : Nat) : List Json → List Char
  | [] => newline level ++ [']']
  | x :: xs =>
    ',' :: (newline (level + 1) ++ (renderIndented (level + 1) x ++ indentedItems level xs))

/-- The fields after the first of an object, and its end. -/
def indentedFields (level : Nat) : List (String × Json) → List Char
  | [] => newline level ++ ['\x7d']
  | (k, v) :: fs =>
    ',' :: (newline (level + 1) ++ (renderString k ++ ':' :: ' ' ::
      (renderIndented (level + 1) v ++ indentedFields level fs)))

end

/-- A value as text on one line. -/
def compact (v : Json) : String :=
  String.ofList (render v)

/-- A value as indented text. -/
def pretty (v : Json) : String :=
  String.ofList (renderIndented 0 v)

mutual

/-- No whole number in the value has too many digits to be written. -/
def isWritable : Json → Bool
  | .int n => (Number.digits n.natAbs).length ≤ Text.maxDigits
  | .arr xs => areWritable xs
  | .obj fs => haveWritable fs
  | _ => true

/-- All items of a list can be written. -/
def areWritable : List Json → Bool
  | [] => true
  | x :: xs => isWritable x && areWritable xs

/-- The fields of an object can be written. -/
def haveWritable : List (String × Json) → Bool
  | [] => true
  | (_, v) :: fs => isWritable v && haveWritable fs

end

mutual

/-- The value with the keys of every object in increasing order. -/
def sortKeys : Json → Json
  | .arr xs => .arr (sortKeysList xs)
  | .obj fs => .obj ((sortKeysFields fs).mergeSort (fun a b => !decide (b.1 < a.1)))
  | v => v

/-- Sort the keys inside the items of a list. -/
def sortKeysList : List Json → List Json
  | [] => []
  | x :: xs => sortKeys x :: sortKeysList xs

/-- Sort the keys inside the fields of an object. -/
def sortKeysFields : List (String × Json) → List (String × Json)
  | [] => []
  | (k, v) :: fs => (k, sortKeys v) :: sortKeysFields fs

end

end SecureReview.Json
