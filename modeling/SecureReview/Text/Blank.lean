/-!
# White space

The characters that count as blank, and texts without blanks at their ends.
-/

namespace SecureReview.Text

/-- White space in the wide sense: the ASCII blanks, the four information separators, the next-line
control and every space separator or line separator of Unicode. -/
def isBlank (c : Char) : Bool :=
  let n := c.toNat
  (9 ≤ n && n ≤ 13) || (28 ≤ n && n ≤ 32) || n == 0x85 || n == 0xA0 || n == 0x1680 ||
    (0x2000 ≤ n && n ≤ 0x200A) || n == 0x2028 || n == 0x2029 || n == 0x202F || n == 0x205F ||
    n == 0x3000

/-- Drop the elements at the end that satisfy `p`. -/
def dropRightWhile (p : Char → Bool) (t : List Char) : List Char :=
  (t.reverse.dropWhile p).reverse

/-- Drop the blanks at both ends. -/
def trim (t : List Char) : List Char :=
  dropRightWhile isBlank (t.dropWhile isBlank)

/-- Drop the blanks at both ends of a string. -/
def strip (s : String) : String :=
  String.ofList (trim s.toList)

end SecureReview.Text
