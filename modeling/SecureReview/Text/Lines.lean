import SecureReview.Text.Search
/-!
# Lines

Two notions of a line: the text between line feeds, and the text up to any Unicode line boundary.
Text files are read with every carriage return, alone or before a line feed, turned into a line feed.
-/

namespace SecureReview.Text

/-- The characters that end a line in the wide sense. -/
def isLineBreak (c : Char) : Bool :=
  let n := c.toNat
  (10 ≤ n && n ≤ 13) || (28 ≤ n && n ≤ 30) || n == 0x85 || n == 0x2028 || n == 0x2029

/-- The lines of a text in the wide sense, each with the break that ends it. A carriage return and a
line feed together are one break. -/
def fullLines : List Char → List (List Char)
  | [] => []
  | '\r' :: '\n' :: t => ['\r', '\n'] :: fullLines t
  | c :: t =>
    if isLineBreak c then [c] :: fullLines t
    else match fullLines t with
      | [] => [[c]]
      | l :: ls => (c :: l) :: ls

/-- **The lines of a text make up the text.** -/
theorem flatten_fullLines (t : List Char) : (fullLines t).flatten = t := by
  fun_induction fullLines t with
  | case1 => rfl
  | case2 t ih => simp [ih]
  | case3 c t _ _ ih => simp [ih]
  | case4 c t _ _ hnil ih => simp_all
  | case5 c t _ _ l ls hcons ih => simp_all

/-- The lines of a text in the wide sense, without their breaks. -/
def bareLines (t : List Char) : List (List Char) :=
  (fullLines t).map (fun l => l.takeWhile (fun c => !isLineBreak c))

/-- Every line end becomes a line feed. -/
def normalizeNewlines : List Char → List Char
  | [] => []
  | '\r' :: '\n' :: t => '\n' :: normalizeNewlines t
  | '\r' :: t => '\n' :: normalizeNewlines t
  | c :: t => c :: normalizeNewlines t

/-- The texts between line feeds. -/
def feedLines (t : List Char) : List (List Char) :=
  splitAtEach ['\n'] t

/-- The texts between line feeds of a string. -/
def lines (s : String) : List String :=
  (feedLines s.toList).map String.ofList

/-- Put line feeds between the lines. -/
def unlines (ls : List String) : String :=
  joinWith "\n" ls

end SecureReview.Text
