import SecureReview.Text.Printable
/-!
# Tokens of XML

The scanners take the characters that are left and give back what they read and what is then left. A
scanner stops at the first character that cannot continue its token, or at the end of the text within
a token. Places in the document are counted from its end: the place of a character is the number of
characters left when it comes next.
-/

namespace SecureReview.Xml

/-! ## Characters

Which characters may stand in a document at all, which may begin a name, and which may continue one.
A colon divides a name and belongs to neither class. Characters beyond the basic plane do not occur
in names. -/

/-- The character may stand in a document. -/
def isDocumentChar (c : Char) : Bool :=
  let n := c.toNat
  32 ≤ n && n != 0xFFFE && n != 0xFFFF || n == 9 || n == 10 || n == 13

/-- The four characters that count as blank. -/
def isBlank (c : Char) : Bool :=
  c == ' ' || c == '\t' || c == '\n' || c == '\r'

/-- The lengths of the runs of code points that are in turn others, and letters beyond ASCII. -/
def letters : List Nat := [
  192, 23, 1, 31, 1, 58, 2, 11, 2, 8, 1, 53, 1, 68, 9, 36, 3, 2, 4, 30, 56, 89, 18, 7, 196, 1, 1, 3,
  1, 1, 1, 20, 1, 44, 1, 7, 3, 1, 1, 1, 1, 1, 1, 1, 1, 18, 13, 12, 1, 66, 1, 12, 1, 36, 14, 53, 2,
  2, 2, 2, 3, 28, 2, 8, 2, 2, 55, 38, 2, 1, 7, 38, 73, 27, 5, 3, 46, 26, 6, 10, 38, 71, 2, 5, 1, 15,
  1, 4, 1, 1, 15, 2, 542, 53, 3, 1, 26, 10, 35, 8, 2, 2, 2, 22, 1, 7, 1, 1, 3, 4, 34, 2, 1, 3, 14,
  2, 19, 6, 4, 2, 2, 22, 1, 7, 1, 2, 1, 2, 1, 2, 31, 4, 1, 1, 19, 3, 16, 7, 1, 1, 1, 3, 1, 22, 1, 7,
  1, 2, 1, 5, 3, 1, 34, 1, 36, 8, 2, 2, 2, 22, 1, 7, 1, 2, 2, 4, 3, 1, 30, 2, 1, 3, 35, 6, 3, 3, 1,
  4, 3, 2, 1, 1, 1, 2, 3, 2, 3, 3, 3, 8, 1, 3, 75, 8, 1, 3, 1, 23, 1, 10, 1, 5, 38, 2, 35, 8, 1, 3,
  1, 23, 1, 10, 1, 5, 36, 1, 1, 2, 35, 8, 1, 3, 1, 23, 1, 16, 38, 2, 159, 46, 1, 1, 1, 2, 12, 6, 59,
  2, 1, 1, 2, 2, 1, 1, 2, 1, 6, 4, 1, 7, 1, 3, 1, 1, 1, 1, 2, 2, 1, 2, 1, 1, 1, 2, 9, 1, 2, 5, 123,
  8, 1, 33, 310, 38, 10, 39, 9, 1, 1, 2, 1, 3, 1, 1, 1, 2, 1, 5, 41, 1, 1, 1, 1, 1, 11, 1, 1, 1, 1,
  1, 3, 2, 3, 1, 5, 3, 1, 1, 1, 1, 1, 1, 1, 1, 3, 2, 3, 2, 1, 1, 40, 1, 9, 1, 2, 1, 2, 2, 7, 2, 1,
  1, 1, 7, 40, 1, 4, 1, 8, 1, 3078, 156, 4, 90, 6, 22, 2, 6, 2, 38, 2, 6, 2, 8, 1, 1, 1, 1, 1, 1, 1,
  31, 2, 53, 1, 7, 1, 1, 3, 3, 1, 7, 3, 4, 2, 6, 4, 13, 5, 3, 1, 7, 297, 1, 3, 2, 2, 1, 81, 3, 3716,
  1, 25, 9, 23, 84, 12, 90, 10, 40, 7379, 20902, 3162, 11172]

/-- The lengths of the runs of code points that are in turn others, and what may continue but not
begin a name, beyond ASCII. -/
def marks : List Nat := [
  183, 1, 536, 2, 46, 70, 26, 2, 37, 1, 251, 4, 266, 17, 1, 23, 1, 3, 1, 1, 1, 2, 1, 1, 123, 1, 10,
  8, 13, 10, 6, 1, 101, 15, 2, 2, 1, 4, 2, 10, 519, 3, 56, 1, 1, 16, 3, 4, 13, 2, 2, 10, 17, 3, 56,
  1, 1, 7, 2, 2, 2, 3, 9, 1, 10, 2, 2, 10, 18, 1, 57, 1, 1, 5, 4, 2, 2, 3, 24, 12, 15, 3, 56, 1, 1,
  8, 1, 3, 1, 3, 24, 10, 17, 3, 56, 1, 1, 6, 3, 2, 2, 3, 8, 2, 14, 10, 18, 2, 58, 5, 3, 3, 1, 4, 9,
  1, 15, 9, 17, 3, 58, 7, 1, 3, 1, 4, 7, 2, 15, 10, 18, 2, 58, 7, 1, 3, 1, 4, 7, 2, 15, 10, 18, 2,
  58, 6, 2, 3, 1, 4, 9, 1, 14, 10, 193, 1, 2, 7, 11, 9, 1, 10, 87, 1, 2, 6, 1, 2, 9, 1, 1, 6, 2, 10,
  62, 2, 6, 10, 11, 1, 1, 1, 1, 1, 4, 2, 49, 20, 1, 6, 4, 6, 1, 1, 1, 21, 3, 7, 1, 1, 4374, 13, 4,
  1, 3875, 1, 36, 6, 1, 5, 99, 2, 2, 2, 93, 3]

/-- The character may begin a name. -/
def isNameStart (c : Char) : Bool :=
  if c.toNat < 128 then c.isAlpha || c == '_' else Text.inRuns false letters c.toNat

/-- The character may continue a name. -/
def isNameChar (c : Char) : Bool :=
  if c.toNat < 128 then c.isAlphanum || c == '_' || c == '-' || c == '.'
  else Text.inRuns false letters c.toNat || Text.inRuns false marks c.toNat

/-! ## Scanners -/

/-- Why a scanner stopped. -/
inductive Stop where
  /-- The character with so many left, itself included, cannot stand there. -/
  | invalid (left : Nat)
  /-- The text ends within a token. -/
  | unfinished

/-- A name without a colon; it may be empty. -/
def plainName (cs : List Char) : List Char × List Char :=
  cs.span isNameChar

/-- A name that begins here and has at most one colon, with a proper name behind it. -/
def qualifiedName (cs : List Char) : Except Stop (List Char × List Char) :=
  let (first, r) := plainName cs
  match r with
  | ':' :: behind =>
    match behind with
    | [] => .error .unfinished
    | c :: _ =>
      if isNameStart c then
        let (second, r) := plainName behind
        match r with
        | ':' :: _ => .error (.invalid r.length)
        | _ => .ok (first ++ ':' :: second, r)
      else .error (.invalid behind.length)
  | _ => .ok (first, r)

/-! ## References -/

/-- What an ampersand introduces: the name of an entity or the number of a character. -/
inductive Reference where
  | entity (name : List Char)
  | number (n : Nat)

/-- The value of a hexadecimal digit. -/
def hexValue? (c : Char) : Option Nat :=
  if c.isDigit then some (c.toNat - '0'.toNat)
  else if 'a' ≤ c && c ≤ 'f' then some (c.toNat - 'a'.toNat + 10)
  else if 'A' ≤ c && c ≤ 'F' then some (c.toNat - 'A'.toNat + 10)
  else none

/-- A number in the given base, ended by a semicolon. -/
def numberEnd (digit? : Char → Option Nat) (base : Nat) : Nat → List Char → Except Stop (Reference × List Char)
  | _, [] => .error .unfinished
  | n, c :: cs =>
    match digit? c with
    | some d => numberEnd digit? base (n * base + d) cs
    | none => if c == ';' then .ok (.number n, cs) else .error (.invalid (cs.length + 1))

/-- A number with at least one digit. -/
def number (digit? : Char → Option Nat) (base : Nat) : List Char → Except Stop (Reference × List Char)
  | [] => .error .unfinished
  | c :: cs =>
    match digit? c with
    | some d => numberEnd digit? base d cs
    | none => .error (.invalid (cs.length + 1))

/-- The value of a decimal digit. -/
def digitValue? (c : Char) : Option Nat :=
  if c.isDigit then some (c.toNat - '0'.toNat) else none

/-- What follows an ampersand. -/
def reference : List Char → Except Stop (Reference × List Char)
  | [] => .error .unfinished
  | '#' :: 'x' :: cs => number hexValue? 16 cs
  | '#' :: cs => number digitValue? 10 cs
  | c :: cs =>
    if isNameStart c then
      match plainName (c :: cs) with
      | (_, []) => .error .unfinished
      | (n, ';' :: r) => .ok (.entity n, r)
      | (_, r) => .error (.invalid r.length)
    else .error (.invalid (cs.length + 1))

/-! ## Comments, instructions and tags -/

/-- The rest of a comment, from behind its opening. Two dashes end it. -/
def commentEnd : List Char → Except Stop (Unit × List Char)
  | [] => .error .unfinished
  | '-' :: '-' :: '>' :: r => .ok ((), r)
  | ['-'] => .error .unfinished
  | ['-', '-'] => .error .unfinished
  | '-' :: '-' :: r => .error (.invalid r.length)
  | c :: r => if isDocumentChar c then commentEnd r else .error (.invalid (r.length + 1))

/-- A comment, from behind its first dash. -/
def comment : List Char → Except Stop (Unit × List Char)
  | [] => .error .unfinished
  | '-' :: r => commentEnd r
  | r => .error (.invalid r.length)

/-- The content of a processing instruction, up to its closing. -/
def instructionEnd : List Char → Except Stop (List Char × List Char)
  | [] => .error .unfinished
  | '?' :: '>' :: r => .ok ([], r)
  | ['?'] => .error .unfinished
  | c :: r =>
    if isDocumentChar c then do
      let (content, rest) ← instructionEnd r
      return (c :: content, rest)
    else .error (.invalid (r.length + 1))

/-- The target of an instruction may not be a spelling of the word reserved for declarations. -/
def isReservedTarget (n : List Char) : Bool :=
  n.map Char.toLower == ['x', 'm', 'l'] && n != ['x', 'm', 'l']

/-- A processing instruction, from behind its question mark: its target and its content. -/
def instruction (cs : List Char) : Except Stop ((List Char × List Char) × List Char) :=
  match cs with
  | [] => .error .unfinished
  | c :: _ =>
    if isNameStart c then
      let (target, r) := plainName cs
      match r with
      | [] => .error .unfinished
      | d :: more =>
        if isReservedTarget target && (isBlank d || d == '?') then .error (.invalid r.length)
        else if isBlank d then do
          let (content, rest) ← instructionEnd r
          return ((target, content), rest)
        else if d == '?' then
          match more with
          | [] => .error .unfinished
          | '>' :: rest => .ok ((target, []), rest)
          | _ => .error (.invalid more.length)
        else .error (.invalid r.length)
    else .error (.invalid cs.length)

/-- Blanks, then something. -/
def skipBlanks (cs : List Char) : Except Stop (Char × List Char) :=
  match cs.dropWhile isBlank with
  | [] => .error .unfinished
  | c :: r => .ok (c, c :: r)

/-- A closing tag, from behind its slash: the name as written, which may have any number of colons. -/
def closingTag (cs : List Char) : Except Stop (List Char × List Char) :=
  match cs with
  | [] => .error .unfinished
  | c :: _ =>
    if isNameStart c then
      let (n, r) := cs.span (fun c => isNameChar c || c == ':')
      match r with
      | [] => .error .unfinished
      | _ :: _ => do
        let (d, r) ← skipBlanks r
        if d == '>' then return (n, r.tail) else .error (.invalid r.length)
    else .error (.invalid cs.length)

/-- A part of the value of an attribute: a character or a reference, with its place. -/
inductive ValuePart where
  | char (c : Char)
  | reference (r : Reference) (left : Nat)

/-- The value of an attribute, up to its closing quotation mark. -/
def attributeValue (quote : Char) (cs : List Char) : Except Stop (List ValuePart × List Char) :=
  match cs with
  | [] => .error .unfinished
  | c :: r =>
    if c == quote then .ok ([], r)
    else if c == '&' then do
      let (ref, s) ← reference r
      if _h : s.length < r.length + 1 then
        let (parts, rest) ← attributeValue quote s
        return (.reference ref (r.length + 1) :: parts, rest)
      else .error .unfinished
    else if c == '<' || !isDocumentChar c then .error (.invalid (r.length + 1))
    else do
      let (parts, rest) ← attributeValue quote r
      return (.char c :: parts, rest)
termination_by cs.length

/-- An attribute as written: its name, the place of the name, and the parts of its value. -/
structure RawAttribute where
  name : List Char
  left : Nat
  value : List ValuePart

/-- An attribute that begins here. -/
def rawAttribute (cs : List Char) : Except Stop (RawAttribute × List Char) := do
  let (n, r) ← qualifiedName cs
  let (eq, r) ← skipBlanks r
  if eq != '=' then .error (.invalid r.length)
  else
    let (quote, r) ← skipBlanks r.tail
    if quote == '"' || quote == '\'' then
      let (v, r) ← attributeValue quote r.tail
      return (⟨n, cs.length, v⟩, r)
    else .error (.invalid r.length)

/-- The end of an opening tag, if it comes next: whether the element is empty. -/
def tagEnd (cs : List Char) : Except Stop (Option Bool × List Char) :=
  match cs with
  | [] => .error .unfinished
  | '>' :: r => .ok (some false, r)
  | ['/'] => .error .unfinished
  | '/' :: '>' :: r => .ok (some true, r)
  | '/' :: r => .error (.invalid r.length)
  | _ => .ok (none, cs)

/-- The attributes of an opening tag and its end. Attributes are divided by blanks. -/
def attributes (cs : List Char) : Except Stop ((List RawAttribute × Bool) × List Char) := do
  match ← tagEnd cs with
  | (some empty, r) => return (([], empty), r)
  | (none, r) =>
    match r with
    | [] => .error .unfinished
    | c :: _ =>
      if !isBlank c then .error (.invalid r.length)
      else
        let (d, r) ← skipBlanks r
        match ← tagEnd r with
        | (some empty, r) => return (([], empty), r)
        | (none, _) =>
          if isNameStart d then
            let (a, r) ← rawAttribute r
            if _h : r.length < cs.length then
              let ((as, empty), rest) ← attributes r
              return ((a :: as, empty), rest)
            else .error .unfinished
          else .error (.invalid r.length)
termination_by cs.length

/-- An opening tag as written. -/
structure RawTag where
  name : List Char
  attributes : List RawAttribute
  empty : Bool

/-- An opening tag, from behind its bracket. -/
def openingTag (cs : List Char) : Except Stop (RawTag × List Char) := do
  let (n, r) ← qualifiedName cs
  let ((as, empty), r) ← attributes r
  return (⟨n, as, empty⟩, r)

end SecureReview.Xml
