import SecureReview.Xml.Content
import SecureReview.Xml.Prolog
/-!
# Parsing XML

From the characters of a document to its root element. Every error is told with its line, counted
from one, and its column, counted from zero.
-/

namespace SecureReview.Xml

/-- After the root element only comments, instructions and blanks may follow. -/
def epilog (cs : List Char) : Except Flaw Unit :=
  match outerToken cs with
  | none => .ok ()
  | some scan => do
    let (t, rest) ← stopped cs.length scan
    let junk : Except Flaw Unit := .error (.told "junk after document element" cs.length)
    let next : Except Flaw Unit :=
      if _h : rest.length < cs.length then epilog rest else junk
    match t with
    | .blanks => next
    | .comment => next
    | .instruction target _ => if target == "xml".toList then junk else next
    | _ => junk
termination_by cs.length

/-- Where a document type declaration stands. -/
inductive DoctypeState where
  | outside (seen : Bool)
  | name
  | afterName
  | publicId
  | systemId
  | afterId
  | subset
  /-- Within a declaration of the subset: what is kept of an entity, and whether it is one. -/
  | within (isEntity : Bool) (kept : List (List Char))
  | afterSubset

/-- One step through a document type declaration; `none` if the token cannot stand there. -/
def DoctypeState.step (es : Entities) : DoctypeState → OuterToken →
    Option (DoctypeState × Entities)
  | .outside seen, .opening k =>
    if k == "DOCTYPE".toList && !seen then some (.name, es) else none
  | .outside seen, .blanks => some (.outside seen, es)
  | .outside seen, .comment => some (.outside seen, es)
  | .outside seen, .instruction t _ =>
    if t == "xml".toList then none else some (.outside seen, es)
  | .outside _, _ => none
  | .subset, .opening k => some (.within (k == "ENTITY".toList) [], es)
  | .subset, .closeBracket => some (.afterSubset, es)
  | .subset, .blanks => some (.subset, es)
  | .subset, .comment => some (.subset, es)
  | .subset, .instruction t _ => if t == "xml".toList then none else some (.subset, es)
  | .subset, .parameterReference => some (.subset, { es with open_ := true })
  | .subset, _ => none
  | .within isEntity kept, .closing =>
    match isEntity, kept with
    | true, [value, entity] => some (.subset, { es with known := es.known ++ [(entity, value)] })
    | _, _ => some (.subset, es)
  | .within isEntity kept, .name n => some (.within isEntity (n :: kept), es)
  | .within isEntity kept, .literal t => some (.within isEntity (t :: kept), es)
  | .within isEntity kept, _ => some (.within isEntity kept, es)
  | s, .blanks => some (s, es)
  | .name, .name _ => some (.afterName, es)
  | .afterName, .openBracket => some (.subset, es)
  | .afterName, .closing => some (.outside true, es)
  | .afterName, .name n =>
    if n == "SYSTEM".toList then some (.systemId, { es with open_ := true })
    else if n == "PUBLIC".toList then some (.publicId, { es with open_ := true })
    else none
  | .publicId, .literal _ => some (.systemId, es)
  | .systemId, .literal _ => some (.afterId, es)
  | .afterId, .openBracket => some (.subset, es)
  | .afterId, .closing => some (.outside true, es)
  | .afterSubset, .closing => some (.outside true, es)
  | _, _ => none

/-- Read what stands before the root element, then the element. -/
def prolog (state : DoctypeState) (es : Entities) (cs : List Char) :
    Except Flaw (Element × List Char) :=
  match outerToken cs with
  | none => .error (.told "no element found" 0)
  | some scan => do
    let (t, rest) ← stopped cs.length scan
    match state, t with
    | .outside _, .root => rootElement es rest.tail
    | _, _ =>
      match state.step es t with
      | some (state, es) =>
        if _h : rest.length < cs.length then prolog state es rest
        else throw (.told "no element found" 0)
      | none =>
        match t with
        | .instruction target _ =>
          if target == "xml".toList then
            throw (.told "XML or text declaration not at start of entity" cs.length)
          else throw (.told "syntax error" cs.length)
        | .parameterReference => throw (.told "illegal parameter entity reference" cs.length)
        | _ => throw (.told "syntax error" cs.length)
termination_by cs.length

/-- The characters of a document in the encoding that it declares. -/
def decoded (d : Declaration) (cs : List Char) : Except Flaw (List Char) :=
  match d.encoding with
  | none => .ok cs
  | some (n, left) =>
    match Encoding.ofName n with
    | .utf8 => .ok cs
    | .latin1 => .ok (asLatin1 cs)
    | .ascii =>
      match cs.dropWhile (fun c => c.toNat < 128) with
      | [] => .ok cs
      | r => .error (.told "not well-formed (invalid token)" r.length)
    | .wide => .error (.told "encoding specified in XML declaration is incorrect" left)
    | .unknown name => .error (.unknownEncoding name)

/-- A declaration comes next. -/
def isDeclared (cs : List Char) : Bool :=
  "<?xml".toList.isPrefixOf cs && (cs.drop 5).head?.any (fun c => isBlank c || c == '?')

/-- The characters of a document behind its declaration, in the encoding that it declares. -/
def undeclared (cs : List Char) : Except Flaw (List Char) :=
  if isDeclared cs then do
    let ((_, body), rest) ← stopped cs.length (instruction (cs.drop 2))
    match declaration (rest.length + 2) body with
    | .ok d => decoded d rest
    | .error left => throw (.told "XML declaration not well-formed" left)
  else .ok cs

/-- How many characters there are behind the declaration of a document, as they were written. -/
def undeclaredLength (cs : List Char) : Nat :=
  if isDeclared cs then
    match instruction (cs.drop 2) with
    | .ok (_, rest) => rest.length
    | .error _ => cs.length
  else cs.length

/-- Parse the characters of a document that has no declaration, or none any more. -/
def document (cs : List Char) : Except Flaw Element := do
  let (e, rest) ← prolog (.outside false) {} cs
  epilog rest
  return e

/-- The line, from one, and the column, from zero, behind some characters. -/
def place : Nat → Nat → List Char → Nat × Nat
  | line, column, [] => (line, column)
  | line, _, '\r' :: '\n' :: cs => place (line + 1) 0 cs
  | line, _, '\r' :: cs => place (line + 1) 0 cs
  | line, _, '\n' :: cs => place (line + 1) 0 cs
  | line, column, _ :: cs => place line (column + 1) cs

/-- Why a document cannot be read. -/
inductive Trouble where
  /-- It is malformed; the text tells how and where. -/
  | malformed (text : String)
  /-- It declares an encoding that nobody knows. -/
  | unknownEncoding (name : String)

/-- The trouble with a document that begins with the given characters. -/
def Flaw.trouble (cs : List Char) : Flaw → Trouble
  | .unknownEncoding n => .unknownEncoding n
  | .told message left =>
    let (line, column) := place 1 0 (cs.take (cs.length - left))
    .malformed s!"{message}: line {line}, column {column}"

/-- The code point of a byte order mark. -/
def byteOrderMark : Char := Char.ofNat 0xFEFF

/-- Parse a document. A byte order mark at its beginning is passed over, but counts as a column. -/
def parse (s : String) : Except Trouble Element :=
  let cs := s.toList
  let body := if cs.head? == some byteOrderMark then cs.tail else cs
  match undeclared body with
  | .error flaw => .error (flaw.trouble cs)
  | .ok rest =>
    -- What was passed over is the same in every encoding.
    let passed := cs.take (cs.length - (undeclaredLength body))
    (document rest).mapError (Flaw.trouble (passed ++ rest))

end SecureReview.Xml
