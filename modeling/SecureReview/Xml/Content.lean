import SecureReview.Xml.Token
/-!
# The content of elements

From the opening tag of the root element to its closing tag. The values of attributes and the line
ends of texts are brought to their normal form.
-/

namespace SecureReview.Xml

/-! ## Elements

A parsed document is a tree of elements. An element has a name, attributes, the text before its first
child, and children.
-/

/-- An element of a document. -/
inductive Element where
  | mk (name : String) (attributes : List (String × String)) (text : Option String)
      (children : List Element)

namespace Element

/-- The name of an element. -/
def name : Element → String
  | .mk n .. => n

/-- The attributes, in the order in which they are written. -/
def attributes : Element → List (String × String)
  | .mk _ as .. => as

/-- The text before the first child; an element may have none. -/
def text : Element → Option String
  | .mk _ _ t _ => t

/-- The elements directly below an element. -/
def children : Element → List Element
  | .mk _ _ _ cs => cs

/-- The value of an attribute. -/
def get? (e : Element) (k : String) : Option String :=
  e.attributes.lookup k

mutual

/-- The elements below an element, in document order, the element itself left out. -/
def descendants : Element → List Element
  | .mk _ _ _ cs => withDescendants cs

/-- The elements of a list with all that is below them, in document order. -/
def withDescendants : List Element → List Element
  | [] => []
  | c :: cs => c :: descendants c ++ withDescendants cs

end

/-- The elements with a given name below an element. -/
def findAll (e : Element) (n : String) : List Element :=
  e.descendants.filter (fun d => d.name == n)

/-- The first element with a given name below an element. -/
def find? (e : Element) (n : String) : Option Element :=
  e.descendants.find? (fun d => d.name == n)

end Element

/-! ## Namespaces

Names are resolved against the namespaces in force. Some prefixes and some names of namespaces are
reserved.
-/

/-- What is wrong with a document, and how many characters were left there. -/
inductive Flaw where
  | told (message : String) (left : Nat)
  /-- The document declares an encoding that nobody knows. -/
  | unknownEncoding (name : String)

/-- Turn the stop of a scanner whose token begins with so many characters left into a flaw. -/
def stopped {α : Type} (left : Nat) : Except Stop α → Except Flaw α
  | .ok a => .ok a
  | .error (.invalid l) => .error (.told "not well-formed (invalid token)" l)
  | .error .unfinished => .error (.told "unclosed token" left)

/-- The namespaces in force: prefixes with what they stand for, the innermost first. The empty prefix
is that of names without one. -/
abbrev Scope := List (List Char × String)

/-- The namespace of the reserved prefix. -/
def xmlNamespace : String := "http://www.w3.org/XML/1998/namespace"

/-- The namespace of declarations of namespaces. -/
def xmlnsNamespace : String := "http://www.w3.org/2000/xmlns/"

/-- The prefix and the rest of a name. -/
def splitName (n : List Char) : Option (List Char × List Char) :=
  match n.span (· != ':') with
  | (p, ':' :: l) => some (p, l)
  | _ => none

/-- What an attribute declares: the prefix it binds, if it is a declaration of a namespace. -/
def declared? (n : List Char) : Option (List Char) :=
  if n == "xmlns".toList then some []
  else
    match splitName n with
    | some (p, l) => if p == "xmlns".toList then some l else none
    | none => none

/-- Bind a prefix, unless it or the name bound to it is reserved. -/
def bind (scope : Scope) (p : List Char) (uri : String) (left : Nat) : Except Flaw Scope :=
  if p == "xmlns".toList then
    .error (.told "reserved prefix (xmlns) must not be declared or undeclared" left)
  else if p == "xml".toList then
    if uri == xmlNamespace then .ok ((p, uri) :: scope)
    else .error (.told
      "reserved prefix (xml) must not be undeclared or bound to another namespace name" left)
  else if uri == "" && !p.isEmpty then .error (.told "must not undeclare prefix" left)
  else if uri == xmlNamespace || uri == xmlnsNamespace then
    .error (.told "prefix must not be bound to one of the reserved namespace names" left)
  else .ok ((p, uri) :: scope)

/-- A name with its namespace written in front. -/
def expanded (uri : String) (l : List Char) : String :=
  if uri == "" then String.ofList l else "\x7b" ++ uri ++ "\x7d" ++ String.ofList l

/-- The full name of an element. -/
def elementName (scope : Scope) (n : List Char) (left : Nat) : Except Flaw String :=
  match splitName n with
  | some (p, l) =>
    match scope.lookup p with
    | some uri => .ok (expanded uri l)
    | none => .error (.told "unbound prefix" left)
  | none => .ok (expanded ((scope.lookup []).getD "") n)

/-- The full name of an attribute; one without a prefix is in no namespace. -/
def attributeName (scope : Scope) (n : List Char) (left : Nat) : Except Flaw String :=
  match splitName n with
  | some _ => elementName scope n left
  | none => .ok (String.ofList n)

/-! ## References and values -/

/-- What is known about entities: those declared, and whether others may exist elsewhere. -/
structure Entities where
  known : List (List Char × List Char) := []
  open_ : Bool := false

/-- The entities that every document has. -/
def standardEntities : List (List Char × Char) :=
  [("lt".toList, '<'), ("gt".toList, '>'), ("amp".toList, '&'), ("quot".toList, '"'),
   ("apos".toList, '\'')]

/-- The character with a given number, if it may stand in a document. -/
def numbered? (n : Nat) : Option Char :=
  if n < 0x110000 && !(0xD800 ≤ n && n ≤ 0xDFFF) && isDocumentChar (Char.ofNat n) then
    some (Char.ofNat n)
  else none

/-- The text that a reference stands for; `none` if its entity may exist elsewhere. -/
def resolve (es : Entities) (r : Reference) (entityLeft numberLeft : Nat) :
    Except Flaw (Option (List Char)) :=
  match r with
  | .number n =>
    match numbered? n with
    | some c => .ok (some [c])
    | none => .error (.told "reference to invalid character number" numberLeft)
  | .entity n =>
    match standardEntities.lookup n with
    | some c => .ok (some [c])
    | none =>
      match es.known.lookup n with
      | some t => .ok (some t)
      | none =>
        if es.open_ then .ok none else .error (.told "undefined entity" entityLeft)

/-- The value of an attribute of the tag at the place `left`: blanks of every sort become plain, and a
carriage return with a line feed counts as one. -/
def normalValue (es : Entities) (left : Nat) : List ValuePart → Except Flaw (List Char)
  | [] => .ok []
  | .char '\r' :: .char '\n' :: ps => do return ' ' :: (← normalValue es left ps)
  | .char c :: ps => do return (if isBlank c then ' ' else c) :: (← normalValue es left ps)
  | .reference r l :: ps => do
    let t ← resolve es r left l
    return t.getD [] ++ (← normalValue es left ps)

/-- The attributes of a tag with their values. No name is written twice. -/
def values (es : Entities) (left : Nat) :
    List (List Char) → List RawAttribute → Except Flaw (List (List Char × String))
  | _, [] => .ok []
  | seen, a :: as => do
    if seen.contains a.name then throw (.told "duplicate attribute" a.left)
    let v ← normalValue es left a.value
    return (a.name, String.ofList v) :: (← values es left (a.name :: seen) as)

/-- The namespaces in force within a tag. -/
def scopeOf (left : Nat) : Scope → List (List Char × String) → Except Flaw Scope
  | scope, [] => .ok scope
  | scope, (n, v) :: as =>
    match declared? n with
    | some p => do scopeOf left (← bind scope p v left) as
    | none => scopeOf left scope as

/-- The attributes with full names, those that declare namespaces left out. -/
def fullAttributes (left : Nat) (scope : Scope) :
    List (String × String) → List (List Char × String) → Except Flaw (List (String × String))
  | done, [] => .ok done.reverse
  | done, (n, v) :: as => do
    if (declared? n).isSome then fullAttributes left scope done as
    else
      let full ← attributeName scope n left
      if (done.lookup full).isSome then throw (.told "duplicate attribute" left)
      fullAttributes left scope ((full, v) :: done) as

/-! ## Content -/

/-- An element that is still open. Its children are listed from the last to the first, its text from
the last character to the first. -/
structure Frame where
  written : List Char
  name : String
  attributes : List (String × String)
  scope : Scope
  text : List Char := []
  children : List Element := []

/-- Add text, which counts only before the first child. -/
def Frame.addText (f : Frame) (t : List Char) : Frame :=
  if f.children.isEmpty then { f with text := t.reverse ++ f.text } else f

/-- The finished element. -/
def Frame.close (f : Frame) : Element :=
  .mk f.name f.attributes
    (if f.text.isEmpty then none else some (String.ofList f.text.reverse)) f.children.reverse

/-- Open an element within a scope. -/
def Frame.open (es : Entities) (left : Nat) (scope : Scope) (t : RawTag) : Except Flaw Frame := do
  let as ← values es left [] t.attributes
  let scope ← scopeOf left scope as
  let name ← elementName scope t.name left
  return ⟨t.name, name, ← fullAttributes left scope [] as, scope, [], []⟩

/-- A line end that is a carriage return, alone or with a line feed, becomes a line feed. -/
def sectionText (reversed : List Char) : List Char → List Char
  | [] => reversed.reverse
  | '\r' :: '\n' :: t => sectionText ('\n' :: reversed) t
  | '\r' :: t => sectionText ('\n' :: reversed) t
  | c :: t => sectionText (c :: reversed) t

/-- The characters of a section of plain text, up to its closing, from the last to the first. -/
def plainSection (done : List Char) (cs : List Char) : Except Flaw (List Char × List Char) :=
  match cs with
  | [] => .error (.told "unclosed CDATA section"
      (match done with
      | ']' :: ']' :: _ => 2
      | ']' :: _ => 1
      | '\r' :: _ => 1
      | _ => 0))
  | ']' :: ']' :: '>' :: r => .ok (done, r)
  | c :: r =>
    if isDocumentChar c then plainSection (c :: done) r
    else .error (.told "not well-formed (invalid token)" (r.length + 1))

/-- The opening of a section of plain text, from behind its first bracket. -/
def sectionOpening : List Char → List Char → Except Stop (Unit × List Char)
  | [], cs => .ok ((), cs)
  | w :: ws, cs =>
    match cs with
    | [] => .error .unfinished
    | c :: r => if c == w then sectionOpening ws r else .error (.invalid cs.length)

/-- What happens next in the content of elements: the open elements and what is left, or the root
element when it was closed. -/
inductive Progress where
  | more (top : Frame) (under : List Frame) (rest : List Char)
  | root (e : Element) (rest : List Char)

/-- Close the innermost element. -/
def closeTop (top : Frame) (under : List Frame) (rest : List Char) : Progress :=
  match under with
  | [] => .root top.close rest
  | f :: fs => .more { f with children := top.close :: f.children } fs rest

/-- Open an element, and close it at once if it is empty. -/
def openElement (es : Entities) (left : Nat) (scope : Scope) (under : List Frame) (cs : List Char) :
    Except Flaw Progress := do
  let (t, r) ← stopped left (openingTag cs)
  let f ← Frame.open es left scope t
  return if t.empty then closeTop f under r else .more f under r

/-- Read one piece of the content of elements. -/
def contentStep (es : Entities) (top : Frame) (under : List Frame) (cs : List Char) :
    Except Flaw Progress :=
  let left := cs.length
  match cs with
  | [] => .error (.told "no element found" 0)
  | ['<'] => .error (.told "unclosed token" left)
  | '<' :: '/' :: r => do
    let (n, rest) ← stopped left (closingTag r)
    if n == top.written then return closeTop top under rest
    else throw (.told "mismatched tag" r.length)
  | '<' :: '!' :: '-' :: r => do
    let ((), rest) ← stopped left (comment r)
    return .more top under rest
  | '<' :: '!' :: '[' :: r =>
    if r.length < 6 then .error (.told "unclosed token" left)
    else do
      let ((), rest) ← stopped left (sectionOpening "CDATA[".toList r)
      let (t, rest) ← plainSection [] rest
      return .more (top.addText (sectionText [] t.reverse)) under rest
  | ['<', '!'] => .error (.told "unclosed token" left)
  | '<' :: '!' :: r => .error (.told "not well-formed (invalid token)" r.length)
  | '<' :: '?' :: r => do
    let ((target, _), rest) ← stopped left (instruction r)
    if target == "xml".toList then
      throw (.told "XML or text declaration not at start of entity" left)
    return .more top under rest
  | '<' :: c :: r =>
    if isNameStart c then openElement es left top.scope (top :: under) (c :: r)
    else .error (.told "not well-formed (invalid token)" (r.length + 1))
  | '&' :: r => do
    let (ref, rest) ← stopped left (reference r)
    match ← resolve es ref left left with
    | some t => return .more (top.addText t) under rest
    | none =>
      let n := String.ofList (r.takeWhile (· != ';'))
      throw (.told s!"undefined entity &{n};" left)
  | ['\r'] => .error (.told "no element found" 1)
  | '\r' :: '\n' :: r => .ok (.more (top.addText ['\n']) under r)
  | '\r' :: r => .ok (.more (top.addText ['\n']) under r)
  | ']' :: ']' :: '>' :: r => .error (.told "not well-formed (invalid token)" (r.length + 1))
  | c :: r =>
    if isDocumentChar c then .ok (.more (top.addText [c]) under r)
    else .error (.told "not well-formed (invalid token)" left)

/-- Read the content of elements until the root element is closed. -/
def content (es : Entities) (top : Frame) (under : List Frame) (cs : List Char) :
    Except Flaw (Element × List Char) := do
  match ← contentStep es top under cs with
  | .root e rest => return (e, rest)
  | .more top under rest =>
    if _h : rest.length < cs.length then content es top under rest
    else throw (.told "no element found" 0)
termination_by cs.length

/-- Read the root element, which begins here, from behind its bracket. -/
def rootElement (es : Entities) (cs : List Char) : Except Flaw (Element × List Char) := do
  let scope : Scope := [("xml".toList, xmlNamespace)]
  if !(cs.head?.any isNameStart) then throw (.told "not well-formed (invalid token)" cs.length)
  match ← openElement es (cs.length + 1) scope [] cs with
  | .root e rest => return (e, rest)
  | .more top under rest => content es top under rest

end SecureReview.Xml
