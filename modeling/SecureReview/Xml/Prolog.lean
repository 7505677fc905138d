import SecureReview.Xml.Token
import SecureReview.Text.Utf8
/-!
# Outside the root element

A document may begin with a declaration of its version, its encoding and whether it stands alone. An
encoding that was declared decides how the rest of the bytes is read. Before and after the root
element, and in a document type declaration, a document is a sequence of tokens of their own.
-/

namespace SecureReview.Xml

/-! ## The declaration of a document -/

/-- What a declaration says. -/
structure Declaration where
  encoding : Option (List Char × Nat) := none
  standalone : Bool := false

/-- One setting of a declaration: name, place of the name, value, place of the value. -/
structure Setting where
  name : List Char
  nameLeft : Nat
  value : List Char
  valueLeft : Nat

/-- The characters of the values of settings. -/
def isSettingChar (c : Char) : Bool :=
  c.toNat < 128 && c.isAlphanum || c == '.' || c == '-' || c == '_'

/-- The next setting, or none at the end. The error is the place of the first bad character; `after`
is the number of characters behind the declaration. -/
def setting (after : Nat) (cs : List Char) : Except Nat (Option Setting × List Char) :=
  let place := fun (r : List Char) => r.length + after
  match cs with
  | [] => .ok (none, [])
  | c :: _ =>
    if !isBlank c then .error (place cs)
    else
      let begin := cs.dropWhile isBlank
      if begin.isEmpty then .ok (none, [])
      else
        let (name, r) := begin.span (fun c => c.toNat < 128 && c != '=' && !isBlank c)
        let r := r.dropWhile isBlank
        match r with
        | '=' :: r =>
          if name.isEmpty then .error (place begin)
          else
            let r := r.dropWhile isBlank
            match r with
            | q :: v =>
              if q == '"' || q == '\'' then
                let (value, rest) := v.span isSettingChar
                match rest with
                | q' :: rest =>
                  if q' == q then .ok (some ⟨name, place begin, value, place v⟩, rest)
                  else .error (place (q' :: rest))
                | [] => .error after
              else .error (place r)
            | [] => .error after
        | r => .error (place r)

/-- What stands behind the last setting: nothing but blanks. -/
def declarationEnd (after : Nat) (d : Declaration) (rest : List Char) : Except Nat Declaration :=
  match rest.dropWhile isBlank with
  | [] => .ok d
  | r => .error (r.length + after)

/-- The setting on standing alone, which has to be the last. -/
def standaloneSetting (after : Nat) (d : Declaration) (s : Setting) (rest : List Char) :
    Except Nat Declaration :=
  if s.name != "standalone".toList then .error s.nameLeft
  else if s.value == "yes".toList then declarationEnd after { d with standalone := true } rest
  else if s.value == "no".toList then declarationEnd after d rest
  else .error s.valueLeft

/-- Read the content of a declaration. -/
def declaration (after : Nat) (cs : List Char) : Except Nat Declaration := do
  let (first, r) ← setting after cs
  match first with
  | none => .error (cs.length + after)
  | some v =>
    if v.name != "version".toList then .error v.nameLeft
    else
      let (second, r) ← setting after r
      match second with
      | none => return {}
      | some e =>
        if e.name == "encoding".toList then
          if !(e.value.head?.any Char.isAlpha) then .error e.valueLeft
          else
            let d : Declaration := { encoding := some (e.value, e.valueLeft) }
            let (third, r) ← setting after r
            match third with
            | none => return d
            | some s => standaloneSetting after d s r
        else standaloneSetting after {} e r

/-- How the bytes of a document are read. -/
inductive Encoding where
  | utf8
  | ascii
  | latin1
  /-- An encoding in units of two bytes, which a document read so far cannot have. -/
  | wide
  | unknown (name : String)

/-- The encoding with a given name, in any letter case. Under a name of UTF-8 that is not the registered
one, only the characters of ASCII can be read. -/
def Encoding.ofName (n : List Char) : Encoding :=
  match String.ofList (n.map Char.toUpper) with
  | "UTF-8" => .utf8
  | "US-ASCII" | "ASCII" | "UTF8" => .ascii
  | "ISO-8859-1" | "LATIN-1" | "LATIN1" => .latin1
  | "UTF-16" | "UTF-16BE" | "UTF-16LE" => .wide
  | _ => .unknown (String.ofList n)

/-- Read each byte of the UTF-8 form of a text as a character. -/
def asLatin1 (cs : List Char) : List Char :=
  (Text.encodeUtf8 (String.ofList cs)).map (fun b => Char.ofNat b.toNat)

/-! ## Tokens outside the root element -/

/-- A token outside the root element. -/
inductive OuterToken where
  | blanks
  | comment
  | instruction (target content : List Char)
  /-- The opening bracket of the root element comes next. -/
  | root
  /-- The opening of a declaration with its keyword. -/
  | opening (keyword : List Char)
  | closing
  | name (n : List Char)
  | literal (content : List Char)
  | openBracket
  | closeBracket
  | parameterReference
  /-- Anything else that can be read. -/
  | other

/-- The opening of a declaration, from behind the exclamation mark. -/
def declarationOpening (cs : List Char) : Except Stop (OuterToken × List Char) :=
  match cs with
  | [] => .error .unfinished
  | '-' :: r => do
    let ((), r) ← comment r
    return (.comment, r)
  | '[' :: r => .ok (.other, r)
  | c :: _ =>
    if c.isAlpha then
      let (k, r) := cs.span Char.isAlpha
      match r with
      | [] => .error .unfinished
      | ['%'] => .error .unfinished
      | '%' :: d :: _ =>
        if isBlank d || d == '%' then .error (.invalid r.length) else .ok (.opening k, r)
      | d :: _ => if isBlank d then .ok (.opening k, r) else .error (.invalid r.length)
    else .error (.invalid cs.length)

/-- A quoted literal, from behind its opening mark. -/
def literal (quote : Char) (cs : List Char) : Except Stop (OuterToken × List Char) :=
  let (content, r) := cs.span (fun c => c != quote && isDocumentChar c)
  match r with
  | [] => .error .unfinished
  | c :: rest =>
    if c != quote then .error (.invalid r.length)
    else
      match rest with
      | [] => .ok (.literal content, rest)
      | d :: _ =>
        if isBlank d || d == '>' || d == '%' || d == '[' then .ok (.literal content, rest)
        else .error (.invalid rest.length)

/-- What follows a percent sign. -/
def percent (cs : List Char) : Except Stop (OuterToken × List Char) :=
  match cs with
  | [] => .error .unfinished
  | c :: _ =>
    if isNameStart c then
      match plainName cs with
      | (_, []) => .error .unfinished
      | (_, ';' :: r) => .ok (.parameterReference, r)
      | (_, r) => .error (.invalid r.length)
    else if isBlank c || c == '%' then .ok (.other, cs)
    else .error (.invalid cs.length)

/-- What follows a number sign. -/
def poundName (cs : List Char) : Except Stop (OuterToken × List Char) :=
  match cs with
  | [] => .error .unfinished
  | c :: _ =>
    if isNameStart c then
      match plainName cs with
      | (_, []) => .ok (.other, [])
      | (_, d :: r) =>
        if isBlank d || d == ')' || d == '>' || d == '%' || d == '|' then .ok (.other, d :: r)
        else .error (.invalid (r.length + 1))
    else .error (.invalid cs.length)

/-- What follows a closing parenthesis. -/
def closeParen (cs : List Char) : Except Stop (OuterToken × List Char) :=
  match cs with
  | [] => .ok (.other, [])
  | c :: r =>
    if c == '*' || c == '?' || c == '+' then .ok (.other, r)
    else if isBlank c || c == '>' || c == ',' || c == '|' || c == ')' then .ok (.other, cs)
    else .error (.invalid cs.length)

/-- What follows a closing bracket. -/
def closeBracketEnd (cs : List Char) : Except Stop (OuterToken × List Char) :=
  match cs with
  | [']'] => .error .unfinished
  | ']' :: '>' :: r => .ok (.other, r)
  | _ => .ok (.closeBracket, cs)

/-- The characters make a name: they begin as one, and a colon, if any, divides them. -/
def isName (w : List Char) : Bool :=
  w.head?.any isNameStart &&
    (w.count ':' == 0 || w.count ':' == 1 && w.getLast? != some ':')

/-- A word: a name, or characters of names that do not make one. -/
def word (cs : List Char) : Except Stop (OuterToken × List Char) :=
  let (w, r) := cs.span (fun c => isNameChar c || c == ':')
  let token : OuterToken := if isName w then .name w else .other
  match r with
  | [] =>
    -- A colon that divides a name has to be followed by something.
    if isName w.dropLast && w.count ':' == 1 && w.getLast? == some ':' then .error .unfinished
    else .ok (token, [])
  | c :: rest =>
    if isBlank c || c == '>' || c == ')' || c == ',' || c == '|' || c == '[' || c == '%' then
      .ok (token, r)
    else if (c == '+' || c == '*' || c == '?') && isName w then .ok (.other, rest)
    else .error (.invalid r.length)

/-- The next token outside the root element; there is none at the end. -/
def outerToken (cs : List Char) : Option (Except Stop (OuterToken × List Char)) :=
  match cs with
  | [] => none
  | ['<'] => some (.error .unfinished)
  | '<' :: '!' :: r => some (declarationOpening r)
  | '<' :: '?' :: r => some do
    let ((target, content), r) ← instruction r
    return (.instruction target content, r)
  | '<' :: c :: r =>
    some (if isNameStart c || 128 ≤ c.toNat then .ok (.root, cs) else .error (.invalid (r.length + 1)))
  | c :: r =>
    some (
      if isBlank c then .ok (.blanks, r.dropWhile isBlank)
      else if c == '"' || c == '\'' then literal c r
      else if c == '%' then percent r
      else if c == '#' then poundName r
      else if c == ')' then closeParen r
      else if c == ']' then closeBracketEnd r
      else if c == '>' then .ok (.closing, r)
      else if c == '[' then .ok (.openBracket, r)
      else if c == ',' || c == '(' || c == '|' then .ok (.other, r)
      else if isNameChar c || c == ':' then word cs
      else .error (.invalid cs.length))

end SecureReview.Xml
