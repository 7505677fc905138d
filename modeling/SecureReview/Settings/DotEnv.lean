import SecureReview.Text.Blank
import SecureReview.Text.Search
/-!
# Environment files

A file of bindings, one to a line: a name, an equals sign and a value, which may be quoted. Comments
begin with a number sign. A name may be used in later values as `$` and the name in braces, with a
default after `:-`.
-/

namespace SecureReview.DotEnv

/-- A name, and its value if it has one. -/
abbrev Binding := String × Option String

/-- A line ends here. -/
def isBreak (c : Char) : Bool := c == '\n' || c == '\r'

/-- A blank that does not end a line. -/
def isSpace (c : Char) : Bool := Text.isBlank c && !isBreak c

/-- Skip blanks within a line. -/
def skipSpace (cs : List Char) : List Char := cs.dropWhile isSpace

/-- The rest of the line is skipped, with its end. -/
def skipLine (cs : List Char) : List Char :=
  match cs.dropWhile (fun c => !isBreak c) with
  | [] => []
  | _ :: r => r

/-- Skip the word `export` before a name. -/
def skipExport (cs : List Char) : List Char :=
  let word := "export".toList
  if word.isPrefixOf cs then
    let rest := cs.drop word.length
    if (rest.head?.map isSpace).getD false then skipSpace rest else cs
  else cs

/-- A name: quoted, or all characters up to an equals sign, a number sign or a blank. -/
def readName (cs : List Char) : Option (String × List Char) :=
  let (name, rest) := match cs with
    | '\'' :: r => (r.takeWhile (· != '\''), (r.dropWhile (· != '\'')))
    | cs =>
      let stops := fun c => c == '=' || c == '#' || Text.isBlank c
      (cs.takeWhile (fun c => !stops c), cs.dropWhile (fun c => !stops c))
  if name.isEmpty then none
  else
    match cs, rest with
    | '\'' :: _, '\'' :: r => some (String.ofList name, r)
    | '\'' :: _, _ => none
    | _, r => some (String.ofList name, r)

/-- The text up to a closing quote, in which a backslash protects a quote. -/
def readQuoted (mark : Char) : List Char → Option (List Char × List Char)
  | [] => none
  | '\\' :: c :: r =>
    if c == mark then (readQuoted mark r).map (fun p => ('\\' :: c :: p.1, p.2))
    else (readQuoted mark (c :: r)).map (fun p => ('\\' :: p.1, p.2))
  | c :: r => if c == mark then some ([], r) else (readQuoted mark r).map (fun p => (c :: p.1, p.2))

/-- What an escaped character stands for between double quotes. -/
def escaped? (c : Char) : Option Char :=
  [('\\', '\\'), ('\'', '\''), ('"', '"'), ('a', '\x07'), ('b', '\x08'), ('f', '\x0c'), ('n', '\n'),
   ('r', '\r'), ('t', '\t'), ('v', '\x0b')].lookup c

/-- Resolve escapes; only some characters can be escaped. -/
def unescape (allowed : Char → Option Char) : List Char → List Char
  | '\\' :: c :: r =>
    match allowed c with
    | some d => d :: unescape allowed r
    | none => '\\' :: unescape allowed (c :: r)
  | c :: r => c :: unescape allowed r
  | [] => []

/-- Cut a comment off a value: a number sign after a blank begins one. -/
def cutComment : List Char → List Char
  | [] => []
  | c :: r =>
    if Text.isBlank c && ((r.dropWhile Text.isBlank).head? == some '#') then [] else c :: cutComment r

/-- A value. -/
def readValue (cs : List Char) : Option (List Char × List Char) :=
  match cs with
  | '\'' :: r => (readQuoted '\'' r).map (fun p =>
      (unescape (fun c => if c == '\\' || c == '\'' then some c else none) p.1, p.2))
  | '"' :: r => (readQuoted '"' r).map (fun p => (unescape escaped? p.1, p.2))
  | cs =>
    let line := cs.takeWhile (fun c => !isBreak c)
    some (Text.dropRightWhile Text.isBlank (cutComment line), cs.drop line.length)

/-- The end of a binding: a comment, then the end of the line. -/
def readEnd (cs : List Char) : Option (List Char) :=
  let cs := skipSpace cs
  let cs := if cs.head? == some '#' then cs.dropWhile (fun c => !isBreak c) else cs
  match cs with
  | [] => some []
  | '\r' :: '\n' :: r => some r
  | c :: r => if isBreak c then some r else none

/-- One binding. -/
def readBinding (cs : List Char) : Option (Option Binding × List Char) := do
  let cs := skipExport cs
  if cs.head? == some '#' then return (none, ← readEnd cs)
  let (name, r) ← readName cs
  match skipSpace r with
  | '=' :: r =>
    let (value, r) ← readValue (skipSpace r)
    return (some (name, some (String.ofList value)), ← readEnd r)
  | r => return (some (name, none), ← readEnd r)

/-- The bindings of a text; a line that cannot be read is skipped. -/
def bindings (cs : List Char) : List Binding :=
  let start := cs.dropWhile Text.isBlank
  if start.isEmpty then []
  else
    let (found, rest) := (readBinding start).getD (none, skipLine start)
    if _h : rest.length < cs.length then found.toList ++ bindings rest else found.toList
termination_by cs.length

/-- Put values in the place of names in braces. -/
def expand (env : List (String × String)) (cs : List Char) : List Char :=
  match cs with
  | [] => []
  | '$' :: '\x7b' :: r =>
    let stops := fun c => c == '\x7d'
    let inner := r.takeWhile (fun c => !stops c)
    let name := inner.takeWhile (· != ':')
    match r.drop inner.length, inner.drop name.length with
    | _ :: rest, [] =>
      if _h : rest.length < r.length + 2 then
        ((env.lookup (String.ofList name)).getD "").toList ++ expand env rest
      else []
    | _ :: rest, ':' :: '-' :: other =>
      if _h : rest.length < r.length + 2 then
        (((env.lookup (String.ofList name)).map String.toList).getD other) ++ expand env rest
      else []
    | _, _ => '$' :: expand env ('\x7b' :: r)
  | c :: r => c :: expand env r
termination_by cs.length

/-- Resolve the names in the values, from the first binding on; the latest binding of a name counts, and
bindings of the file go before those of the environment. -/
def resolve (env : List (String × String)) : List (String × String) → List Binding → List (String × String)
  | known, [] => known
  | known, (name, none) :: bs => resolve env (known.filter (fun e => e.1 != name)) bs
  | known, (name, some v) :: bs =>
    let value := String.ofList (expand (known ++ env) v.toList)
    resolve env ((name, value) :: known.filter (fun e => e.1 != name)) bs

/-- Read an environment file. -/
def read (env : List (String × String)) (text : String) : List (String × String) :=
  resolve env [] (bindings text.toList)

end SecureReview.DotEnv
