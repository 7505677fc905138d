import SecureReview.Privacy.Secret
import SecureReview.World.Basic
import SecureReview.Json.Loose
/-!
# Redaction

Secrets are replaced by placeholders, kind after kind; what is left is handed to the recogniser of
personal data. Every replacement is logged. In paths the names of users are replaced.
-/

namespace SecureReview.Privacy

open Pattern (Span)

/-- A text without the stretch `s`, with `new` in its place. -/
def splice (new t : List Char) (s : Span) : List Char :=
  t.take s.start ++ new ++ t.drop s.stop

/-- Replace the stretches from the last to the first, so that the positions of the earlier ones stay
right. -/
def spliceAll (new t : List Char) (ss : List Span) : List Char :=
  ss.reverse.foldl (splice new) t

/-- Replace the stretches in one pass from left to right; `pos` is the position of the text. -/
def fillGaps (new : List Char) : Nat → List Char → List Span → List Char
  | _, t, [] => t
  | pos, t, s :: ss =>
    t.take (s.start - pos) ++ new ++ fillGaps new s.stop (t.drop (s.stop - pos)) ss

/-- A text under redaction, and the log. -/
structure Redacted where
  text : List Char
  log : List String

/-- The log entry of a secret. -/
def secretEntry (k : SecretKind) (field : String) (s : Span) : String :=
  s!"Redacted {k.name} in {field} at position {s.start}"

/-- Redact one kind of secret. The log names the last match first. -/
def redactKind (field : String) (r : Redacted) (k : SecretKind) : Redacted :=
  let ss := k.pattern.spans r.text
  { text := spliceAll k.placeholder.toList r.text ss
    log := r.log ++ ss.reverse.map (secretEntry k field) }

/-- Redact all kinds of secrets. -/
def redactSecrets (field : String) (t : List Char) : Redacted :=
  SecretKind.known.foldl (redactKind field) ⟨t, []⟩

/-- No known secret is left in a text. -/
def isClean (t : List Char) : Bool :=
  SecretKind.known.all (fun k => !k.pattern.found t)

/-- The text in a value that is to be searched. -/
def searchable : Json → Except Failure String
  | .str s => .ok s
  | v => .error (.wrongKind s!"expected string or bytes-like object, got '{v.kind}'")

/-- A score with two places. -/
def scoreText : Json → Except Failure String
  | .float x => .ok (Number.fixed x 2)
  | .int n => .ok (String.ofList
      ((if n < 0 then ['-'] else []) ++ Number.fixedQuotient n.natAbs 1 2))
  | .bool b => .ok (if b then "1.00" else "0.00")
  | .str _ => .error (.badValue "Unknown format code 'f' for object of type 'str'")
  | v => .error (.wrongKind s!"unsupported format string passed to {v.kind}.__format__")

/-- The log entries of personal data, up to the first whose score cannot be shown. -/
def personalEntries (field : String) : List PersonalSpan → List String
  | [] => []
  | s :: ss =>
    match scoreText s.score with
    | .ok score => s!"Redacted {s.entity} in {field} (score: {score})" :: personalEntries field ss
    | .error _ => []

/-- Have personal data replaced. If the recogniser fails, the text stays as it is. -/
def redactPersonal (field : String) (r : Redacted) : Run Redacted := do
  let text := String.ofList r.text
  try
    let (spans, anonymized) ← Run.analyze text
    if spans.isEmpty then
      return r
    else
      Run.record (fun t => { t with personalCalls := t.personalCalls ++ [.anonymize text] })
      return { text := anonymized.toList, log := r.log ++ personalEntries field spans }
  catch _ => return r

/-- Redact a text: secrets first, then personal data. -/
def sanitizeText (v : Json) (field : String) : Run (Json × List String) := do
  let s ← Run.ofExcept (searchable v)
  let r ← redactPersonal field (redactSecrets field s.toList)
  return (.str (String.ofList r.text), r.log)

/-! ## User names in paths -/

/-- A template refers to a part of what was matched. -/
def refersBack : List Char → Bool
  | '\\' :: c :: t => c == 'g' || c.isDigit || refersBack t
  | _ :: t => refersBack t
  | [] => false

/-- What is written in the place of a match. A backslash begins an escape. -/
structure Template where
  text : String
  plain : refersBack text.toList = false := by decide

/-- The characters that letters stand for behind a backslash. -/
def escapes : List (Char × Char) :=
  [('a', '\x07'), ('b', '\x08'), ('f', '\x0c'), ('n', '\n'), ('r', '\r'), ('t', '\t'), ('v', '\x0b'),
    ('\\', '\\')]

/-- A backslash at the end of a template, which escapes nothing. -/
def openEscape (pos : Nat) : Failure :=
  .badPattern s!"bad escape (end of pattern) at position {pos}"

/-- Read a template from a position on. A letter that stands for nothing cannot be escaped; before any
other character a backslash stands for itself. The backslash at the end is noticed one step ahead. -/
def readTemplate : Nat → List Char → Except Failure (List Char)
  | _, [] => .ok []
  | pos, ['\\'] => .error (openEscape pos)
  | pos, '\\' :: c :: t =>
    if t == ['\\'] then .error (openEscape (pos + 2))
    else
      match escapes.lookup c with
      | some d => (d :: ·) <$> readTemplate (pos + 2) t
      | none =>
        if c.isAlpha then .error (.badPattern s!"bad escape \\{c} at position {pos}")
        else ('\\' :: c :: ·) <$> readTemplate (pos + 2) t
  | pos, c :: t => (c :: ·) <$> readTemplate (pos + 1) t

/-- The directories of users: what comes before the name of one, the character behind the name, and
what is written for both with the name between them. -/
structure UserDirectory where
  lead : String
  mark : Char
  template : Template

namespace UserDirectory

/-- The directories of users on macOS. -/
def users : UserDirectory := ⟨"/Users/", '/', { text := "/Users/<USERNAME>/" }⟩

/-- The directories of users on Linux. -/
def home : UserDirectory := ⟨"/home/", '/', { text := "/home/<USERNAME>/" }⟩

/-- The directories of users on Windows, where backslashes divide a path. -/
def windows : UserDirectory := ⟨"C:\\Users\\", '\\', { text := "C:\\Users\\<USERNAME>\\" }⟩

/-- All such directories, in the order in which they are redacted. -/
def known : List UserDirectory := [users, home, windows]

/-- A directory with the name of a user in it. -/
def pattern (d : UserDirectory) : Pattern :=
  .all [.text d.lead, .some₁ (.allBut d.mark), .char d.mark]

/-- Redact the names of users in such directories. -/
def redact (d : UserDirectory) (t : List Char) : Except Failure (List Char) := do
  let new ← readTemplate 0 d.template.text.toList
  return spliceAll new t (d.pattern.spans t)

end UserDirectory

/-- Redact the user names in a path. The replacement that names the directory of a Windows user cannot
be read as a template, so no path gets through. -/
def sanitizePath (v : Json) : Except Failure Json := do
  let s ← searchable v
  let t ← UserDirectory.known.foldlM (fun t d => d.redact t) s.toList
  return .str (String.ofList t)

/-- **No path gets through.** The user directories of Windows come last. -/
theorem sanitizePath_str (s : String) :
    sanitizePath (.str s) = .error (.badPattern "bad escape \\U at position 2") :=
  rfl

/-! ## Records -/

/-- Redact the texts of a list one after the other. -/
def sanitizeTexts (field : String) : List Json → Run (List Json × List String)
  | [] => return ([], [])
  | v :: vs => do
    let (t, log) ← sanitizeText v field
    let (ts, logs) ← sanitizeTexts field vs
    return (t :: ts, log ++ logs)

/-- Redact the imports of a context. -/
def sanitizeImports (v : Json) : Run (Json × List String) := do
  let items ← Run.ofExcept v.items
  let (ts, log) ← sanitizeTexts "import" items
  return (.arr ts, log)

/-- A record under redaction, and the log. -/
structure RedactedFields where
  fields : Fields
  log : List String

/-- Redact the field `k` by `f`, if it is there and its value counts. -/
def redactAt (k : String) (counts : Json → Bool) (f : Json → Run (Json × List String))
    (r : RedactedFields) : Run RedactedFields :=
  match Fields.get? r.fields k with
  | none => return r
  | some v =>
    if counts v then do
      let (u, log) ← f v
      return { fields := Fields.put r.fields k u, log := r.log ++ log }
    else return r

/-- Redact the path of a record. -/
def redactPath (r : RedactedFields) : Run RedactedFields :=
  redactAt "file" (fun _ => true) (fun v => return (← Run.ofExcept (sanitizePath v), [])) r

/-- Redact a record by `f`, which redacts the fields `names`. A list has no fields and stays as it is,
unless one of the names stands in it: then the list is taken for a record, and that fails. -/
def redactRecord (names : List String) (f : RedactedFields → Run RedactedFields) (v : Json) :
    Run (Json × List String) :=
  match v with
  | .obj fs => do
    let r ← f ⟨fs, []⟩
    return (.obj r.fields, r.log)
  | .arr vs =>
    if vs.any (fun | .str s => names.contains s | _ => false) then
      throw (.wrongKind "list indices must be integers or slices, not str")
    else return (v, [])
  | v => throw (.noOperation v.kind "copy")

/-- Redact the context of a finding: its code, its imports and its path. -/
def sanitizeContext : Json → Run (Json × List String) :=
  redactRecord ["context_code", "imports", "file"] fun r => do
    let r ← redactAt "context_code" (fun _ => true) (sanitizeText · "context_code") r
    let r ← redactAt "imports" Json.truthy sanitizeImports r
    redactPath r

/-- Redact a finding: its code, its context and its path. -/
def sanitizeFinding : Json → Run (Json × List String) :=
  redactRecord ["code", "context", "file"] fun r => do
    let r ← redactAt "code" Json.truthy (sanitizeText · "sast_code") r
    let r ← redactAt "context" Json.truthy sanitizeContext r
    redactPath r

/-- A recognition counts when its score is above seven tenths. -/
def isConfident (s : PersonalSpan) : Except Failure Bool :=
  match Num.ofJson? s.score with
  | some n => .ok (Num.lt (.float 0.7) n)
  | none => .error (.wrongKind
      s!"'>' not supported between instances of '{s.score.kind}' and 'float'")

/-- No secret and no certain personal data is left in a text. A failing recogniser counts against the
text. -/
def isSanitized (v : Json) : Run Bool := do
  let s ← Run.ofExcept (searchable v)
  if isClean s.toList then
    try
      let (spans, _) ← Run.analyze s
      let confident ← spans.mapM (fun p => Run.ofExcept (isConfident p))
      return !confident.contains true
    catch _ => return false
  else return false

end SecureReview.Privacy
