import SecureReview.Json.Token
/-!
# Reading JSON text

A machine with a stack of open containers takes one token at a time. The last of several equal keys
of an object wins and keeps the place of the first.
-/

namespace SecureReview.Json

/-- A container that is still open, with the items read so far. An array keeps them in reverse. -/
inductive Frame where
  | arr (items : List Json)
  | obj (fields : List (String × Json)) (key : String)

/-- What may come next. -/
inductive Mode where
  | value
  | valueOrClose
  | key (fields : List (String × Json))
  | keyOrClose
  | colon (fields : List (String × Json)) (key : String)
  | after (v : Json)
  | finished (v : Json)

/-- The machine between two tokens. -/
structure Reader where
  mode : Mode
  stack : List Frame

/-- Begin a value with the token at hand. -/
def Reader.begin (stack : List Frame) (s : Spot) : Except Flaw Reader :=
  match s.token with
  | .text t => .ok ⟨.after (.str t), stack⟩
  | .scalar v => .ok ⟨.after v, stack⟩
  | .openArr => .ok ⟨.valueOrClose, stack⟩
  | .openObj => .ok ⟨.keyOrClose, stack⟩
  | .broken flaw => .error flaw
  | _ => .error ⟨"Expecting value", s.pos⟩

/-- Take a key of an object with the given fields. -/
def Reader.takeKey (stack : List Frame) (fields : List (String × Json)) (s : Spot) :
    Except Flaw Reader :=
  match s.token with
  | .text t => .ok ⟨.colon fields t, stack⟩
  | .broken flaw => .error flaw
  | _ => .error ⟨"Expecting property name enclosed in double quotes", s.pos⟩

/-- Go on after the value `v`. -/
def Reader.continue (v : Json) : List Frame → Spot → Except Flaw Reader
  | [], s =>
    match s.token with
    | .stop => .ok ⟨.finished v, []⟩
    | _ => .error ⟨"Extra data", s.pos⟩
  | .arr items :: stack, s =>
    match s.token with
    | .closeArr => .ok ⟨.after (.arr (v :: items).reverse), stack⟩
    | .comma => .ok ⟨.value, .arr (v :: items) :: stack⟩
    | _ => .error ⟨"Expecting ',' delimiter", s.pos⟩
  | .obj fields key :: stack, s =>
    match s.token with
    | .closeObj => .ok ⟨.after (.obj (Fields.put fields key v)), stack⟩
    | .comma => .ok ⟨.key (Fields.put fields key v), stack⟩
    | _ => .error ⟨"Expecting ',' delimiter", s.pos⟩

/-- One token. -/
def Reader.step (r : Reader) (s : Spot) : Except Flaw Reader :=
  match r.mode with
  | .value => Reader.begin r.stack s
  | .valueOrClose =>
    match s.token with
    | .closeArr => .ok ⟨.after (.arr []), r.stack⟩
    | _ => Reader.begin (.arr [] :: r.stack) s
  | .keyOrClose =>
    match s.token with
    | .closeObj => .ok ⟨.after (.obj []), r.stack⟩
    | _ => Reader.takeKey r.stack [] s
  | .key fields => Reader.takeKey r.stack fields s
  | .colon fields key =>
    match s.token with
    | .colon => .ok ⟨.value, .obj fields key :: r.stack⟩
    | _ => .error ⟨"Expecting ':' delimiter", s.pos⟩
  | .after v => Reader.continue v r.stack s
  | .finished v => .ok ⟨.finished v, []⟩

/-- All tokens, one after the other. -/
def Reader.run (r : Reader) : List Spot → Except Flaw Reader
  | [] => .ok r
  | s :: ss =>
    match r.step s with
    | .ok r' => Reader.run r' ss
    | .error flaw => .error flaw

/-- Read a JSON text. -/
def parse (t : List Char) : Except Flaw Json :=
  if t.head? == some (Char.ofNat 0xFEFF) then
    .error ⟨"Unexpected UTF-8 BOM (decode using utf-8-sig)", 0⟩
  else
    match Reader.run ⟨.value, []⟩ (scan t) with
    | .ok ⟨.finished v, _⟩ => .ok v
    | .ok _ => .error ⟨"Expecting value", t.length⟩
    | .error flaw => .error flaw

/-- Read a JSON text given as a string. -/
def parseString (s : String) : Except Flaw Json :=
  parse s.toList

/-- The line of a position, counted from one. -/
def lineAt (t : List Char) (pos : Nat) : Nat :=
  (t.take pos).count '\n' + 1

/-- The column of a position, counted from one. -/
def columnAt (t : List Char) (pos : Nat) : Nat :=
  ((t.take pos).reverse.takeWhile (· != '\n')).length + 1

/-- The full wording of a flaw in the text `s`. -/
def Flaw.describe (flaw : Flaw) (s : String) : String :=
  let line := lineAt s.toList flaw.pos
  let column := columnAt s.toList flaw.pos
  s!"{flaw.message}: line {line} column {column} (char {flaw.pos})"

end SecureReview.Json
