import SecureReview.Settings
import SecureReview.Time.Date
import SecureReview.World.Files
import SecureReview.World.Script
/-!
# The world of a run

Everything outside the program as one value: files, the scripts of the collaborators, the clocks, the
settings, and the record of what was asked of whom. An operation is a function from a world to an
answer or a failure, together with the world afterwards; a failure does not undo what was done.
-/

namespace SecureReview

/-- A command line to be run. -/
structure Command where
  words : List String
  cwd : Option String := none
  timeout : Option Nat := none
  /-- A non-zero exit code is a failure. -/
  check : Bool := false

/-- One message of a conversation with a language model. -/
structure ChatMessage where
  role : String
  content : String

/-- A request to a language model, in the terms of its vendor. -/
inductive ModelRequest where
  | openai (structured : Bool) (model : String) (messages : Json) (temperature maxTokens : Json)
  | anthropic (model : String) (maxTokens temperature system messages : Json)
  | google (contents temperature maxTokens : Json)

/-- A call of the recogniser of personal data. -/
inductive PersonalCall where
  | analyze (text : String)
  | anonymize (text : String)

/-- An HTTP post. -/
structure Post where
  url : String
  body : Json
  timeout : Json

/-- A step of a delivery: a message is posted, or the sender lets time pass. -/
inductive DeliveryStep where
  | post (p : Post)
  | sleep (s : Num)

namespace DeliveryStep

/-- The post, if the step is one. -/
def post? : DeliveryStep → Option Post
  | .post p => some p
  | .sleep _ => none

/-- How long the sender lets time pass, if it does. -/
def sleep? : DeliveryStep → Option Num
  | .post _ => none
  | .sleep s => some s

end DeliveryStep

/-- A call of the repository host. -/
inductive HostCall where
  | getRepo (name : Json)
  | getPull (number : Json)
  | issueComment (body : Json)
  | reviewComment (body commit path line : Json)
  | getFiles
  | clone (url : String) (dir : Json) (branch : Option Json)

/-- What was asked of the collaborators so far, in order. -/
structure Trace where
  commands : List Command := []
  modelRequests : List ModelRequest := []
  personalCalls : List PersonalCall := []
  deliveries : List DeliveryStep := []
  hostCalls : List HostCall := []
  spans : List Json := []
  /-- The notes of an observer, who is no part of the program. -/
  notes : List Json := []

/-- The posts of a run, in order. -/
def Trace.posts (t : Trace) : List Post :=
  t.deliveries.filterMap DeliveryStep.post?

/-- How long a run slept each time, in order. -/
def Trace.sleeps (t : Trace) : List Num :=
  t.deliveries.filterMap DeliveryStep.sleep?

/-- The world of a run. -/
structure World where
  settings : Settings := {}
  files : Files := {}
  /-- The directories that may not be searched when a path is looked up. -/
  closed : List String := []
  processes : List ProcessScript := []
  replies : List ModelReply := []
  trees : List (Except String Node) := []
  personal : List PersonalReply := []
  posts : List PostOutcome := []
  host : List (String × List HostOutcome) := []
  pullFiles : List String := []
  clones : List HostOutcome := []
  now : DateTime := { year := 2024, month := 1, day := 15, hour := 12 }
  clock : Num := .float 1000.0
  trace : Trace := {}

/-- An operation in the world. -/
abbrev Run := ExceptT Failure (StateM World)

namespace Run

/-- Lift a pure computation that may fail. -/
def ofExcept {α : Type} : Except Failure α → Run α
  | .ok a => pure a
  | .error e => throw e

/-- Add to the record of the run. -/
def record (f : Trace → Trace) : Run Unit :=
  modify (fun w => { w with trace := f w.trace })

/-- The settings in force. -/
def settings : Run Settings := do
  return (← get).settings

/-- The files as they are now. -/
def files : Run Files := do
  return (← get).files

/-- Replace the files. -/
def setFiles (fs : Files) : Run Unit :=
  modify (fun w => { w with files := fs })

/-- Look up a path, and ask something of what is there. -/
def look (question : Files → String → Bool) (p : String) : Run Bool := do
  let w ← get
  ofExcept (w.files.look w.closed question p)

/-- Take the next item of the script of commands. -/
def nextProcess : Run ProcessScript := do
  let w ← get
  match w.processes with
  | [] => return { fault := some .missing }
  | p :: ps =>
    set { w with processes := ps }
    return p

/-- Run a command. A tool that is not there is reported under the name of its file. -/
def process (c : Command) : Run Finished := do
  record (fun t => { t with commands := t.commands ++ [c] })
  let p ← nextProcess
  modify (fun w =>
    { w with files := p.writes.foldl (fun fs e => fs.put e.1 (Text.encodeUtf8 e.2)) w.files })
  match p.fault with
  | some .missing => throw (.noFile (c.words.headD ""))
  | some .timeout => throw (.timedOut c.words (c.timeout.getD 0))
  | some (.other text) => throw (.broken text)
  | none =>
    if c.check && p.code != 0 then throw (.exited c.words p.code)
    return ⟨p.stdout, p.stderr, p.code⟩

/-- Put a request to a language model and take the next answer of the script. -/
def ask (r : ModelRequest) : Run (Option String × Int × Int) := do
  record (fun t => { t with modelRequests := t.modelRequests ++ [r] })
  let w ← get
  match w.replies with
  | [] => throw (.broken "no scripted reply")
  | reply :: rest =>
    set { w with replies := rest }
    match reply with
    | .content text i o => return (text, i, o)
    | .fault text => throw (.broken text)

/-- Parse a source text: the next tree of the script. -/
def parseSource : Run Node := do
  let w ← get
  match w.trees with
  | [] => throw (.broken "no scripted tree")
  | t :: ts =>
    set { w with trees := ts }
    match t with
    | .ok n => return n
    | .error text => throw (.broken text)

/-- Look for personal data in a text. -/
def analyze (text : String) : Run (List PersonalSpan × String) := do
  record (fun t => { t with personalCalls := t.personalCalls ++ [.analyze text] })
  let w ← get
  match w.personal with
  | [] => return ([], "")
  | p :: ps =>
    set { w with personal := ps }
    match p with
    | .found spans anonymized => return (spans, anonymized)
    | .fault text => throw (.broken text)

/-- Post to a URL. -/
def post (p : Post) : Run Int := do
  record (fun t => { t with deliveries := t.deliveries ++ [.post p] })
  let w ← get
  match w.posts with
  | [] => return 200
  | o :: os =>
    set { w with posts := os }
    match o with
    | .status code => return code
    | .fault text => throw (.broken text)

/-- Take the next outcome out of a script by method. -/
def takeOutcome (method : String) :
    List (String × List HostOutcome) → HostOutcome × List (String × List HostOutcome)
  | [] => (.ok, [])
  | (m, os) :: rest =>
    if m == method then
      match os with
      | [] => (.ok, (m, []) :: rest)
      | o :: os => (o, (m, os) :: rest)
    else
      let (o, rest) := takeOutcome method rest
      (o, (m, os) :: rest)

/-- Call the repository host. -/
def callHost (method : String) (c : HostCall) : Run Unit := do
  record (fun t => { t with hostCalls := t.hostCalls ++ [c] })
  let w ← get
  let (o, rest) := takeOutcome method w.host
  set { w with host := rest }
  match o with
  | .ok => return
  | .hostError => throw .hostError
  | .fault text => throw (.broken text)

/-- Clone a repository. -/
def cloneFrom (url : String) (dir : Json) (branch : Option Json) : Run Unit := do
  record (fun t => { t with hostCalls := t.hostCalls ++ [.clone url dir branch] })
  let w ← get
  match w.clones with
  | [] => return
  | o :: os =>
    set { w with clones := os }
    match o with
    | .ok => return
    | .hostError => throw .hostError
    | .fault text => throw (.broken text)

/-- Let time pass on the second clock. -/
def sleep (s : Num) : Run Unit := do
  record (fun t => { t with deliveries := t.deliveries ++ [.sleep s] })
  let w ← get
  match w.clock.add s with
  | .ok c => set { w with clock := c }
  | .error _ => return

end Run

end SecureReview
