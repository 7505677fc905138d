import SecureReview.Failure
import SecureReview.Rules.Table
/-!
# Sessions on the table of rules

A call works on a session. What it adds, changes or removes waits until the session is committed, and
until then its own questions do not see it. A commit carries out everything that waits or, if a
constraint is broken on the way, nothing. Which questions can be asked and which rows are stored is up
to the database.
-/

namespace SecureReview

/-- What a database refuses: questions that cannot be put to it, and rows that it does not store, each
with the reason. The default refuses nothing. -/
structure RuleDatabase where
  /-- Why the rules of a tool cannot be searched for a name. -/
  unasked : String → String → Option Failure := fun _ _ => none
  /-- Why a row is not stored. -/
  unstored : Rule → Option Failure := fun _ => none

namespace RuleDatabase

/-- Ask whether a tool already has a rule of this name. -/
def isTaken (D : RuleDatabase) (t : RuleTable) (d : RuleDraft) : Except Failure Bool :=
  match D.unasked d.tool d.ruleId with
  | some e => .error e
  | none => .ok (t.isTaken d.tool d.ruleId)

/-- A rule may be created. The database is asked once the language and the tool are known. -/
def vet (D : RuleDatabase) (t : RuleTable) (d : RuleDraft) : Except Failure Unit := do
  if RuleTable.languages.contains d.language && RuleTable.tools.contains d.tool then
    let _ ← D.isTaken t d
  t.vet d

/-- Store a row. -/
def store (D : RuleDatabase) (r : Rule) : Except Failure Rule :=
  match D.unstored r with
  | some e => .error e
  | none => .ok r

/-- A text that cannot be sent to a database. -/
def unsent (text : String) : Option Failure :=
  if text.toList.contains (Char.ofNat 0) then
    some (.badValue "A string literal cannot contain NUL (0x00) characters.")
  else none

/-- A text that is too long for its column. -/
def overlong (width : Nat) (text : String) : Option Failure :=
  if width < text.length then some (.broken s!"value too long for type character varying({width})")
  else none

/-- A database that keeps to the widths of the columns. The long texts of a row have no width. -/
def bounded : RuleDatabase where
  unasked tool ruleId := [tool, ruleId].findSome? unsent
  unstored r :=
    let short := [(255, r.name), (50, r.language), (50, r.tool), (100, r.ruleId)] ++
      r.severityOverride.toList.map (fun s => (20, s))
    let texts := short.map Prod.snd ++ r.customMessage.toList ++ r.description.toList
    (texts.findSome? unsent).or (short.findSome? fun c => overlong c.1 c.2)

end RuleDatabase

/-- A change of the table that waits to be committed. -/
inductive RuleStatement where
  | insert (d : RuleDraft) (now : DateTime)
  | change (id : Nat) (c : RuleChanges) (now : DateTime)
  | remove (id : Nat)

/-- Carry out a change. -/
def RuleStatement.execute (D : RuleDatabase) (t : RuleTable) :
    RuleStatement → Except Failure RuleTable
  | .insert d now => do
    let _ ← D.store (d.toRule t.nextId now)
    return t.add d now
  | .change id c now =>
    t.mapM (fun r => if r.id == id then do D.store (← c.apply now r) else .ok r)
  | .remove id => .ok (t.filter (fun r => r.id != id))

/-- One more rule that is not imported, for the given reason. -/
def ImportSummary.failing (m : ImportSummary) (reason : String) : ImportSummary :=
  { m with failed := m.failed + 1, errors := m.errors ++ [reason] }

/-- A session: the rules that are committed, the changes that wait, and the database. -/
structure RuleSession where
  committed : RuleTable
  waiting : List RuleStatement := []
  database : RuleDatabase := {}

namespace RuleSession

/-- The rules that a question sees. -/
def rules : Effect RuleSession RuleTable := do
  return (← get).committed

/-- Let a change wait. -/
def await (change : RuleStatement) : Effect RuleSession Unit :=
  modify (fun s => { s with waiting := s.waiting ++ [change] })

/-- Carry out the changes that wait, one after the other. -/
def commit : Effect RuleSession Unit := do
  let s ← get
  let t ← Effect.ofExcept (s.waiting.foldlM (RuleStatement.execute s.database) s.committed)
  set { s with committed := t, waiting := [] }

/-- Make a change and commit it. -/
def save (change : RuleStatement) : Effect RuleSession Unit := do
  await change
  commit

/-- The rule with a number, which has to be there. -/
def find (id : Int) : Effect RuleSession Rule := do
  Effect.ofExcept ((← rules).get id)

/-- Create a rule. -/
def create (d : RuleDraft) (now : DateTime) : Effect RuleSession Rule := do
  let t ← rules
  Effect.ofExcept ((← get).database.vet t d)
  save (.insert d now)
  find t.nextId

/-- Change a rule. -/
def update (id : Int) (c : RuleChanges) (now : DateTime) : Effect RuleSession Rule := do
  let r ← find id
  save (.change r.id c now)
  find r.id

/-- Delete a rule. -/
def delete (id : Int) : Effect RuleSession Unit := do
  let r ← find id
  save (.remove r.id)

/-- Import a rule, if its key is not taken, and count it. -/
def importNew (now : DateTime) (m : ImportSummary) (d : RuleDraft) :
    Effect RuleSession ImportSummary := do
  let t ← rules
  if ← Effect.ofExcept ((← get).database.isTaken t d) then
    return m.failing (RuleTable.takenText d)
  await (.insert d now)
  return { m with imported := m.imported + 1 }

/-- Import a rule. One that the database cannot be asked about counts as failed, for that reason. -/
def importRule (now : DateTime) (m : ImportSummary) (d : RuleDraft) :
    Effect RuleSession ImportSummary :=
  tryCatch (importNew now m d) fun e => return m.failing e.message

/-- Import rules. Only the first ten complaints are told. -/
def importRules (ds : List RuleDraft) (now : DateTime) : Effect RuleSession ImportSummary := do
  let m ← ds.foldlM (importRule now) ⟨0, 0, []⟩
  commit
  return { m with errors := m.errors.take 10 }

/-- Serve a call on a database: it gets a session of its own, and what it leaves uncommitted is
lost. -/
def serveOn {α : Type} (D : RuleDatabase) (call : Effect RuleSession α) (t : RuleTable) :
    Except Failure α × RuleTable :=
  let r := call.run.run { committed := t, database := D }
  (r.1, r.2.committed)

/-- Serve a call on a database that refuses nothing. -/
def serve {α : Type} (call : Effect RuleSession α) (t : RuleTable) : Except Failure α × RuleTable :=
  serveOn {} call t

end RuleSession

end SecureReview
