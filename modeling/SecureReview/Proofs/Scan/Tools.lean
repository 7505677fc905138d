import SecureReview.Proofs.World.Frame
import SecureReview.Scan.Enriched
/-!
# Tools and what they report

The languages of a repository are scanned by six tools, one command each,
and a tool uses up one item of the script of commands. What it reports is
what its output reads as, and **nothing at all** if it does not run or its
output makes no sense (`Tool.found_of_fails`). A scanner runs its tools in
turn (`run_scan`), so that its findings are those of the items in turn, and
those of the tools that did not fail (`foundBy_eq_working`).
-/

namespace SecureReview.Scan

/-- The tools that look at a repository. -/
inductive Tool where
  | bandit
  | eslint (d : Eslint.Dialect)
  | gosec
  | audit
  | lint

namespace Tool

/-- The command of a tool for a path. -/
def command (path : String) : Tool → Command
  | .bandit => { words := ["bandit", "-r", path, "-f", "json", "-c", "configs/bandit.yaml"] }
  | .eslint .javascript =>
    { words := Eslint.Dialect.javascript.command "configs/eslint.config.mjs" path }
  | .eslint .typescript =>
    { words := Eslint.Dialect.typescript.command "configs/eslint.typescript.config.mjs" path }
  | .gosec => { words := ["gosec", "-fmt=json", "-conf", "configs/gosec.yaml", s!"{path}/..."] }
  | .audit =>
    { words := ["cargo", "audit", "--json", "--file", s!"{path}/Cargo.lock"], cwd := some path }
  | .lint =>
    { words := ["cargo", "clippy", "--message-format=json", "--", "-W", "clippy::all"],
      cwd := some path }

/-- What a tool printed, read as findings. -/
def read : Tool → String → Except Failure (List Json)
  | .bandit => Bandit.read
  | .eslint d => Eslint.read d
  | .gosec => Gosec.read
  | .audit => Cargo.readAudit
  | .lint => Cargo.readLints

/-- Run a tool. Whatever goes wrong, the outcome is then that it found nothing. -/
def run (path : String) (t : Tool) : Run (List Json) :=
  try
    let out ← Run.process (t.command path)
    Run.ofExcept (t.read out.stdout)
  catch _ => return []

/-- What a tool finds, by what happens when it is run. -/
def found (t : Tool) (p : ProcessScript) : List Json :=
  match p.fault with
  | some _ => []
  | none => (t.read p.stdout).toOption.getD []

theorem check_command (path : String) (t : Tool) : (t.command path).check = false := by
  rcases t with _ | ⟨_ | _⟩ | _ | _ | _ <;> rfl

/-- **A tool never fails**: it finds what its item of the script says. -/
theorem run_run (path : String) (t : Tool) (w : World) :
    (t.run path).run.run w = (.ok (t.found w.nextScript), w.afterCommand (t.command path)) := by
  rw [run, Run.run_bind, Run.run_tryCatch, found]
  cases hfault : w.nextScript.fault with
  | some fault =>
    rw [Run.run_bind_error (Run.run_process_error hfault)]
    rfl
  | none =>
    rw [Run.run_bind_ok (Run.run_process (t.check_command path) hfault)]
    cases t.read w.nextScript.stdout <;> rfl

/-! ## Tools that fail -/

/-- A tool prints JSON: as one value, or a lint as one value a line. Other lines do not matter
if there is one. -/
def isJson : Tool → String → Bool
  | .lint, output =>
    ((Text.bareLines output.toList).map String.ofList).any fun line => (Json.parseString line).isOk
  | _, output => (Json.parseString output).isOk

/-- **A tool fails** if it does not run, or what it prints is not JSON or not of its kind. -/
def fails (t : Tool) (p : ProcessScript) : Bool :=
  p.fault.isSome || !t.isJson p.stdout || !(t.read p.stdout).isOk

theorem exists_read_error {output : String} (h : (Json.parseString output).isOk = false) :
    ∃ e, Json.read output = .error e := by
  rw [Json.read]
  cases hparse : Json.parseString output with
  | ok v =>
    rw [hparse] at h
    cases h
  | error flaw => exact ⟨_, rfl⟩

/-- A line that is not JSON says nothing. -/
theorem lintMessage?_of_not_json {line : String} (h : (Json.parseString line).isOk = false) :
    Cargo.lintMessage? line = .ok none := by
  rw [Cargo.lintMessage?]
  split
  · rfl
  · cases hparse : Json.parseString line with
    | ok v =>
      rw [hparse] at h
      cases h
    | error flaw => rfl

theorem mapM_lintMessage? {lines : List String}
    (h : ∀ line ∈ lines, (Json.parseString line).isOk = false) :
    ∃ messages, lines.mapM Cargo.lintMessage? = .ok messages ∧ messages.filterMap id = [] := by
  induction lines with
  | nil => exact ⟨[], rfl, rfl⟩
  | cons line lines ih =>
    obtain ⟨hline, hlines⟩ := List.forall_mem_cons.1 h
    obtain ⟨messages, hmap, hnone⟩ := ih hlines
    refine ⟨none :: messages, ?_, hnone⟩
    rw [List.mapM_cons, lintMessage?_of_not_json hline, hmap]
    rfl

/-- Output that is not JSON is a failure, or else says nothing. -/
theorem read_of_not_json {t : Tool} {output : String} (h : t.isJson output = false) :
    (t.read output).toOption.getD [] = [] := by
  cases t with
  | lint =>
    obtain ⟨messages, hmap, hnone⟩ := mapM_lintMessage? fun line hline => by
      simpa using List.any_eq_false.1 h line hline
    simp only [read, Cargo.readLints, hmap, bind, Except.bind, hnone]
    rfl
  | bandit =>
    obtain ⟨e, he⟩ := exists_read_error h
    rw [read, Bandit.read, he]
    rfl
  | eslint d =>
    obtain ⟨e, he⟩ := exists_read_error h
    rw [read, Eslint.read, he]
    rfl
  | gosec =>
    obtain ⟨e, he⟩ := exists_read_error h
    rw [read, Gosec.read, he]
    split <;> rfl
  | audit =>
    obtain ⟨e, he⟩ := exists_read_error h
    rw [read, Cargo.readAudit, he]
    split <;> rfl

/-- **A tool that fails finds nothing.** -/
theorem found_of_fails {t : Tool} {p : ProcessScript} (h : t.fails p = true) : t.found p = [] := by
  rw [found]
  cases hfault : p.fault with
  | some fault => rfl
  | none =>
    rw [fails, hfault, Option.isSome_none, Bool.false_or, Bool.or_eq_true, Bool.not_eq_true',
      Bool.not_eq_true'] at h
    obtain hjson | hread := h
    · exact read_of_not_json hjson
    · cases hout : t.read p.stdout with
      | ok fs =>
        rw [hout] at hread
        cases hread
      | error e => rfl

end Tool

/-! ## Scans by several tools -/

/-- The tools of a scanner. -/
def Scanner.tools : Scanner → List Tool
  | .bandit => [.bandit]
  | .eslint => [.eslint .javascript]
  | .typescript => [.eslint .typescript]
  | .gosec => [.gosec]
  | .rust => [.audit, .lint]
  | _ => []

/-- The tools for a language; a language that is not known has none. -/
def toolsFor (language : String) : List Tool :=
  ((scannerFor? language).map Scanner.tools).getD []

/-- What some tools find, one after the other, by the script of commands. -/
def foundBy : List Tool → List ProcessScript → List Json
  | [], _ => []
  | t :: ts, ps => t.found (ps.headD { fault := some .missing }) ++ foundBy ts ps.tail

/-- The tools that do not fail, each with its item of the script. -/
def working : List Tool → List ProcessScript → List (Tool × ProcessScript)
  | [], _ => []
  | t :: ts, ps =>
    let p := ps.headD { fault := some .missing }
    if t.fails p then working ts ps.tail else (t, p) :: working ts ps.tail

/-- **Tools that fail leave no trace** in what is found. -/
theorem foundBy_eq_working (ts : List Tool) (ps : List ProcessScript) :
    foundBy ts ps = (working ts ps).flatMap fun (t, p) => t.found p := by
  induction ts generalizing ps with
  | nil => rfl
  | cons t ts ih =>
    rw [foundBy, working, ih]
    by_cases hfails : t.fails (ps.headD { fault := some .missing }) = true
    · rw [Tool.found_of_fails hfails, if_pos hfails, List.nil_append]
    · rw [if_neg hfails, List.flatMap_cons]

/-- The world after some tools. -/
def afterTools (path : String) (ts : List Tool) (w : World) : World :=
  ts.foldl (fun w t => w.afterCommand (t.command path)) w

theorem foundBy_append (ts us : List Tool) (ps : List ProcessScript) :
    foundBy (ts ++ us) ps = foundBy ts ps ++ foundBy us (ps.drop ts.length) := by
  induction ts generalizing ps with
  | nil => rfl
  | cons t ts ih =>
    rw [List.cons_append, foundBy, ih, foundBy, List.append_assoc, List.length_cons,
      ← List.drop_tail]

theorem processes_afterTools (path : String) (ts : List Tool) (w : World) :
    (afterTools path ts w).processes = w.processes.drop ts.length := by
  induction ts generalizing w with
  | nil => rfl
  | cons t ts ih =>
    rw [afterTools, List.foldl_cons, ← afterTools, ih, List.length_cons, ← List.drop_tail]
    rfl

theorem afterTools_append (path : String) (ts us : List Tool) (w : World) :
    afterTools path (ts ++ us) w = afterTools path us (afterTools path ts w) :=
  List.foldl_append

/-- **What commands leave alone**, tools leave alone. -/
theorem keeps_afterTools {γ : Type} {part : World → γ}
    (h : ∀ (w : World) (c : Command), part (w.afterCommand c) = part w) (path : String)
    (ts : List Tool) (w : World) : part (afterTools path ts w) = part w := by
  induction ts generalizing w with
  | nil => rfl
  | cons t ts ih => exact (ih (w.afterCommand (t.command path))).trans (h w _)

theorem settings_afterTools (path : String) (ts : List Tool) (w : World) :
    (afterTools path ts w).settings = w.settings :=
  keeps_afterTools (fun _ _ => rfl) path ts w

/-- Tools see files and commands only. -/
theorem surroundings_afterTools {w w' : World} (path : String) (ts : List Tool)
    (h : w'.surroundings = w.surroundings) :
    (afterTools path ts w').surroundings = (afterTools path ts w).surroundings := by
  induction ts generalizing w w' with
  | nil => exact h
  | cons t ts ih =>
    refine ih ?_
    obtain ⟨hsettings, hfiles, hprocesses⟩ : w'.settings = w.settings ∧ w'.files = w.files ∧
        w'.processes = w.processes := by simpa [World.surroundings] using h
    simp only [World.surroundings, World.afterCommand, World.nextScript, hsettings, hfiles,
      hprocesses]

theorem run_one (path : String) (t : Tool) (w : World) :
    (t.run path).run.run w = (.ok (foundBy [t] w.processes), afterTools path [t] w) := by
  rw [Tool.run_run, foundBy, foundBy, List.append_nil]
  rfl

/-- Advisories come before lints. -/
theorem run_cargo (path : String) (w : World) : (Cargo.scan path).run.run w =
    (.ok (foundBy [.audit, .lint] w.processes), afterTools path [.audit, .lint] w) := by
  have haudit : (Cargo.audit path).run.run w = _ := Tool.run_run path .audit w
  have hlint : (Cargo.lint path).run.run (w.afterCommand (Tool.audit.command path)) = _ :=
    Tool.run_run path .lint _
  rw [Cargo.scan, Run.run_bind_ok haudit, Run.run_bind_ok hlint, Run.run_pure, foundBy, foundBy, foundBy,
    List.append_nil]
  rfl

/-- **A scanner runs its tools.** -/
theorem run_scan {language : String} {s : Scanner} (h : scannerFor? language = some s)
    (path : String) (w : World) :
    (s.scan path).run.run w = (.ok (foundBy s.tools w.processes), afterTools path s.tools w) := by
  unfold scannerFor? at h
  split at h
  · cases h
    exact run_one path .bandit w
  · cases h
    exact run_one path (.eslint .javascript) w
  · cases h
    exact run_one path (.eslint .javascript) w
  · cases h
    exact run_one path .gosec w
  · cases h
    exact run_cargo path w
  · cases h
    exact run_one path (.eslint .typescript) w
  · cases h
    exact run_one path (.eslint .typescript) w
  · cases h

end SecureReview.Scan
