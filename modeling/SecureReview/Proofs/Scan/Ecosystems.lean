import SecureReview.Proofs.Scan.Reports
/-!
# Ecosystems are scanned apart

A scan of dependencies gives each ecosystem its turn, and an ecosystem whose
files are there has its tool run. Whatever a tool comes to, it is no failure
of the scan: it only decides what is found for its own ecosystem
(`Kind.run_scan`). The one thing that ends a scan is that **the system
refuses to look for a file** that would show an ecosystem, because its path
is too long or a directory may not be searched. Otherwise the findings of a
scan are those of the ecosystems that are used, one after the other, and each
part is what the scan of that ecosystem alone finds wherever its tool comes
to the same (`run_scanEach`).

A tool may write files, and so decide what a later ecosystem meets: an
ecosystem is used if its files are there when its turn comes
(`present`). Where no tool touches these files, they are the files of the
project as it was (`present_eq_filter`).
-/

namespace SecureReview.Scan.Dependencies

/-! ## Looking for files -/

section Looking

variable {fs : Files} {closed : List String} {dir : String} {ss : List String} {b : Bool} {e : Failure}

/-- What is answered is whether one of the files is there. -/
theorem looksAny_eq_ok (h : looksAny fs closed dir ss = .ok b) :
    b = ss.any fun s => fs.has (Path.below dir s) := by
  induction ss with
  | nil => exact (Except.ok.inj h).symm
  | cons s ss ih =>
    obtain ⟨here, hlook, h⟩ := Run.except_bind_eq_ok.1 h
    rw [List.any_cons, ← Files.look_eq_ok hlook]
    cases here with
    | true => exact (Except.ok.inj h).symm
    | false => exact ih h

theorem looksAny_eq_error (h : looksAny fs closed dir ss = .error e) :
    ∃ s ∈ ss, fs.obstacle? closed (Path.below dir s) = some e := by
  induction ss with
  | nil => cases h
  | cons s ss ih =>
    rw [looksAny] at h
    cases hlook : fs.look closed Files.has (Path.below dir s) with
    | error e' =>
      rw [hlook] at h
      cases h
      exact ⟨s, List.mem_cons_self, Files.look_eq_error hlook⟩
    | ok here =>
      rw [hlook] at h
      cases here with
      | true => cases h
      | false =>
        obtain ⟨s', hs', hobstacle⟩ := ih h
        exact ⟨s', List.mem_cons_of_mem s hs', hobstacle⟩

end Looking

/-! ## One ecosystem -/

/-- The ecosystems by name. -/
inductive Kind where
  | python
  | javascript
  | go
  | rust
  | java
  deriving DecidableEq

/-- What the place of the report gives: nothing if there is none, or its text, or the failure to
read it. -/
def reportIn (fs : Files) : Option (Except Failure String) :=
  if fs.has javaReportPath then some (fs.readText javaReportPath) else none

/-- The findings in a report; one that cannot be read has none. -/
def foundInReport : Option (Except Failure String) → List Json
  | some (.ok text) => (ReportScan.entriesOutcome (javaEntries text)).1
  | _ => []

namespace Kind

variable {k : Kind} {path : String} {p : ProcessScript} {w : World}

/-- The ecosystems in the order of their turns. -/
def all : List Kind :=
  [.python, .javascript, .go, .rust, .java]

/-- The ecosystem with a name. -/
def ecosystem : Kind → Ecosystem
  | .python => ⟨["requirements.txt", "pyproject.toml"], Dependencies.python⟩
  | .javascript => ⟨["package.json"], Dependencies.javascript⟩
  | .go => ⟨["go.mod"], Dependencies.go⟩
  | .rust => ⟨["Cargo.toml"], Dependencies.rust⟩
  | .java => ⟨["pom.xml", "build.gradle"], Dependencies.java⟩

theorem map_ecosystem_all : all.map ecosystem = ecosystems := rfl

/-- The files that show the ecosystem. -/
def signs (k : Kind) : List String :=
  k.ecosystem.signs

/-- A project with these files uses the ecosystem. -/
def isUsed (k : Kind) (fs : Files) (path : String) : Bool :=
  k.signs.any fun s => fs.has (Path.below path s)

/-- Whether it does, if the system lets its files be looked up. -/
def seen (k : Kind) (closed : List String) (fs : Files) (path : String) : Except Failure Bool :=
  looksAny fs closed path k.signs

/-- Every file that would show an ecosystem can be looked up, whatever files there are. -/
def AllOpen (closed : List String) (path : String) : Prop :=
  ∀ k : Kind, ∀ s ∈ k.signs, Files.IsOpen closed (Path.below path s)

/-- The scan of the ecosystem alone. -/
def scan (k : Kind) : String → Run (List Json) :=
  k.ecosystem.scan

/-- What is found for an ecosystem, by what its tool came to. Only one tool leaves a report. -/
def found (k : Kind) (p : ProcessScript) (report : Option (Except Failure String)) : List Json :=
  if p.fault.isSome then []
  else
    match k with
    | .python => untilFailure pythonFinding (entries (pythonEntries p.code p.stdout))
    | .javascript => untilFailure javascriptFinding (entries (javascriptEntries p.stdout))
    | .go => (untilFailure goLine (goLines p.stdout)).flatten
    | .rust => untilFailure rustFinding (entries (rustEntries p.stdout))
    | .java => foundInReport report

theorem found_congr (hk : k ≠ .java) (p : ProcessScript) (r r' : Option (Except Failure String)) :
    k.found p r = k.found p r' := by
  cases k with
  | java => exact absurd rfl hk
  | _ => rfl

/-! ### Tools that print -/

/-- Run a tool and read what it prints; one that fails has printed nothing. -/
def reading (c : Command) (read : Finished → List Json) : Run (List Json) :=
  try
    let out ← Run.process c
    return read out
  catch _ => return []

theorem run_reading {c : Command} (hcheck : c.check = false) (read : Finished → List Json)
    (w : World) : (reading c read).run.run w =
      (.ok (if w.nextScript.fault.isSome then []
        else read ⟨w.nextScript.stdout, w.nextScript.stderr, w.nextScript.code⟩),
        w.afterCommand c) := by
  rw [reading, Run.run_bind, Run.run_tryCatch]
  cases hfault : w.nextScript.fault with
  | none =>
    rw [Run.run_bind_ok (Run.run_process hcheck hfault)]
    rfl
  | some fault =>
    rw [Run.run_bind_error (Run.run_process_error hfault)]
    rfl

/-! ### The tool that leaves a report -/

/-- What is taken from the place of the report, and that no other command is run. -/
theorem run_takeJavaReport (w : World) :
    ∃ w', Run.reported (fun _ => []) (takeJavaReport.run.run w) =
        (.ok (foundInReport (reportIn w.files)), w') ∧ w'.processes = w.processes ∧
      w'.closed = w.closed := by
  rw [takeJavaReport, Run.run_bind_ok Run.run_files, reportIn]
  by_cases hhas : w.files.has javaReportPath = true
  · rw [if_neg (by simp [hhas]), if_pos hhas]
    cases hread : w.files.readText javaReportPath with
    | error e =>
      have hfails : (Run.ofExcept (.error e : Except Failure String)).run.run w = (.error e, w) := rfl
      exact ⟨w, by rw [Run.run_bind_error hfails]; rfl, rfl, rfl⟩
    | ok text =>
      have htext : (Run.ofExcept (.ok text)).run.run w = (.ok text, w) := rfl
      obtain ⟨bytes, hbytes, -⟩ := Run.except_bind_eq_ok.1 hread
      have hunlink := Files.unlink_of_get? (Files.read_eq_ok hbytes).2
      rw [Run.run_bind_ok htext, hunlink]
      cases hentries : javaEntries text with
      | error e =>
        have hfails : (Run.ofExcept (.error e : Except Failure (List Json))).run.run w =
          (.error e, w) := rfl
        refine ⟨w, ?_, rfl, rfl⟩
        rw [Run.run_bind_error hfails, foundInReport, hentries]
        rfl
      | ok entries =>
        have hok : (Run.ofExcept (.ok entries)).run.run w = (.ok entries, w) := rfl
        rw [Run.run_bind_ok hok, foundInReport, hentries]
        dsimp only [ReportScan.entriesOutcome]
        -- a report that was read to its end is removed
        rcases javaDependencies entries with ⟨found, _ | _⟩
        · exact ⟨w, rfl, rfl, rfl⟩
        · exact ⟨_, rfl, rfl, rfl⟩
  · rw [if_pos (by simp [hhas]), if_neg hhas]
    exact ⟨w, rfl, rfl, rfl⟩

/-- **What a tool comes to decides what is found for its ecosystem**, and nothing it comes to is a
failure. One command is run, and only the last ecosystem removes a file. -/
theorem run_scan (k : Kind) (path : String) (w : World) :
    ∃ w', (k.scan path).run.run w =
        (.ok (k.found w.nextScript (reportIn (w.nextScript.writeTo w.files))), w') ∧
      w'.processes = w.processes.tail ∧ w'.closed = w.closed ∧
      (k ≠ .java → w'.files = w.nextScript.writeTo w.files) := by
  cases k with
  | python => exact ⟨_, run_reading rfl _ w, rfl, rfl, fun _ => rfl⟩
  | javascript => exact ⟨_, run_reading rfl _ w, rfl, rfl, fun _ => rfl⟩
  | go => exact ⟨_, run_reading rfl _ w, rfl, rfl, fun _ => rfl⟩
  | rust => exact ⟨_, run_reading rfl _ w, rfl, rfl, fun _ => rfl⟩
  | java =>
    have hrun : (scan .java path).run.run w = _ := ReportScan.run_eq (.dependencyCheck path) w
    cases hfault : w.nextScript.fault with
    | some fault =>
      rw [Run.run_bind_error (Run.run_process_error hfault)] at hrun
      refine ⟨w.afterCommand (javaCommand path), hrun.trans ?_, rfl, rfl, fun h => absurd rfl h⟩
      rw [found, hfault]
      rfl
    | none =>
      rw [Run.run_bind_ok (Run.run_process rfl hfault)] at hrun
      obtain ⟨w', htake, hleft, hclosed⟩ := run_takeJavaReport (w.afterCommand (javaCommand path))
      refine ⟨w', hrun.trans (htake.trans ?_), hleft, hclosed, fun h => absurd rfl h⟩
      rw [found, hfault]
      rfl

/-- The last ecosystem comes before no other. -/
theorem ne_java_of_split {done rest : List Kind} {j : Kind} (h : all = done ++ k :: j :: rest) :
    k ≠ .java := by
  have hpairs : ∀ k j : Kind, [k, j].Sublist all → k ≠ .java := by
    intro k j
    cases k <;> cases j <;> decide
  refine hpairs k j ?_
  rw [h]
  exact ((List.nil_sublist rest).cons_cons j |>.cons_cons k).trans (List.sublist_append_right _ _)

/-- The ecosystems before one are those that have had their turns. -/
theorem takeWhile_of_split {done rest : List Kind} (h : all = done ++ k :: rest) :
    all.takeWhile (· ≠ k) = done := by
  have hnodup : all.Nodup := by decide
  have hbefore : ∀ j ∈ done, decide (j ≠ k) = true := by
    rw [h, List.nodup_append] at hnodup
    intro j hj
    exact decide_eq_true (hnodup.2.2 j hj k List.mem_cons_self)
  rw [h, List.takeWhile_append_of_pos hbefore, List.takeWhile_cons_of_neg (by simp), List.append_nil]

end Kind

/-! ## All ecosystems -/

section Turns

variable (path : String) (outcomes : Kind → ProcessScript) (fs : Files)

/-- The files after the turns of some ecosystems, if each tool that is run comes to its outcome. -/
def filesAfter (ks : List Kind) : Files :=
  ks.foldl (fun fs k => if k.isUsed fs path then (outcomes k).writeTo fs else fs) fs

/-- The files when the turn of an ecosystem comes. -/
def filesAt (k : Kind) : Files :=
  filesAfter path outcomes fs (Kind.all.takeWhile (· ≠ k))

/-- Those of some ecosystems whose files are there when their turns come. -/
def present (ks : List Kind) : List Kind :=
  ks.filter fun k => k.isUsed (filesAt path outcomes fs k) path

/-- The report that is there when the tool that leaves one is done. -/
def report : Option (Except Failure String) :=
  reportIn ((outcomes .java).writeTo (filesAt path outcomes fs .java))

/-- What is found for an ecosystem. -/
def part (k : Kind) : List Json :=
  k.found (outcomes k) (report path outcomes fs)

/-- The world in which each tool that is run comes to its outcome. -/
def serving (w : World) : World :=
  { w with processes := (present path outcomes w.files Kind.all).map outcomes ++ w.processes }

/-- The first refusal to look for a file of some ecosystems when their turns come. -/
def refusal? (closed : List String) (ks : List Kind) : Option Failure :=
  ks.findSome? fun k =>
    match k.seen closed (filesAt path outcomes fs k) path with
    | .error e => some e
    | .ok _ => none

/-- What the turns of some ecosystems come to: a refusal, or the parts of those that are used. -/
def turns (closed : List String) (ks : List Kind) : Except Failure (List Json) :=
  match refusal? path outcomes fs closed ks with
  | some e => .error e
  | none => .ok ((present path outcomes fs ks).flatMap (part path outcomes fs))

/-- No tool whose ecosystem has others after it touches the files that show which are used. -/
def LeavesManifests : Prop :=
  ∀ k, k ≠ .java → ∀ fs (j : Kind), j.isUsed ((outcomes k).writeTo fs) path = j.isUsed fs path

end Turns

variable {path : String} {outcomes : Kind → ProcessScript} {fs : Files}

theorem filesAfter_concat (ks : List Kind) (k : Kind) : filesAfter path outcomes fs (ks ++ [k]) =
    if k.isUsed (filesAfter path outcomes fs ks) path then
      (outcomes k).writeTo (filesAfter path outcomes fs ks)
    else filesAfter path outcomes fs ks :=
  List.foldl_concat ..

/-! ### Turns -/

section Turn

variable {k : Kind} {ks : List Kind} {w w₁ w' : World} {found : List Json}
  {more : Except Failure (List Json)} {e : Failure}

theorem run_isUsed (k : Kind) (path : String) (w : World) :
    (k.ecosystem.isUsed path).run.run w = (k.seen w.closed w.files path, w) :=
  Run.run_ofExcept

/-- A refusal ends the scan. -/
theorem run_turn_of_refused (hseen : k.seen w.closed w.files path = .error e) :
    (scanEach path ((k :: ks).map Kind.ecosystem)).run.run w = (.error e, w) := by
  have hused := run_isUsed k path w
  rw [hseen] at hused
  rw [List.map_cons, scanEach, Run.run_bind_error hused]

/-- An ecosystem that is used is scanned, and then the others have their turns. -/
theorem run_turn_of_used (hseen : k.seen w.closed w.files path = .ok true)
    (hscan : (k.scan path).run.run w = (.ok found, w₁))
    (hrest : (scanEach path (ks.map Kind.ecosystem)).run.run w₁ = (more, w')) :
    (scanEach path ((k :: ks).map Kind.ecosystem)).run.run w = (more.map (found ++ ·), w') := by
  have hused := run_isUsed k path w
  rw [hseen] at hused
  rw [List.map_cons, scanEach, Run.run_bind_ok hused, if_pos rfl]
  refine (Run.run_bind_ok hscan).trans ?_
  rw [Run.run_bind, hrest]
  cases more <;> rfl

/-- Nothing happens in the turn of one that is not. -/
theorem run_turn_of_unused (hseen : k.seen w.closed w.files path = .ok false)
    (hrest : (scanEach path (ks.map Kind.ecosystem)).run.run w = (more, w')) :
    (scanEach path ((k :: ks).map Kind.ecosystem)).run.run w = (more, w') := by
  have hused := run_isUsed k path w
  rw [hseen] at hused
  rw [List.map_cons, scanEach, Run.run_bind_ok hused, if_neg Bool.false_ne_true]
  refine (Run.run_bind_ok Run.run_pure).trans ?_
  rw [Run.run_bind, hrest]
  cases more <;> rfl

/-- **Only a refusal to look for a file ends a scan.** -/
theorem exists_obstacle (h : (scanEach path (ks.map Kind.ecosystem)).run.run w = (.error e, w')) :
    ∃ k ∈ ks, ∃ s ∈ k.signs, ∃ fs : Files, fs.obstacle? w.closed (Path.below path s) = some e := by
  induction ks generalizing w with
  | nil => cases h
  | cons k ks ih =>
    cases hseen : k.seen w.closed w.files path with
    | error e' =>
      rw [run_turn_of_refused hseen] at h
      obtain rfl := Except.error.inj (Prod.mk.inj h).1
      obtain ⟨s, hs, hobstacle⟩ := looksAny_eq_error hseen
      exact ⟨k, List.mem_cons_self, s, hs, w.files, hobstacle⟩
    | ok used =>
      -- the tool of this ecosystem does not fail, so it is one of the others
      have hlater : ∃ w₁ : World, w₁.closed = w.closed ∧
          (scanEach path (ks.map Kind.ecosystem)).run.run w₁ = (.error e, w') := by
        cases used with
        | true =>
          obtain ⟨w₁, hscan, -, hclosed, -⟩ := k.run_scan path w
          refine ⟨w₁, hclosed, ?_⟩
          rcases hrest : (scanEach path (ks.map Kind.ecosystem)).run.run w₁ with ⟨_ | more, w₂⟩
          · rw [run_turn_of_used hseen hscan hrest] at h
            exact h
          · rw [run_turn_of_used hseen hscan hrest] at h
            cases (Prod.mk.inj h).1
        | false =>
          refine ⟨w, rfl, ?_⟩
          rcases hrest : (scanEach path (ks.map Kind.ecosystem)).run.run w with ⟨more, w₂⟩
          rw [run_turn_of_unused hseen hrest] at h
          exact h
      obtain ⟨w₁, hclosed, hlater⟩ := hlater
      obtain ⟨j, hj, s, hs, fs, hobstacle⟩ := ih hlater
      exact ⟨j, List.mem_cons_of_mem k hj, s, hs, fs, hclosed ▸ hobstacle⟩

end Turn

/-- Where every file can be looked up, none is refused. -/
theorem refusal?_of_allOpen {closed : List String} (h : Kind.AllOpen closed path) (ks : List Kind) :
    refusal? path outcomes fs closed ks = none := by
  rw [refusal?, List.findSome?_eq_none_iff]
  intro k _
  cases hseen : k.seen closed (filesAt path outcomes fs k) path with
  | ok used => rfl
  | error e =>
    obtain ⟨s, hs, hobstacle⟩ := looksAny_eq_error hseen
    rw [Files.obstacle?_of_isOpen (h k s hs)] at hobstacle
    cases hobstacle

/-- **The turns from some ecosystem on**, where the turns before have left the files and the script
as their outcomes say. -/
theorem run_scanEach {done rest : List Kind} (hsplit : Kind.all = done ++ rest) {w : World}
    {more : List ProcessScript} (hfiles : rest ≠ [] → w.files = filesAfter path outcomes fs done)
    (hscripts : w.processes = (present path outcomes fs rest).map outcomes ++ more) :
    ∃ w', (scanEach path (rest.map Kind.ecosystem)).run.run w =
      (turns path outcomes fs w.closed rest, w') := by
  induction rest generalizing done w with
  | nil => exact ⟨w, rfl⟩
  | cons k rest ih =>
    have hhere : w.files = filesAfter path outcomes fs done := hfiles (List.cons_ne_nil _ _)
    have hat : filesAt path outcomes fs k = w.files := by
      rw [filesAt, Kind.takeWhile_of_split hsplit, hhere]
    have hnext : Kind.all = (done ++ [k]) ++ rest := by simp [hsplit]
    cases hseen : k.seen w.closed w.files path with
    | error e =>
      have hrefused : refusal? path outcomes fs w.closed (k :: rest) = some e := by
        rw [refusal?, List.findSome?_cons, hat, hseen]
      exact ⟨w, by rw [run_turn_of_refused hseen, turns, hrefused]⟩
    | ok used =>
      have hallowed : refusal? path outcomes fs w.closed (k :: rest) =
          refusal? path outcomes fs w.closed rest := by
        rw [refusal?, List.findSome?_cons, hat, hseen, ← refusal?]
      have hused : k.isUsed w.files path = used := (looksAny_eq_ok hseen).symm
      cases used with
      | true =>
        have hkept : present path outcomes fs (k :: rest) = k :: present path outcomes fs rest :=
          List.filter_cons_of_pos (by rw [hat]; exact hused)
        rw [hkept, List.map_cons, List.cons_append] at hscripts
        have houtcome : w.nextScript = outcomes k := by
          rw [World.nextScript, hscripts, List.headD_cons]
        obtain ⟨w₁, hscan, hleft, hclosed, hwritten⟩ := k.run_scan path w
        -- only the last ecosystem reads the report, and it has been told which one is there
        have hpart : k.found w.nextScript (reportIn (w.nextScript.writeTo w.files)) =
            part path outcomes fs k := by
          rw [part, houtcome]
          by_cases hjava : k = .java
          · subst hjava
            rw [report, hat]
          · exact Kind.found_congr hjava _ _ _
        have hfiles₁ : rest ≠ [] → w₁.files = filesAfter path outcomes fs (done ++ [k]) := by
          intro hne
          obtain ⟨j, rest', rfl⟩ := List.exists_cons_of_ne_nil hne
          rw [filesAfter_concat, ← hhere, if_pos hused, hwritten (Kind.ne_java_of_split hsplit),
            houtcome]
        have hscripts₁ : w₁.processes = (present path outcomes fs rest).map outcomes ++ more := by
          rw [hleft, hscripts, List.tail_cons]
        obtain ⟨w', hrest⟩ := ih hnext hfiles₁ hscripts₁
        rw [hclosed] at hrest
        refine ⟨w', ?_⟩
        rw [run_turn_of_used hseen hscan hrest, turns, turns, hallowed, hkept, hpart]
        cases refusal? path outcomes fs w.closed rest <;> rfl
      | false =>
        have hkept : present path outcomes fs (k :: rest) = present path outcomes fs rest :=
          List.filter_cons_of_neg (by rw [hat, hused]; exact Bool.false_ne_true)
        rw [hkept] at hscripts
        have hfiles₁ : rest ≠ [] → w.files = filesAfter path outcomes fs (done ++ [k]) := by
          intro _
          rw [filesAfter_concat, ← hhere, hused, if_neg Bool.false_ne_true]
        obtain ⟨w', hrest⟩ := ih hnext hfiles₁ hscripts
        exact ⟨w', by rw [run_turn_of_unused hseen hrest, turns, turns, hallowed, hkept]⟩

/-- **A scan comes to what the turns of all ecosystems come to.** -/
theorem run_scan_serving (path : String) (outcomes : Kind → ProcessScript) (w : World) :
    ∃ w', (scanEach path ecosystems).run.run (serving path outcomes w) =
      (turns path outcomes w.files w.closed Kind.all, w') := by
  have hfiles : (serving path outcomes w).files = filesAfter path outcomes w.files [] := by
    rw [serving, filesAfter, List.foldl_nil]
  have hscripts : (serving path outcomes w).processes =
      (present path outcomes w.files Kind.all).map outcomes ++ w.processes := by
    rw [serving]
  have hclosed : (serving path outcomes w).closed = w.closed := by
    rw [serving]
  rw [← Kind.map_ecosystem_all, ← hclosed]
  exact run_scanEach (List.nil_append Kind.all).symm (fun _ => hfiles) hscripts

/-- **Which ecosystems are used is decided by the project**, if no tool touches what decides it. -/
theorem present_eq_filter (h : LeavesManifests path outcomes) :
    present path outcomes fs Kind.all = Kind.all.filter fun k => k.isUsed fs path := by
  have hkept : ∀ (ks : List Kind) (fs : Files), (∀ j ∈ ks, j ≠ .java) → ∀ k : Kind,
      k.isUsed (filesAfter path outcomes fs ks) path = k.isUsed fs path := by
    intro ks
    induction ks with
    | nil => exact fun fs _ k => rfl
    | cons j ks ih =>
      intro fs hks k
      obtain ⟨hj, hks⟩ := List.forall_mem_cons.1 hks
      rw [filesAfter, List.foldl_cons, ← filesAfter, ih _ hks]
      split
      · exact h j hj fs k
      · rfl
  have hbefore : ∀ k j : Kind, j ∈ Kind.all.takeWhile (· ≠ k) → j ≠ .java := by
    intro k j
    cases k <;> cases j <;> decide
  refine List.filter_congr fun k _ => ?_
  exact hkept _ fs (hbefore k) k

/-- **Ecosystems are scanned apart.** A scan fails only if the system refuses to look for one of the
files that show an ecosystem; where all of them can be looked up it never does. In the world in which
each tool comes to its outcome, it comes to the first refusal, or else to the parts of the ecosystems
whose files are there when their turns come, in their order; and the part of an ecosystem is what its
scan alone finds in any world in which its tool comes to the same outcome and, for the one that leaves
a report, to the same report. If no tool touches the files that show the ecosystems, those that are
scanned are those of the project. -/
theorem ecosystems_scanned_apart (path : String) (outcomes : Kind → ProcessScript) (w : World) :
    (∀ e w', (scan path).run.run w = (.error e, w') → ∃ k : Kind, ∃ s ∈ k.signs, ∃ fs : Files,
      fs.obstacle? w.closed (Path.below (Path.normal path) s) = some e) ∧
    (Kind.AllOpen w.closed (Path.normal path) →
      (∃ found w', (scan path).run.run w = (.ok found, w')) ∧
      turns (Path.normal path) outcomes w.files w.closed Kind.all =
        .ok ((present (Path.normal path) outcomes w.files Kind.all).flatMap
          (part (Path.normal path) outcomes w.files))) ∧
    (∃ w', (scan path).run.run (serving (Path.normal path) outcomes w) =
      (turns (Path.normal path) outcomes w.files w.closed Kind.all, w')) ∧
    (∀ (k : Kind) (v : World), v.nextScript = outcomes k →
      (k = .java → reportIn (v.nextScript.writeTo v.files) =
        report (Path.normal path) outcomes w.files) →
      ∃ v', (k.scan (Path.normal path)).run.run v =
        (.ok (part (Path.normal path) outcomes w.files k), v')) ∧
    (LeavesManifests (Path.normal path) outcomes → present (Path.normal path) outcomes w.files Kind.all =
      Kind.all.filter fun k => k.isUsed w.files (Path.normal path)) := by
  have hobstacle {e : Failure} {w' : World} (h : (scan path).run.run w = (.error e, w')) :
      ∃ k : Kind, ∃ s ∈ k.signs, ∃ fs : Files,
        fs.obstacle? w.closed (Path.below (Path.normal path) s) = some e := by
    rw [scan, ← Kind.map_ecosystem_all] at h
    obtain ⟨k, -, s, hs, hfs⟩ := exists_obstacle h
    exact ⟨k, s, hs, hfs⟩
  refine ⟨fun e w' => hobstacle, fun hopen => ⟨?_, ?_⟩, ?_, ?_, present_eq_filter⟩
  · rcases hrun : (scan path).run.run w with ⟨e | found, w'⟩
    · obtain ⟨k, s, hs, fs, hrefused⟩ := hobstacle hrun
      rw [Files.obstacle?_of_isOpen (hopen k s hs)] at hrefused
      cases hrefused
    · exact ⟨found, w', rfl⟩
  · rw [turns, refusal?_of_allOpen hopen]
  · exact run_scan_serving (Path.normal path) outcomes w
  · intro k v houtcome hreport
    obtain ⟨v', hscan, -, -⟩ := k.run_scan (Path.normal path) v
    refine ⟨v', hscan.trans ?_⟩
    rw [part, houtcome]
    by_cases hjava : k = .java
    · rw [← hreport hjava, houtcome]
    · rw [Kind.found_congr hjava]

/-- A project with the files of two ecosystems. -/
def twoManifests : World where
  files := { entries := [("p/package.json", []), ("p/pom.xml", [])] }

/-- The tool of the first is stopped, and that of the second reports one vulnerability. -/
def twoTools : Kind → ProcessScript
  | .javascript => { fault := some .timeout }
  | .java => { writes := [(javaReportPath, (ReportScan.dependencyCheck "p").dirtyReport)] }
  | _ => {}

/-- **What happens to one tool does not touch the other**: its vulnerability is found. -/
theorem ecosystems_scanned_apart_after_timeout :
    Kind.AllOpen [] "p" ∧ LeavesManifests "p" twoTools ∧
    present "p" twoTools twoManifests.files Kind.all = [.javascript, .java] ∧
    ∃ found w', (scan "p").run.run (serving "p" twoTools twoManifests) = (.ok found, w') ∧
      found.length = 1 := by
  have hnormal : Path.normal "p" = "p" := by decide
  have hopen : Kind.AllOpen [] "p" := by
    intro k
    cases k <;> decide +kernel
  have hquiet : LeavesManifests "p" twoTools := by
    intro k hk fs j
    cases k with
    | java => exact absurd rfl hk
    | _ => rfl
  obtain ⟨-, hturns, ⟨w', hrun⟩, -, hpresent⟩ := ecosystems_scanned_apart "p" twoTools twoManifests
  rw [hnormal] at hturns hrun hpresent
  rw [(hturns hopen).2] at hrun
  refine ⟨hopen, hquiet, (hpresent hquiet).trans (by decide +kernel), _, w', hrun, by decide +kernel⟩

/-! ## A path that is too long -/

/-- A way into a directory that leaves it and enters it again so many times. -/
def roundabout : ℕ → List String
  | 0 => ["p"]
  | n + 1 => "p" :: ".." :: roundabout n

theorem isComponent_roundabout (n : ℕ) : ∀ c ∈ roundabout n, Path.IsComponent c := by
  have hdir : Path.IsComponent "p" := by unfold Path.IsComponent; decide
  have hback : Path.IsComponent ".." := by unfold Path.IsComponent; decide
  induction n with
  | zero => exact List.forall_mem_singleton.2 hdir
  | succ n ih => exact List.forall_mem_cons.2 ⟨hdir, List.forall_mem_cons.2 ⟨hback, ih⟩⟩

/-- However often it is left, the way leads into the directory. -/
theorem key_roundabout (n : ℕ) : Files.key (Path.build "" (roundabout n)) = "p" := by
  have hway : (roundabout n).foldl Files.enter [] = ["p"] := by
    induction n with
    | zero => rfl
    | succ n ih => exact ih
  rw [Files.key_build (Or.inl rfl) (isComponent_roundabout n), hway]
  rfl

/-- The size grows with every round. -/
theorem utf8ByteSize_roundabout (n : ℕ) (s : String) :
    (Text.joinWith "/" (roundabout n ++ [s])).utf8ByteSize =
      5 * n + (Text.joinWith "/" ["p", s]).utf8ByteSize := by
  induction n with
  | zero => simp [roundabout]
  | succ n ih =>
    have hround : Text.joinWith "/" (roundabout (n + 1) ++ [s]) =
        "p/../" ++ Text.joinWith "/" (roundabout n ++ [s]) := by
      obtain ⟨c, cs, hcs⟩ : ∃ c cs, roundabout n ++ [s] = c :: cs := by
        cases n <;> exact ⟨_, _, rfl⟩
      rw [roundabout, List.cons_append, List.cons_append, hcs, Text.joinWith, Text.joinWith,
        ← String.append_assoc]
      · rfl
      · simp
      · simp
    rw [hround, String.utf8ByteSize_append, ih]
    have hsize : "p/../".utf8ByteSize = 5 := by decide
    omega

/-- A Go project. -/
def goProject : World where
  files := { entries := [("p/go.mod", [])] }
  processes := [{}]

/-- A path to its directory, nearly as long as a path may be. -/
def farProject : String :=
  Path.build "" (roundabout 817)

/-- **A project can be too far away.** The path leads to its directory, but that of a file that is
looked for in it is too long. -/
theorem far_project_not_scanned :
    Files.key farProject = "p" ∧ goProject.files.hasDir "p" = true ∧
      (scan farProject).run.run goProject =
        (.error (.nameTooLong (Path.below farProject "requirements.txt")), goProject) := by
  refine ⟨key_roundabout 817, by decide +kernel, ?_⟩
  have hroot : Path.rootOf farProject = "" :=
    Path.rootOf_build (Or.inl rfl) (isComponent_roundabout 817)
  have hway : Path.components farProject = roundabout 817 :=
    Path.components_build (Or.inl rfl) (isComponent_roundabout 817)
  have hnormal : Path.normal farProject = farProject := by
    rw [Path.normal, hroot, hway, farProject]
  have hsign : Path.components "requirements.txt" = ["requirements.txt"] := by decide +kernel
  have hrelative : Text.startsWith "requirements.txt" "/" = false := by decide +kernel
  have hlong : Files.pathLimit ≤ (Path.below farProject "requirements.txt").utf8ByteSize := by
    rw [Path.below, if_neg (by simp [hrelative]), hroot, hway, hsign, Path.build, if_neg (by simp),
      String.empty_append, utf8ByteSize_roundabout]
    decide +kernel
  have hseen : Kind.python.seen goProject.closed goProject.files farProject =
      .error (.nameTooLong (Path.below farProject "requirements.txt")) := by
    rw [Kind.seen, Kind.signs, Kind.ecosystem, looksAny, Files.look, Files.obstacle?_of_long hlong]
    rfl
  rw [scan, hnormal, ← Kind.map_ecosystem_all]
  exact run_turn_of_refused hseen

end SecureReview.Scan.Dependencies
