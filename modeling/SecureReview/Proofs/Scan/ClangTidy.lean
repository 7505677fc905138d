import SecureReview.Proofs.Scan.Reports
import SecureReview.Scan.Cpp
/-!
# A second tool that may be missing

C and C++ code is looked at by two tools. The first always reports, if only
its own trouble (`exists_scan`). The second is asked for its version,
and if it is there it is run on one file after the other, up to the first
run that fails: **what it finds is what the runs before that one found**
(`exists_scanFiles`). Its runs are guarded against every trouble, and so is
the question for the version, but for troubles other than a missing tool
and a bad exit code: those **take the findings of the first tool with
them**.
-/

namespace SecureReview.Scan

variable {w : World} {path file : String} {files : List String}

/-! ## The first tool -/

theorem keeps_takeReport (p : String) (read : String → Except Failure (List Json)) :
    Run.Keeps World.processes (takeReport p read) := by
  unfold takeReport
  refine Run.keeps_files.bind fun fs => ?_
  split
  · exact Run.keeps_pure _
  · refine (Run.keeps_ofExcept _).bind fun text => (Run.keeps_ofExcept _).bind fun found => ?_
    exact (Run.keeps_ofExcept _).bind fun fs' => Run.Keeps.bind (fun _ => rfl) fun _ => Run.keeps_pure _

/-- **The first tool always reports**, and uses up one item of the script. -/
theorem Cppcheck.exists_scan (path : String) (w : World) :
    ∃ found w₁, (scan path).run.run w = (.ok found, w₁) ∧ w₁.processes = w.processes.tail := by
  have hrun : (scan path).run.run w = _ := ReportScan.run_eq (.cppcheck path) w
  have hkept : ((Run.process (ReportScan.cppcheck path).command >>= fun _ =>
      (ReportScan.cppcheck path).take).run.run w).2.processes = w.processes.tail := by
    rw [Run.run_bind, Run.run_process_eq]
    cases w.nextScript.result (ReportScan.cppcheck path).command with
    | error e => rfl
    | ok out => exact keeps_takeReport _ _ _
  rw [hrun]
  generalize (Run.process (ReportScan.cppcheck path).command >>= fun _ =>
    (ReportScan.cppcheck path).take).run.run w = outcome at hkept
  rcases outcome with ⟨e | found, w₁⟩
  · exact ⟨_, w₁, rfl, hkept⟩
  · exact ⟨found, w₁, rfl, hkept⟩

namespace ClangTidy

/-! ## The question for the version -/

/-- The command that asks for the version. -/
def probe : Command :=
  { words := ["clang-tidy", "--version"], check := true }

/-- What the question comes to: whether the tool is there, or a failure. -/
def answer (p : ProcessScript) : Except Failure Bool :=
  match p.fault with
  | none => .ok (p.code == 0)
  | some .missing => .ok false
  | some fault => .error (fault.failure probe)

/-- The exit code of a tool that is there counts, and a tool that cannot be found is no failure. -/
theorem run_isAvailable (w : World) :
    isAvailable.run.run w = (answer w.nextScript, w.afterCommand probe) := by
  have hprobe : (Run.process { words := ["clang-tidy", "--version"], check := true }).run.run w =
    (w.nextScript.result probe, w.afterCommand probe) := Run.run_process_eq probe w
  rw [isAvailable, Run.run_bind, Run.run_tryCatch]
  cases hfault : w.nextScript.fault with
  | none =>
    by_cases hcode : w.nextScript.code = 0
    · have hresult : w.nextScript.result probe =
          .ok ⟨w.nextScript.stdout, w.nextScript.stderr, w.nextScript.code⟩ := by
        rw [ProcessScript.result, hfault, hcode]
        rfl
      rw [hresult] at hprobe
      rw [Run.run_bind_ok hprobe, answer, hfault, hcode]
      rfl
    · have hresult : w.nextScript.result probe = .error (.exited probe.words w.nextScript.code) := by
        simp [ProcessScript.result, hfault, hcode, probe]
      rw [hresult] at hprobe
      rw [Run.run_bind_error hprobe, answer, hfault, beq_false_of_ne hcode]
      rfl
  | some fault =>
    rw [ProcessScript.result, hfault] at hprobe
    rw [Run.run_bind_error hprobe, answer, hfault]
    cases fault <;> rfl

/-! ## Runs on files -/

/-- The runs before the first one that fails, each with its file. -/
def completed (files : List String) (ps : List ProcessScript) : List (String × ProcessScript) :=
  (files.zip ps).takeWhile fun run => run.2.fault.isNone

/-- What some runs found. -/
def foundIn (runs : List (String × ProcessScript)) : List Json :=
  runs.flatMap fun run => read run.2.stdout run.1

/-- The command for a file. -/
def tidy (file : String) : Command :=
  { words := command file, timeout := some 30 }

/-- A run that fails ends the scan. -/
theorem run_scanFiles_fault {fault : ProcessFault} (hfault : w.nextScript.fault = some fault) :
    (scanFiles (file :: files)).run.run w = (.ok [], w.afterCommand (tidy file)) := by
  have hrun : (Run.process { words := command file, timeout := some 30 }).run.run w =
    (.error (fault.failure (tidy file)), w.afterCommand (tidy file)) := Run.run_process_error hfault
  rw [scanFiles, Run.run_bind, Run.run_tryCatch, Run.run_bind_error hrun]
  rfl

/-- After a run that does not, the next file has its turn. -/
theorem run_scanFiles_next (hfault : w.nextScript.fault = none) {found : List Json} {w' : World}
    (hrest : (scanFiles files).run.run (w.afterCommand (tidy file)) = (.ok found, w')) :
    (scanFiles (file :: files)).run.run w = (.ok (read w.nextScript.stdout file ++ found), w') := by
  have hrun : (Run.process { words := command file, timeout := some 30 }).run.run w =
      (.ok ⟨w.nextScript.stdout, w.nextScript.stderr, w.nextScript.code⟩,
        w.afterCommand (tidy file)) := Run.run_process rfl hfault
  rw [scanFiles, Run.run_bind, Run.run_tryCatch, Run.run_bind_ok hrun]
  exact Run.run_bind_ok hrest

/-- **The second tool finds what its runs found before the first that failed.** -/
theorem exists_scanFiles (files : List String) (w : World) :
    ∃ w', (scanFiles files).run.run w = (.ok (foundIn (completed files w.processes)), w') := by
  -- each run takes the next item of the script, so files and items go together
  induction files generalizing w with
  | nil => exact ⟨w, rfl⟩
  | cons file files ih =>
    cases hfault : w.nextScript.fault with
    | some fault =>
      have hnone : completed (file :: files) w.processes = [] := by
        unfold World.nextScript at hfault
        cases hps : w.processes with
        | nil => rfl
        | cons p ps =>
          rw [hps, List.headD_cons] at hfault
          rw [completed, List.zip_cons_cons, List.takeWhile_cons_of_neg (by simp [hfault])]
      exact ⟨_, by rw [hnone]; exact run_scanFiles_fault hfault⟩
    | none =>
      obtain ⟨w', hrest⟩ := ih (w.afterCommand (tidy file))
      have hnext : completed (file :: files) w.processes =
          (file, w.nextScript) :: completed files w.processes.tail := by
        unfold World.nextScript at hfault ⊢
        cases hps : w.processes with
        | nil =>
          rw [hps] at hfault
          cases hfault
        | cons p ps =>
          rw [hps, List.headD_cons] at hfault
          rw [completed, List.zip_cons_cons, List.takeWhile_cons_of_pos (by simp [hfault])]
          rfl
      refine ⟨w', ?_⟩
      rw [hnext, run_scanFiles_next hfault hrest]
      rfl

end ClangTidy

/-! ## Both tools -/

namespace Cpp

open ClangTidy (probe answer targets completed foundIn)

/-- The question for the version is answered: the tool exits in some way, or it cannot be found. -/
def IsAnswered (p : ProcessScript) : Prop :=
  p.fault = none ∨ p.fault = some .missing

/-- What the second tool adds in the world that the first one left: nothing, unless it is there. -/
def added (path : String) (w : World) : List Json :=
  if w.nextScript.fault.isNone && w.nextScript.code == 0 then
    foundIn (completed (targets (w.afterCommand probe).files path) w.processes.tail)
  else []

/-- **The first tool's findings come first**, and what the second adds comes after them. -/
theorem run_scan_of_answered {found : List Json} {w₁ : World}
    (hfirst : (Cppcheck.scan (Path.normal path)).run.run w = (.ok found, w₁))
    (hanswered : IsAnswered w₁.nextScript) :
    ((scan path).run.run w).1 = .ok (found ++ added (Path.normal path) w₁) := by
  have hprobe := ClangTidy.run_isAvailable w₁
  rw [scan, Run.run_bind_ok hfirst]
  rcases hanswered with hfault | hfault
  · rw [answer, hfault] at hprobe
    rw [Run.run_bind_ok hprobe, added, hfault, Option.isNone_none, Bool.true_and]
    cases hcode : w₁.nextScript.code == 0 with
    | false => rw [if_neg Bool.false_ne_true, if_neg Bool.false_ne_true, List.append_nil, Run.run_pure]
    | true =>
      obtain ⟨w', hruns⟩ := ClangTidy.exists_scanFiles
        (targets (w₁.afterCommand probe).files (Path.normal path)) (w₁.afterCommand probe)
      have hscan : (ClangTidy.scan (Path.normal path)).run.run (w₁.afterCommand probe) = _ :=
        (Run.run_bind_ok Run.run_files).trans hruns
      rw [if_pos rfl, if_pos rfl, Run.run_bind_ok hscan]
      rfl
  · rw [answer, hfault] at hprobe
    rw [Run.run_bind_ok hprobe, added, hfault, Option.isNone_some, Bool.false_and,
      if_neg Bool.false_ne_true, if_neg Bool.false_ne_true, List.append_nil, Run.run_pure]

/-- **Any other trouble is one of the whole scan.** -/
theorem run_scan_of_unanswered {found : List Json} {w₁ : World} {fault : ProcessFault}
    (hfirst : (Cppcheck.scan (Path.normal path)).run.run w = (.ok found, w₁))
    (hfault : w₁.nextScript.fault = some fault) (hother : fault ≠ .missing) :
    ((scan path).run.run w).1 = .error (fault.failure probe) := by
  have hprobe := ClangTidy.run_isAvailable w₁
  have hanswer : answer w₁.nextScript = .error (fault.failure probe) := by
    rw [answer, hfault]
    cases fault with
    | missing => exact absurd rfl hother
    | timeout => rfl
    | other text => rfl
  rw [hanswer] at hprobe
  rw [scan, Run.run_bind_ok hfirst, Run.run_bind_error hprobe]

/-- The first tool reports an error, and the second cannot be run. -/
def lockedTool : World where
  processes := [
    { writes := [(Cppcheck.reportPath, "<results><error id=\"nullPointer\"/></results>")] },
    { fault := some (.other "Permission denied") }]

end Cpp

end SecureReview.Scan
