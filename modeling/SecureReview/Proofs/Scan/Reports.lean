import Mathlib.Data.List.Induction
import SecureReview.Proofs.Scan.Vulnerabilities
import SecureReview.Proofs.World.Files
import SecureReview.Scan.Cpp
import SecureReview.Scan.Spotbugs
/-!
# Reports in fixed files

Three tools write their reports to fixed files, and a report is removed once
it has been read to its end. A tool that fails, or a report that cannot be
read to its end, leaves the report for the next scan; and a tool that writes
no report of its own leaves the scan with **the report of an earlier one**.
The run of such a scan is decided by the report that is there when the tool
is done (`run_of_report`): what the tool wrote, or else what was there before.
-/

namespace SecureReview

/-! ## What a file holds after a command -/

/-- The text that a command wrote last to the file with a normal path. -/
def ProcessScript.written (p : ProcessScript) (k : String) : Option String :=
  (p.writes.reverse.find? fun e => Files.key e.1 == k).map (·.2)

/-- **A file holds what the command wrote**, or else what it held before. -/
theorem ProcessScript.lookup_writeTo (p : ProcessScript) (fs : Files) (k : String) :
    (p.writeTo fs).entries.lookup k =
      ((p.written k).map Text.encodeUtf8).or (fs.entries.lookup k) := by
  rw [writeTo, written]
  generalize p.writes = writes
  induction writes using List.reverseRecOn with
  | nil => rfl
  | append_singleton writes e ih =>
    rw [List.foldl_concat, List.reverse_concat, List.find?_cons]
    by_cases hkey : k = Files.key e.1
    · rw [hkey, Files.lookup_put_self]
      simp
    · have hne : (Files.key e.1 == k) = false := by simpa using Ne.symm hkey
      rw [Files.lookup_put_of_ne hkey, ih, hne]

/-- The world in which a file holds a text, or is not there. -/
def World.holding (w : World) (path : String) : Option String → World
  | some text => { w with files := w.files.put path (Text.encodeUtf8 text) }
  | none => { w with files := w.files.remove path }

namespace World

variable {w : World} {path : String}

@[simp] theorem nextScript_holding (w : World) (path : String) (held : Option String) :
    (w.holding path held).nextScript = w.nextScript := by
  cases held <;> rfl

theorem get?_holding (w : World) (path : String) (held : Option String) :
    (w.holding path held).files.get? path = held.map Text.encodeUtf8 := by
  cases held with
  | none => exact Files.get?_remove_self w.files path
  | some text => exact Files.get?_put_self w.files path _

theorem lookup_holding {k : String} (h : k ≠ Files.key path) (w : World) (held : Option String) :
    (w.holding path held).files.entries.lookup k = w.files.entries.lookup k := by
  cases held with
  | none => exact Files.lookup_remove_of_ne h w.files
  | some text => exact Files.lookup_put_of_ne h w.files _

theorem get?_afterCommand (w : World) (c : Command) (path : String) :
    (w.afterCommand c).files.get? path =
      ((w.nextScript.written (Files.key path)).map Text.encodeUtf8).or (w.files.get? path) :=
  w.nextScript.lookup_writeTo w.files (Files.key path)

end World

namespace Scan

/-- A scan by a tool that writes its report to a fixed file. -/
inductive ReportScan where
  | cppcheck (path : String)
  | spotbugs (classes : List String)
  | dependencyCheck (path : String)

namespace ReportScan

/-- The operation that scans. -/
def run : ReportScan → Run (List Json)
  | .cppcheck path => Cppcheck.scan path
  | .spotbugs classes => Spotbugs.scanClasses classes
  | .dependencyCheck path => Dependencies.java path

/-- Where the report is written. -/
def reportPath : ReportScan → String
  | .cppcheck _ => Cppcheck.reportPath
  | .spotbugs _ => Spotbugs.reportPath
  | .dependencyCheck _ => Dependencies.javaReportPath

/-- The command of the tool. -/
def command : ReportScan → Command
  | .cppcheck path => { words := Cppcheck.command path, timeout := some 120 }
  | .spotbugs classes => { words := Spotbugs.command classes, timeout := some 120 }
  | .dependencyCheck path => Dependencies.javaCommand path

/-- Read the report that the tool may have left. -/
def take : ReportScan → Run (List Json)
  | .cppcheck _ => takeReport Cppcheck.reportPath Cppcheck.read
  | .spotbugs _ => takeReport Spotbugs.reportPath Spotbugs.read
  | .dependencyCheck _ => Dependencies.takeJavaReport

/-- What is found when something fails: a trouble, or nothing. -/
def onFailure : ReportScan → Failure → List Json
  | .cppcheck path, .timedOut .. =>
    [trouble path "TIMEOUT" "Cppcheck scan timeout exceeded" "cppcheck"]
  | .cppcheck path, e => [trouble path "SCAN_ERROR" s!"Cppcheck scan error: {e.message}" "cppcheck"]
  | .spotbugs classes, .timedOut .. =>
    [trouble (classes.headD "unknown") "TIMEOUT" "SpotBugs scan timeout exceeded" "spotbugs"]
  | .spotbugs classes, e =>
    [trouble (classes.headD "unknown") "SCAN_ERROR" s!"SpotBugs scan error: {e.message}" "spotbugs"]
  | .dependencyCheck _, _ => []

/-- What is found by a reading, and whether it came to its end. -/
def readOutcome (onFailure : Failure → List Json) : Except Failure (List Json) → List Json × Bool
  | .ok found => (found, true)
  | .error e => (onFailure e, false)

/-- The same of the entries of a report of dependencies. -/
def entriesOutcome : Except Failure (List Json) → List Json × Bool
  | .ok entries => Dependencies.javaDependencies entries
  | .error _ => ([], false)

/-- What is found in a report, and whether it was read to its end. -/
def outcome : ReportScan → String → List Json × Bool
  | .cppcheck path, text => readOutcome (onFailure (.cppcheck path)) (Cppcheck.read text)
  | .spotbugs classes, text => readOutcome (onFailure (.spotbugs classes)) (Spotbugs.read text)
  | .dependencyCheck _, text => entriesOutcome (Dependencies.javaEntries (Text.asRead text))

variable {r : ReportScan} {w : World}

theorem check_command (r : ReportScan) : r.command.check = false := by
  cases r <;> rfl

/-! ## The place of a report -/

/-- A place for a report: a file right below the directory of reports. -/
structure IsPlace (p : String) : Prop where
  key : Files.key p = p
  name : p ≠ "" ∧ Char.ofNat 0 ∉ p.toList
  parts : Path.rootOf p = "/" ∧ (Path.components p).take 1 = ["tmp"] ∧
    (Path.components p).length = 2
  forward : ".." ∉ Path.components p
  plain : Text.endsWith p "/" = false
  apart : Files.key "/" ≠ Files.key p ∧ Files.key "/tmp" ≠ Files.key p

theorem isPlace_reportPath (r : ReportScan) : IsPlace r.reportPath := by
  cases r with
  | cppcheck path =>
    show IsPlace Cppcheck.reportPath
    exact ⟨by decide, by decide, by decide, by decide, by decide, by decide⟩
  | spotbugs classes =>
    show IsPlace Spotbugs.reportPath
    exact ⟨by decide, by decide, by decide, by decide, by decide, by decide⟩
  | dependencyCheck path =>
    show IsPlace Dependencies.javaReportPath
    exact ⟨by decide, by decide, by decide, by decide, by decide, by decide⟩

/-- Only the root and the directory of reports can be in the way. -/
theorem IsPlace.isBlocked_eq {p : String} (h : IsPlace p) (fs : Files) :
    fs.isBlocked p = (fs.isFile "/" || fs.isFile "/tmp") := by
  obtain ⟨hroot, htmp, hlength⟩ := h.parts
  have hdirectories : (List.range 2).map (fun n => Path.build "/" ((Path.components p).take n)) =
      ["/", "/tmp"] := by
    simp only [List.range_succ, List.range_zero, List.nil_append, List.map_append, List.map_cons,
      List.map_nil, List.take_zero, htmp]
    decide
  have hany : (List.range 2).any (fun n => fs.isFile (Path.build "/" ((Path.components p).take n))) =
      (((List.range 2).map fun n => Path.build "/" ((Path.components p).take n)).any fs.isFile) := by
    rw [List.any_map]
    rfl
  rw [Files.isBlocked, h.plain, hroot, hlength, Bool.false_and, Bool.or_false, hany, hdirectories]
  simp

/-! ## Taking a report -/

/-- **A scan runs its tool and takes the report**, and tells of a failure. -/
theorem run_eq (r : ReportScan) (w : World) : r.run.run.run w =
    Run.reported r.onFailure ((Run.process r.command >>= fun _ => r.take).run.run w) := by
  cases r with
  | cppcheck path =>
    refine Run.run_try_report (fun e => ?_) w
    cases e <;> rfl
  | spotbugs classes =>
    refine Run.run_try_report (fun e => ?_) w
    cases e <;> rfl
  | dependencyCheck path =>
    refine Run.run_try_report (fun e => ?_) w
    cases e <;> rfl

/-- Where there is no report, nothing is removed. -/
theorem run_take_absent (r : ReportScan) (hget : w.files.get? r.reportPath = none) :
    ∃ x, r.take.run.run w = (x, w) := by
  have hnever (bytes : List UInt8) : w.files.read r.reportPath ≠ .ok bytes := by
    intro hread
    have hthere := (Files.read_eq_ok hread).2
    rw [hget] at hthere
    cases hthere
  have hxml (read : String → Except Failure (List Json)) :
      ∃ x, (takeReport r.reportPath read).run.run w = (x, w) := by
    rw [takeReport, Run.run_bind_ok Run.run_files]
    split
    · exact ⟨_, rfl⟩
    · cases hread : w.files.readExact r.reportPath with
      | error e => exact ⟨.error e, rfl⟩
      | ok text =>
        obtain ⟨bytes, hbytes, -⟩ := Run.except_bind_eq_ok.1 hread
        exact absurd hbytes (hnever bytes)
  cases r with
  | cppcheck path => exact hxml Cppcheck.read
  | spotbugs classes => exact hxml Spotbugs.read
  | dependencyCheck path =>
    rw [take, Dependencies.takeJavaReport, Run.run_bind_ok Run.run_files]
    split
    · exact ⟨_, rfl⟩
    · cases hread : w.files.readText Dependencies.javaReportPath with
      | error e => exact ⟨.error e, rfl⟩
      | ok text =>
        obtain ⟨bytes, hbytes, -⟩ := Run.except_bind_eq_ok.1 hread
        exact absurd hbytes (hnever bytes)

/-- **A report is removed if it can be read to its end.** -/
theorem run_takeReport {p text : String} (hread : w.files.read p = .ok (Text.encodeUtf8 text))
    (read : String → Except Failure (List Json)) : (takeReport p read).run.run w =
      match read text with
      | .ok found => (.ok found, w.holding p none)
      | .error e => (.error e, w) := by
  have htext : (Run.ofExcept (.ok text)).run.run w = (.ok text, w) := rfl
  have hget := (Files.read_eq_ok hread).2
  have hhas : w.files.has p = true := Files.has_of_read hread
  rw [takeReport, Run.run_bind_ok Run.run_files, if_neg (by simp [hhas]), Files.readExact_of_read hread,
    Files.unlink_of_get? hget, Run.run_bind_ok htext]
  cases read text <;> rfl

/-- The same of a report of dependencies. The findings before a trouble are kept. -/
theorem run_takeJavaReport {text : String}
    (hread : w.files.read Dependencies.javaReportPath = .ok (Text.encodeUtf8 text)) :
    Dependencies.takeJavaReport.run.run w =
      match Dependencies.javaEntries (Text.asRead text) with
      | .ok entries => (.ok (Dependencies.javaDependencies entries).1,
          if (Dependencies.javaDependencies entries).2 then w.holding Dependencies.javaReportPath none
          else w)
      | .error e => (.error e, w) := by
  have htext : (Run.ofExcept (.ok (Text.asRead text))).run.run w = (.ok (Text.asRead text), w) := rfl
  have hget := (Files.read_eq_ok hread).2
  have hhas : w.files.has Dependencies.javaReportPath = true := Files.has_of_read hread
  rw [Dependencies.takeJavaReport, Run.run_bind_ok Run.run_files, if_neg (by simp [hhas]),
    Files.readText_of_read hread, Files.unlink_of_get? hget, Run.run_bind_ok htext]
  cases Dependencies.javaEntries (Text.asRead text) with
  | error e => rfl
  | ok entries =>
    have hentries : (Run.ofExcept (.ok entries)).run.run w = (.ok entries, w) := rfl
    rw [Run.run_bind_ok hentries]
    dsimp only
    rcases Dependencies.javaDependencies entries with ⟨found, _ | _⟩ <;> rfl

/-! ## The run of a scan -/

/-- A tool that fails leaves the report to the next scan. -/
theorem run_of_fault {fault : ProcessFault} (hfault : w.nextScript.fault = some fault)
    (r : ReportScan) :
    r.run.run.run w = (.ok (r.onFailure (fault.failure r.command)), w.afterCommand r.command) := by
  rw [run_eq, Run.run_bind_error (Run.run_process_error hfault)]
  rfl

theorem run_of_no_report (hfault : w.nextScript.fault = none) (r : ReportScan)
    (hget : (w.afterCommand r.command).files.get? r.reportPath = none) :
    ∃ found, r.run.run.run w = (.ok found, w.afterCommand r.command) := by
  obtain ⟨x, hx⟩ := r.run_take_absent hget
  rw [run_eq, Run.run_bind_ok (Run.run_process r.check_command hfault), hx]
  cases x with
  | ok found => exact ⟨found, rfl⟩
  | error e => exact ⟨r.onFailure e, rfl⟩

/-- **The report decides the scan**: what is found, and whether the report is removed. -/
theorem run_of_report {text : String} (hfault : w.nextScript.fault = none) (r : ReportScan)
    (hblocked : (w.afterCommand r.command).files.isBlocked r.reportPath = false)
    (hget : (w.afterCommand r.command).files.get? r.reportPath = some (Text.encodeUtf8 text)) :
    r.run.run.run w = (.ok (r.outcome text).1,
      if (r.outcome text).2 then (w.afterCommand r.command).holding r.reportPath none
      else w.afterCommand r.command) := by
  have hpass := (w.afterCommand r.command).files.isPassable_of_not_mem r.isPlace_reportPath.forward
  have hread := Files.read_of_get? r.isPlace_reportPath.name hblocked hpass hget
  rw [run_eq, Run.run_bind_ok (Run.run_process r.check_command hfault)]
  cases r with
  | cppcheck path =>
    have htake : (takeReport Cppcheck.reportPath Cppcheck.read).run.run _ = _ := run_takeReport hread _
    rewrite [take, htake, outcome]
    cases Cppcheck.read text <;> rfl
  | spotbugs classes =>
    have htake : (takeReport Spotbugs.reportPath Spotbugs.read).run.run _ = _ := run_takeReport hread _
    rewrite [take, htake, outcome]
    cases Spotbugs.read text <;> rfl
  | dependencyCheck path =>
    have htake : Dependencies.takeJavaReport.run.run _ = _ := run_takeJavaReport hread
    rewrite [take, htake, outcome]
    cases Dependencies.javaEntries (Text.asRead text) <;> rfl

/-! ## Reports that can be read to their end -/

/-- A report in XML can be read to its end: it is malformed, which is itself a finding, or each of
its items that has a place gives a whole number for the line. -/
def xmlLegible (item place line : String) : Except Xml.Trouble Xml.Element → Bool
  | .error (.malformed _) => true
  | .error (.unknownEncoding _) => false
  | .ok root => (root.findAll item).all fun e => (e.find? place).all fun l => (numberIn l line).isOk

/-- The value is a record. -/
def isRecord : Json → Bool
  | .obj _ => true
  | _ => false

/-- A dependency can be read to its end: its vulnerabilities are a list of records. -/
def dependencyLegible (d : Json) : Bool :=
  match d.getD "vulnerabilities" (.arr []) >>= Json.items with
  | .ok vs => vs.all isRecord
  | .error _ => false

/-- The entries of a report of dependencies can be read to their end. -/
def entriesLegible : Except Failure (List Json) → Bool
  | .ok entries => entries.all dependencyLegible
  | .error _ => false

/-- A report can be read to its end. -/
def legible : ReportScan → String → Bool
  | .cppcheck _, text => xmlLegible "error" "location" "line" (Xml.parse text)
  | .spotbugs _, text => xmlLegible "BugInstance" "SourceLine" "start" (Xml.parse text)
  | .dependencyCheck _, text => entriesLegible (Dependencies.javaEntries (Text.asRead text))

theorem isOk_cppcheckFinding (e : Xml.Element) : (Cppcheck.finding e).isOk =
    (e.find? "location").all fun l => (numberIn l "line").isOk := by
  rw [Cppcheck.finding]
  cases e.find? "location" with
  | none => rfl
  | some l =>
    rw [Option.all_some]
    dsimp only
    cases numberIn l "line" <;> rfl

theorem isOk_spotbugsFinding (bug : Xml.Element) : (Spotbugs.finding bug).isOk =
    (bug.find? "SourceLine").all fun l => (numberIn l "start").isOk := by
  rw [Spotbugs.finding]
  cases bug.find? "SourceLine" with
  | none => rfl
  | some l =>
    rw [Option.all_some]
    dsimp only
    cases numberIn l "start" <;> rfl

/-- Reading a report in XML fails where an item of it does. -/
theorem isOk_readXml {finding : Xml.Element → Except Failure Json} {item place line : String}
    (h : ∀ e, (finding e).isOk = (e.find? place).all fun l => (numberIn l line).isOk)
    (text title tool : String) :
    (readXml text title tool fun root => (root.findAll item).mapM finding).isOk =
      xmlLegible item place line (Xml.parse text) := by
  rw [readXml]
  cases Xml.parse text with
  | ok root => simp only [Run.except_mapM_isOk, h, xmlLegible]
  | error t => cases t <;> rfl

theorem isOk_javaFinding (fields : Fields) (v : Json) :
    (Dependencies.javaFinding (.obj fields) v).isOk = isRecord v := by
  cases v <;> rfl

/-- A dependency is read to its end if each of its vulnerabilities is a record. -/
theorem javaDependency_snd (d : Json) : (Dependencies.javaDependency d).2 = dependencyLegible d := by
  rw [Dependencies.javaDependency, dependencyLegible]
  cases d with
  | obj fields =>
    cases (Json.obj fields).getD "vulnerabilities" (.arr []) >>= Json.items with
    | error e => rfl
    | ok vs =>
      rw [Bool.eq_iff_iff, beq_iff_eq, Dependencies.length_untilFailure_eq_iff, List.all_eq_true]
      simp only [isOk_javaFinding]
  | _ => rfl

theorem javaDependencies_snd (ds : List Json) :
    (Dependencies.javaDependencies ds).2 = ds.all dependencyLegible := by
  induction ds with
  | nil => rfl
  | cons d ds ih =>
    rw [Dependencies.javaDependencies, List.all_cons, ← javaDependency_snd d, ← ih]
    rcases Dependencies.javaDependency d with ⟨found, _ | _⟩ <;> rfl

/-- **A report is read to its end where it is legible.** -/
theorem outcome_snd (r : ReportScan) (text : String) : (r.outcome text).2 = r.legible text := by
  cases r with
  | cppcheck path =>
    rw [legible, ← isOk_readXml isOk_cppcheckFinding text "Cppcheck" "cppcheck", ← Cppcheck.read, outcome]
    cases Cppcheck.read text <;> rfl
  | spotbugs classes =>
    rw [legible, ← isOk_readXml isOk_spotbugsFinding text "SpotBugs" "spotbugs", ← Spotbugs.read, outcome]
    cases Spotbugs.read text <;> rfl
  | dependencyCheck path =>
    rw [outcome, legible]
    cases Dependencies.javaEntries (Text.asRead text) with
    | error e => rfl
    | ok entries => exact javaDependencies_snd entries

/-! ## What a scan leaves and what it reads -/

/-- The report that is there when the tool is done: what the tool wrote, or else what was held
before. -/
def reportAfter (r : ReportScan) (w : World) (held : Option String) : Option String :=
  (w.nextScript.written r.reportPath).or held

/-- The end of a scan before which the place of the report held something. -/
def scanned (r : ReportScan) (w : World) (held : Option String) : Except Failure (List Json) × World :=
  r.run.run.run (w.holding r.reportPath held)

variable {held : Option String}

theorem get?_reportPath (r : ReportScan) (w : World) (held : Option String) :
    ((w.holding r.reportPath held).afterCommand r.command).files.get? r.reportPath =
      (r.reportAfter w held).map Text.encodeUtf8 := by
  rw [World.get?_afterCommand, World.get?_holding, World.nextScript_holding,
    r.isPlace_reportPath.key, reportAfter]
  cases w.nextScript.written r.reportPath <;> rfl

/-- What was held before is not in its own way. -/
theorem isBlocked_holding (r : ReportScan) (w : World) (held : Option String) :
    ((w.holding r.reportPath held).afterCommand r.command).files.isBlocked r.reportPath =
      (w.afterCommand r.command).files.isBlocked r.reportPath := by
  have hplace := r.isPlace_reportPath
  have hfile {p : String} (h : Files.key p ≠ Files.key r.reportPath) :
      ((w.holding r.reportPath held).afterCommand r.command).files.isFile p =
        (w.afterCommand r.command).files.isFile p := by
    rw [Files.isFile, Files.isFile, World.get?_afterCommand, World.get?_afterCommand,
      World.nextScript_holding, Files.get?, World.lookup_holding h]
    rfl
  rw [hplace.isBlocked_eq, hplace.isBlocked_eq, hfile hplace.apart.1, hfile hplace.apart.2]

theorem scanned_of_fault {fault : ProcessFault} (hfault : w.nextScript.fault = some fault)
    (r : ReportScan) (held : Option String) :
    r.scanned w held = (.ok (r.onFailure (fault.failure r.command)),
      (w.holding r.reportPath held).afterCommand r.command) :=
  run_of_fault (by rw [World.nextScript_holding, hfault]) r

theorem scanned_of_none (hfault : w.nextScript.fault = none) (r : ReportScan)
    (hreport : r.reportAfter w held = none) :
    ∃ found, r.scanned w held =
      (.ok found, (w.holding r.reportPath held).afterCommand r.command) := by
  refine run_of_no_report (by rw [World.nextScript_holding, hfault]) r ?_
  rw [get?_reportPath, hreport, Option.map_none]

theorem scanned_of_some (hfault : w.nextScript.fault = none) (r : ReportScan)
    (hroom : (w.afterCommand r.command).files.isBlocked r.reportPath = false) {text : String}
    (hreport : r.reportAfter w held = some text) :
    r.scanned w held = (.ok (r.outcome text).1,
      if r.legible text then
        ((w.holding r.reportPath held).afterCommand r.command).holding r.reportPath none
      else (w.holding r.reportPath held).afterCommand r.command) := by
  rw [← outcome_snd]
  refine run_of_report (by rw [World.nextScript_holding, hfault]) r ?_ ?_
  · rw [isBlocked_holding, hroom]
  · rw [get?_reportPath, hreport, Option.map_some]

theorem exists_scanned (r : ReportScan) (w : World) (held : Option String)
    (hroom : (w.afterCommand r.command).files.isBlocked r.reportPath = false) :
    ∃ found, (r.scanned w held).1 = .ok found := by
  cases hfault : w.nextScript.fault with
  | some fault => exact ⟨_, congrArg Prod.fst (scanned_of_fault hfault r held)⟩
  | none =>
    cases hreport : r.reportAfter w held with
    | none =>
      obtain ⟨found, hfound⟩ := scanned_of_none hfault r hreport
      exact ⟨found, congrArg Prod.fst hfound⟩
    | some text => exact ⟨_, congrArg Prod.fst (scanned_of_some hfault r hroom hreport)⟩

/-- **No report is left** where there is none, or where a tool that did not fail left one that is
legible. -/
theorem isFile_scanned_iff (r : ReportScan) (w : World) (held : Option String)
    (hroom : (w.afterCommand r.command).files.isBlocked r.reportPath = false) :
    (r.scanned w held).2.files.isFile r.reportPath = false ↔ r.reportAfter w held = none ∨
      w.nextScript.fault = none ∧ ∃ text, r.reportAfter w held = some text ∧ r.legible text = true := by
  have hafter : ((w.holding r.reportPath held).afterCommand r.command).files.isFile r.reportPath =
      (r.reportAfter w held).isSome := by
    rw [Files.isFile, get?_reportPath, Option.isSome_map]
  cases hfault : w.nextScript.fault with
  | some fault =>
    rw [scanned_of_fault hfault, hafter]
    cases r.reportAfter w held <;> simp
  | none =>
    cases hreport : r.reportAfter w held with
    | none =>
      obtain ⟨found, hfound⟩ := scanned_of_none hfault r hreport
      rw [hfound, hafter, hreport]
      simp
    | some text =>
      rw [scanned_of_some hfault r hroom hreport]
      by_cases hlegible : r.legible text = true
      · rw [if_pos hlegible, Files.isFile, World.get?_holding]
        simp [hlegible]
      · rw [if_neg hlegible, hafter, hreport]
        simp [hlegible]

/-- A report in which nothing is found. -/
def cleanReport : ReportScan → String
  | .cppcheck _ => "<results/>"
  | .spotbugs _ => "<BugCollection/>"
  | .dependencyCheck _ => "\x7b\x7d"

/-- A report in which one thing is found. -/
def dirtyReport : ReportScan → String
  | .cppcheck _ => "<results><error/></results>"
  | .spotbugs _ => "<BugCollection><BugInstance/></BugCollection>"
  | .dependencyCheck _ => "\x7b\"dependencies\": [\x7b\"vulnerabilities\": [\x7b\x7d]\x7d]\x7d"

theorem length_readOutcome {onFailure : Failure → List Json} {x : Except Failure (List Json)} {n : ℕ}
    (h : x.toOption.map List.length = some n) : (readOutcome onFailure x).1.length = n := by
  cases x with
  | error e => cases h
  | ok found => exact Option.some.inj h

theorem length_entriesOutcome {x : Except Failure (List Json)} {n : ℕ}
    (h : x.toOption.map (fun entries => (Dependencies.javaDependencies entries).1.length) = some n) :
    (entriesOutcome x).1.length = n := by
  cases x with
  | error e => cases h
  | ok entries => exact Option.some.inj h

theorem length_cleanReport (r : ReportScan) : (r.outcome r.cleanReport).1.length = 0 := by
  cases r with
  | cppcheck path =>
    rw [cleanReport, outcome]
    exact length_readOutcome (by decide +kernel)
  | spotbugs classes =>
    rw [cleanReport, outcome]
    exact length_readOutcome (by decide +kernel)
  | dependencyCheck path =>
    rw [cleanReport, outcome]
    exact length_entriesOutcome (by decide +kernel)

theorem length_dirtyReport (r : ReportScan) : (r.outcome r.dirtyReport).1.length = 1 := by
  cases r with
  | cppcheck path =>
    rw [dirtyReport, outcome]
    exact length_readOutcome (by decide +kernel)
  | spotbugs classes =>
    rw [dirtyReport, outcome]
    exact length_readOutcome (by decide +kernel)
  | dependencyCheck path =>
    rw [dirtyReport, outcome]
    exact length_entriesOutcome (by decide +kernel)

/-- **What is found does not depend on what was held before** where the tool failed or wrote a
report of its own, and nowhere else. -/
theorem scanned_fst_iff (r : ReportScan) (w : World) (held : Option String)
    (hroom : (w.afterCommand r.command).files.isBlocked r.reportPath = false) :
    (∀ other, (r.scanned w other).1 = (r.scanned w held).1) ↔
      w.nextScript.fault.isSome ∨ (w.nextScript.written r.reportPath).isSome := by
  cases hfault : w.nextScript.fault with
  | some fault => simp [scanned_of_fault hfault]
  | none =>
    cases hwritten : w.nextScript.written r.reportPath with
    | some text =>
      have hreport (held : Option String) : r.reportAfter w held = some text := by
        rw [reportAfter, hwritten, Option.some_or]
      simp [scanned_of_some hfault r hroom (hreport _)]
    | none =>
      have hreport (text : String) : r.reportAfter w (some text) = some text := by
        rw [reportAfter, hwritten, Option.none_or]
      have hfound (text : String) : (r.scanned w (some text)).1 = .ok (r.outcome text).1 := by
        rw [scanned_of_some hfault r hroom (hreport text)]
      -- one of two reports gives something else than what was held
      have hdepends : ¬ ∀ other, (r.scanned w other).1 = (r.scanned w held).1 := by
        intro hsame
        have hequal := (hsame (some r.cleanReport)).trans (hsame (some r.dirtyReport)).symm
        rw [hfound, hfound, Except.ok.injEq] at hequal
        have hlengths := congrArg List.length hequal
        rw [length_cleanReport, length_dirtyReport] at hlengths
        omega
      simpa using hdepends

/-- A tool that exits with an error and writes no report. -/
def silentTool : World where
  processes := [{ code := 1 }]

/-- A tool that is stopped after it wrote its report, and then one that writes none. -/
def stoppedTool : World where
  processes := [
    { writes := [(Cppcheck.reportPath, "<results><error/></results>")], fault := some .timeout },
    { code := 1 }]

end ReportScan

end Scan

end SecureReview
