import SecureReview.CommandLine.Scan
import SecureReview.Proofs.Json.Reading
import SecureReview.Proofs.Listing.Gate
import SecureReview.Proofs.Scan.Contexts
/-!
# The exit code of a scan

A scan collects the findings of its tools, keeps as many as were asked for,
and lists and judges what it kept. Contexts and fixes do not change how a
finding is judged, so the code is told by the findings of the tools
(`exists_code`). Two things follow that a build gate should not do: a tool
that **failed** looks like one that found nothing, and a finding that was
**cut off** is not judged (`endsWith_limit`).
-/

namespace SecureReview.CommandLine.ScanRequest

open Scan Gate

variable {r : ScanRequest} {w w₁ : World} {kept : List Json} {e : Failure}

/-- The scan ends with this exit code. -/
def EndsWith (r : ScanRequest) (w : World) (code : Nat) : Prop :=
  ∃ output w', r.run.run.run w = (.ok ⟨output, code⟩, w')

/-- The tools that a scan runs. -/
def tools (r : ScanRequest) : List Tool :=
  r.scanned.flatMap toolsFor

/-! ## Listing and judging -/

/-- There is a place for the listing. -/
def delivers (r : ScanRequest) (fs : Files) : Bool :=
  r.output == "" || (fs.writeText (Path.normal r.output) "").isOk

/-- Whether a file can be written does not depend on the text. -/
theorem writeText_isOk (fs : Files) (p s : String) :
    (fs.writeText p s).isOk = (fs.writeText p "").isOk := by
  unfold Files.writeText Files.write
  split
  · rfl
  · split
    · rfl
    · split <;> rfl

theorem deliver_isOk (r : ScanRequest) (listing : String) (w : World) :
    ((r.deliver listing).run.run w).1.isOk = r.delivers w.files := by
  unfold deliver delivers
  split
  · next h =>
    rw [h]
    rfl
  · next h =>
    rw [← writeText_isOk w.files _ listing, Bool.eq_false_iff.2 h, Bool.false_or,
      Run.run_bind_ok Run.run_files, Run.run_bind, Run.run_ofExcept]
    cases w.files.writeText (Path.normal r.output) listing <;> rfl

theorem gate_eq (r : ScanRequest) (fs : List Json) :
    r.gate fs = if r.failOn != "none" && fs.any (reaches r.failOn) then 1 else 0 := by
  rw [← exitCode_eq, gate]
  cases exitCode fs r.failOn <;> rfl

/-- **What is kept decides**, and whether there is a listing and a place for it. -/
theorem endsWith_of_findings (h : r.findings.run.run w = (.ok kept, w₁)) :
    r.EndsWith w (if !r.delivers w₁.files || (!kept.all r.format.fits ||
      kept.any (stops r.format r.failOn)) then 1 else 0) := by
  have hjudged : (!kept.all r.format.fits || kept.any (stops r.format r.failOn)) =
      (!(r.format.render kept).isOk || r.failOn != "none" && kept.any (reaches r.failOn)) := by
    rw [any_stops, ListingFormat.render_isOk]
    cases kept.all r.format.fits <;> simp
  rw [hjudged]
  cases hlisting : r.format.render kept with
  | error e =>
    -- a finding that cannot be listed ends the scan before the gate is asked
    refine ⟨"", w₁, ?_⟩
    rw [run, Run.run_bind, Run.run_tryCatch, Run.run_bind_ok h, hlisting,
      Run.run_bind_error Run.run_ofExcept, if_pos (by simp [Except.isOk, Except.toBool])]
    rfl
  | ok listing =>
    have hdeliver := deliver_isOk r listing w₁
    obtain ⟨d, w₂, hd⟩ : ∃ d w₂, (r.deliver listing).run.run w₁ = (d, w₂) := ⟨_, _, rfl⟩
    rw [hd] at hdeliver
    rw [← hdeliver]
    cases d with
    | error e =>
      refine ⟨"", w₂, ?_⟩
      rw [run, Run.run_bind, Run.run_tryCatch, Run.run_bind_ok h, hlisting,
        Run.run_bind_ok Run.run_ofExcept, Run.run_bind_error hd]
      rfl
    | ok printed =>
      refine ⟨printed, w₂, ?_⟩
      rw [run, Run.run_bind, Run.run_tryCatch, Run.run_bind_ok h, hlisting,
        Run.run_bind_ok Run.run_ofExcept, Run.run_bind_ok hd, gate_eq]
      rfl

/-- A scan that breaks off fails. -/
theorem endsWith_of_error (h : r.findings.run.run w = (.error e, w₁)) : r.EndsWith w 1 := by
  refine ⟨"", w₁, ?_⟩
  rw [run, Run.run_bind, Run.run_tryCatch, Run.run_bind_error h]
  rfl

/-! ## Collecting -/

theorem Enriches.alike {f f' : Json} (h : Enriches f f') : Alike f f' := by
  obtain rfl | ⟨fields, context, rfl, rfl⟩ := h
  · exact Or.inl rfl
  · exact alike_put fields (by decide) context

/-- A language that is not known is passed over. -/
theorem exists_found (path language : String) (w : World) :
    ∃ fs w', (tryCatch (Toolbox.scanLanguage {} path language) fun _ => pure []).run.run w =
        (.ok fs, w') ∧
      List.Forall₂ Enriches (foundBy (toolsFor language) w.processes) fs ∧
      w'.surroundings = (afterTools path (toolsFor language) w).surroundings := by
  unfold toolsFor
  cases hscanner : scannerFor? language with
  | none =>
    refine ⟨[], w, ?_, .nil, rfl⟩
    rw [Run.run_tryCatch, Toolbox.scanLanguage, hscanner]
    rfl
  | some s =>
    obtain ⟨fs, w', hrun, hall, hkept⟩ := exists_scanLanguage hscanner path w
    refine ⟨fs, w', ?_, hall, hkept⟩
    rw [Run.run_tryCatch, hrun]

/-- **A scan collects what the tools of its languages find**, in their order. -/
theorem exists_collect (path : String) (languages : List String) (w : World) :
    ∃ fs w', (collect path languages).run.run w = (.ok fs, w') ∧
      List.Forall₂ Enriches (foundBy (languages.flatMap toolsFor) w.processes) fs ∧
      w'.surroundings = (afterTools path (languages.flatMap toolsFor) w).surroundings := by
  induction languages generalizing w with
  | nil => exact ⟨[], w, rfl, .nil, rfl⟩
  | cons language languages ih =>
    obtain ⟨found, w₁, hfound, hall, hkept⟩ := exists_found path language w
    obtain ⟨rest, w₂, hrest, hall', hkept'⟩ := ih w₁
    -- the next languages go on with the script where this one left it
    have hscript : w₁.processes = w.processes.drop (toolsFor language).length := by
      rw [← processes_afterTools path]
      exact congrArg (fun s => s.2.2) hkept
    refine ⟨found ++ rest, w₂, ?_, ?_, ?_⟩
    · rw [collect, Run.run_bind_ok hfound, Run.run_bind_ok hrest, Run.run_pure]
    · rw [List.flatMap_cons, foundBy_append, ← hscript]
      exact List.rel_append hall hall'
    · rw [List.flatMap_cons, afterTools_append, hkept']
      exact surroundings_afterTools path _ hkept

/-! ## Keeping some -/

/-- How many findings are kept of so many. -/
def keptOf (most : Option Int) (total : Nat) : Nat :=
  match most with
  | none => total
  | some n => if n != 0 && n < total then Text.position total n else total

theorem limit_eq_take (most : Option Int) (fs : List Json) :
    limit most fs = fs.take (keptOf most fs.length) := by
  cases most with
  | none => exact (List.take_length).symm
  | some n =>
    rw [limit, keptOf]
    split
    · simp [Text.slice, Text.position]
    · exact (List.take_length).symm

/-- A limit that is positive keeps the first findings. -/
theorem limit_of_pos {n : Int} (hn : 0 < n) (fs : List Json) :
    limit (some n) fs = fs.take n.toNat := by
  rw [limit_eq_take, keptOf]
  by_cases hlt : n < fs.length
  · have hposition : Text.position fs.length n = n.toNat := by
      rw [Text.position, if_neg (by omega)]
      omega
    rw [if_pos (by simp; omega), hposition]
  · rw [if_neg (by simp; omega), List.take_length, List.take_of_length_le (by omega)]

/-- What is kept is judged as what the tools found. -/
theorem map_stops_limit {fs found : List Json} (format : ListingFormat) (failOn : String)
    (most : Option Int) (h : List.Forall₂ Enriches found fs) :
    (limit most fs).map (stops format failOn) = (limit most found).map (stops format failOn) := by
  have hmap : fs.map (stops format failOn) = found.map (stops format failOn) :=
    map_stops_of_alike (h.imp fun _ _ => Enriches.alike)
  rw [limit_eq_take, limit_eq_take, List.map_take, List.map_take, hmap, h.length_eq]

/-! ## Fixes -/

theorem exists_applyTo (fields : Fields) (fix : FixSuggestion) (w : World) :
    ∃ f' w', (applyTo fields fix).run.run w = (.ok f', w') ∧ Alike (.obj fields) f' := by
  obtain ⟨f', w', hrun, hf'⟩ := Run.exists_try (do
    let made ← fix.patch.apply false
    pure (.error (Json.obj (Fields.put fields "fix_applied" (.bool made))))) (Json.obj fields) w
  refine ⟨f', w', hrun, ?_⟩
  obtain rfl | ⟨e, he, hf'⟩ := hf'
  · exact Or.inl rfl
  · obtain ⟨made, w₁, -, he⟩ := Run.bind_eq_ok.1 he
    cases he
    obtain hf' | hf' := hf'
    · cases hf'
      exact alike_put fields (by decide) _
    · cases hf'

/-- **A fix changes no severity**, and looking for one does not fail. -/
theorem exists_withFix (engine : FixEngine) (autoFix : Bool) (f : Json) (w : World) :
    ∃ f' w', (withFix engine autoFix f).run.run w = (.ok f', w') ∧ Alike f f' := by
  obtain ⟨fix?, w₁, hfix⟩ := Run.exists_tryCatch_pure (engine.generate f true) none w
  rw [withFix, Run.run_bind_ok hfix]
  split
  · next fields fix =>
    have hput : Alike (.obj fields) (.obj (Fields.put fields "fix_suggestion" (suggestionOf fix))) :=
      alike_put fields (by decide) _
    split
    · obtain ⟨f', w', hrun, halike⟩ := exists_applyTo
        (Fields.put fields "fix_suggestion" (suggestionOf fix)) fix w₁
      exact ⟨f', w', hrun, hput.trans halike⟩
    · exact ⟨_, w₁, rfl, hput⟩
  · exact ⟨f, w₁, rfl, Or.inl rfl⟩

/-- Fixes are asked for. -/
def wantsFixes (r : ScanRequest) : Bool :=
  r.suggestFixes || r.autoFix

/-- Fixes are asked for, and there is no key for the model that makes them. -/
def lacksFixer (r : ScanRequest) (w : World) : Bool :=
  r.wantsFixes && !(FixEngine.create none w.settings).isOk

/-- Without fixes the findings are those that were collected. -/
theorem findings_of_no_fixes (h : r.wantsFixes = false) {all : List Json}
    (hall : (collect r.path r.scanned).run.run w = (.ok all, w₁)) :
    r.findings.run.run w = (.ok (limit r.maxFindings all), w₁) := by
  rw [findings, Run.run_bind_ok hall, if_neg (by rw [← wantsFixes, h]; exact Bool.false_ne_true)]
  rfl

/-- **Before listing**, a scan breaks off for want of a fixer, or has findings that are
judged as those of its tools. -/
theorem findings_cases (r : ScanRequest) (w : World) :
    (r.lacksFixer w = true ∧ ∃ e w₁, r.findings.run.run w = (.error e, w₁)) ∨
    (r.lacksFixer w = false ∧ ∃ kept w₁, r.findings.run.run w = (.ok kept, w₁) ∧
      kept.map (stops r.format r.failOn) =
        (limit r.maxFindings (foundBy r.tools w.processes)).map (stops r.format r.failOn)) := by
  obtain ⟨all, w₁, hall, henriches, hkept⟩ := exists_collect r.path r.scanned w
  have hlimit := map_stops_limit r.format r.failOn r.maxFindings henriches
  by_cases hfixes : r.wantsFixes = true
  · -- the tools leave the settings alone, so it is known from the start if there is a fixer
    have hsettings : w₁.settings = w.settings := by
      rw [← settings_afterTools r.path (r.scanned.flatMap toolsFor) w]
      exact congrArg Prod.fst hkept
    have hget : Run.settings.run.run w₁ = (.ok w.settings, w₁) := by
      rw [← hsettings]
      rfl
    have hwants : (r.suggestFixes || r.autoFix) = true := hfixes
    rw [findings, Run.run_bind_ok hall, if_pos hwants, Run.run_bind_ok hget, lacksFixer, hfixes,
      Bool.true_and]
    cases FixEngine.create none w.settings with
    | error e => exact Or.inl ⟨rfl, e, w₁, rfl⟩
    | ok engine =>
      refine Or.inr ⟨rfl, ?_⟩
      obtain ⟨kept, w₂, hrun, halike, -⟩ := Run.exists_mapM (fun _ => ())
        (fun f _ w => by simpa using exists_withFix engine r.autoFix f w) w₁
      exact ⟨kept, w₂, hrun, (map_stops_of_alike halike).trans hlimit⟩
  · rw [Bool.not_eq_true] at hfixes
    refine Or.inr ⟨by rw [lacksFixer, hfixes, Bool.false_and], limit r.maxFindings all, w₁, ?_, hlimit⟩
    exact findings_of_no_fixes hfixes hall

/-! ## The code -/

/-- Once the findings are there, a whole number in them is too long for the listing, or there is
no place for it. -/
def Undelivered (r : ScanRequest) (w : World) : Prop :=
  ∃ kept w₁, r.findings.run.run w = (.ok kept, w₁) ∧
    (kept.all r.format.fits = false ∨ r.delivers w₁.files = false)

/-- **When a scan fails**: there is no fixer, no place for the listing, or a finding that was
kept is decisive. -/
theorem exists_code (r : ScanRequest) (w : World) :
    ∃ code, r.EndsWith w code ∧ (code = 0 ∨ code = 1) ∧
      (code = 1 ↔ r.lacksFixer w = true ∨ r.Undelivered w ∨
        ∃ f ∈ limit r.maxFindings (foundBy r.tools w.processes),
          stops r.format r.failOn f = true) := by
  obtain ⟨hlacks, e, w₁, herror⟩ | ⟨hhas, kept, w₁, hkept, hmap⟩ := findings_cases r w
  · exact ⟨1, endsWith_of_error herror, Or.inr rfl, iff_of_true rfl (Or.inl hlacks)⟩
  · have hundelivered : r.Undelivered w ↔
        kept.all r.format.fits = false ∨ r.delivers w₁.files = false := by
      constructor
      · rintro ⟨kept', w', hkept', hdelivers⟩
        cases hkept.symm.trans hkept'
        exact hdelivers
      · intro hdelivers
        exact ⟨kept, w₁, hkept, hdelivers⟩
    refine ⟨_, endsWith_of_findings hkept, ?_, ?_⟩
    · split
      · exact Or.inr rfl
      · exact Or.inl rfl
    · rw [any_congr_of_map hmap, hundelivered, hhas, ← List.any_eq_true]
      cases r.delivers w₁.files <;> cases kept.all r.format.fits <;>
        cases (limit r.maxFindings (foundBy r.tools w.processes)).any (stops r.format r.failOn) <;>
        simp

/-! ## Tools that failed -/

/-- A finding fails the scan by itself: it is not listed, for its severity or a whole number
that is too long, or it does not pass the gate. -/
def fails (r : ScanRequest) (f : Json) : Bool :=
  !r.format.fits f || stops r.format r.failOn f

/-- Only the plain listing shows the context of a finding. -/
theorem Enriches.fails_eq {f f' : Json} (h : Enriches f f') (hformat : r.format ≠ .json) :
    r.fails f' = r.fails f := by
  rw [fails, fails, (Enriches.alike h).stops_eq]
  obtain rfl | ⟨fields, context, rfl, rfl⟩ := h
  · rfl
  · have hpart {k : String} (hk : k ≠ "context") :
        (Json.obj (Fields.put fields "context" context)).part k = (Json.obj fields).part k := by
      rw [Json.part, Json.part, Json.get?_obj, Json.get?_obj, Fields.get?_put_of_ne hk]
    have hshows : r.format.shows (.obj (Fields.put fields "context" context)) =
        r.format.shows (.obj fields) := by
      cases hr : r.format with
      | json => exact absurd hr hformat
      | sarif => simp [ListingFormat.shows, hpart]
      | text => simp [ListingFormat.shows, hpart]
    rw [ListingFormat.fits, ListingFormat.fits, hshows]

theorem map_fails_of_enriches {found all : List Json} (h : List.Forall₂ Enriches found all)
    (hformat : r.format ≠ .json) : all.map r.fails = found.map r.fails := by
  induction h with
  | nil => rfl
  | cons hf _ ih => rw [List.map_cons, List.map_cons, Enriches.fails_eq hf hformat, ih]

theorem any_fails (r : ScanRequest) (fs : List Json) :
    fs.any r.fails = (!fs.all r.format.fits || fs.any (stops r.format r.failOn)) := by
  rw [Bool.eq_iff_iff]
  simp [fails, and_or_left, exists_or]

/-- Without fixes the listing goes among the files that the tools leave, and the limit is
all that stands between what they find and the gate. -/
theorem endsWith_limit (h : r.wantsFixes = false) (w : World) :
    ∃ all, List.Forall₂ Enriches (foundBy r.tools w.processes) all ∧ ∀ most : Option Int,
      ({ r with maxFindings := most } : ScanRequest).EndsWith w
        (if !r.delivers (afterTools r.path r.tools w).files || (limit most all).any r.fails
          then 1 else 0) := by
  obtain ⟨all, w₁, hall, henriches, hkept⟩ := exists_collect r.path r.scanned w
  have hfiles : w₁.files = (afterTools r.path r.tools w).files := congrArg (fun s => s.2.1) hkept
  refine ⟨all, henriches, fun most => ?_⟩
  rw [← hfiles, any_fails]
  exact endsWith_of_findings (findings_of_no_fixes (r := { r with maxFindings := most }) h hall)

/-- An issue as it is reported. -/
def issue (severity : String) : Json :=
  .obj [("issue_severity", .str severity), ("issue_confidence", .str "HIGH"),
    ("issue_text", .str "weak hash"), ("filename", .str "a.py"), ("line_number", .int 1),
    ("code", .str "md5(x)"), ("test_id", .str "B303")]

/-- The issue as it is found. -/
def weakHash (severity : String) : Json :=
  .obj [("tool", .str "bandit"), ("severity", .str severity), ("confidence", .str "HIGH"),
    ("description", .str "weak hash"), ("file", .str "a.py"), ("line", .int 1),
    ("code", .str "md5(x)"), ("rule_id", .str "B303")]

def lowThenHighReport : Json :=
  .obj [("results", .arr [issue "LOW", issue "HIGH"])]

/-- A world where a low issue is reported, and then a high one. -/
def lowThenHigh : World where
  processes := [{ stdout := lowThenHighReport.compact }]

/-- A scan of one language that a high issue fails. -/
def highFails : ScanRequest where
  languages := ["python"]
  failOn := "high"

theorem foundBy_lowThenHigh : foundBy highFails.tools lowThenHigh.processes =
    [weakHash "LOW", weakHash "HIGH"] := by
  have hread : Tool.bandit.read lowThenHighReport.compact =
      .ok [weakHash "LOW", weakHash "HIGH"] := by
    -- the report is not parsed here: what was written reads back
    rw [Tool.read, Bandit.read, Json.read, Json.parseString_compact (by decide)]
    rfl
  have htools : highFails.tools = [.bandit] := rfl
  rw [htools, lowThenHigh, foundBy, foundBy, List.append_nil, List.headD_cons, Tool.found, hread]
  rfl

/-- Of these findings only the second fails the scan. -/
theorem map_fails_lowThenHigh {all : List Json} (h : all.map highFails.fails =
    (foundBy highFails.tools lowThenHigh.processes).map highFails.fails) :
    all.map highFails.fails = [false, true] := by
  rw [h, foundBy_lowThenHigh]
  rfl

end SecureReview.CommandLine.ScanRequest
