import SecureReview.Proofs.CommandLine.ExitCode
import SecureReview.Proofs.Fix.Backup
import SecureReview.Proofs.Fix.Suggested
/-!
# The changes that a scan makes

A scan that makes its fixes takes the findings in turn: it asks for a fix,
and carries it out if the file can be read and written. The changes are those
that `attempts` tells, from the files that the tools have left to those that
are there when the listing is made (`leads_findings`). Each of them writes
the code in a reply of the model for the code of a finding (`IsMade`), and
**no fix is looked at before it is carried out**: the changes of a scan are
acceptable exactly if the replies that they were made of happened to be
(`changes_acceptable_iff`).
-/

namespace SecureReview

/-- The text of the next reply of the model. -/
def World.nextReply (w : World) : String :=
  match w.replies with
  | .content (some text) _ _ :: _ => text
  | _ => ""

namespace CommandLine.ScanRequest

open Scan

variable {r : ScanRequest} {engine : FixEngine} {finding : Json} {fs : Files} {w : World}

/-! ## One finding -/

/-- A fix that was carried out: the finding and the reply it was made of, and the files before and
after. -/
structure Change where
  finding : Json
  reply : String
  fix : FixSuggestion
  before : Files
  after : Files

/-- The change carries out a fix that writes the code in one of the replies for the code of its
finding. -/
structure Change.IsMade (c : Change) (replies : List ModelReply) : Prop where
  applied : c.fix.patch.applyTo false c.before = .ok (true, c.after)
  replied : ∃ sent received, .content (some c.reply) sent received ∈ replies
  writes : FixEngine.Writes c.finding (FixEngine.codeIn c.finding c.reply) c.fix

/-- The files go from one change to the next. -/
def Leads : Files → List Change → Files → Prop
  | fs, [], fs' => fs = fs'
  | fs, c :: cs, fs' => c.before = fs ∧ Leads c.after cs fs'

/-- Carry out a fix. -/
def carryOut (finding : Json) (reply : String) (fix : FixSuggestion) (w : World) :
    Option Change × World :=
  match fix.patch.applyTo false w.files with
  | .ok (true, fs) => (some ⟨finding, reply, fix, w.files, fs⟩, { w with files := fs })
  | _ => (none, w)

/-- Ask for a fix of a finding and carry it out. -/
def attempt (engine : FixEngine) (finding : Json) (w : World) : Option Change × World :=
  match finding, (engine.generate finding true).run.run w with
  | .obj _, (.ok (some fix), w₁) => carryOut finding w.nextReply fix w₁
  | _, (_, w₁) => (none, w₁)

/-- Do so for findings in turn. -/
def attempts (engine : FixEngine) : List Json → World → List Change × World
  | [], w => ([], w)
  | finding :: rest, w =>
    let (c?, w₁) := attempt engine finding w
    let (cs, w₂) := attempts engine rest w₁
    (c?.toList ++ cs, w₂)

theorem run_applyTo (fields : Fields) (finding : Json) (reply : String) (fix : FixSuggestion)
    (w : World) :
    ∃ listed, (applyTo fields fix).run.run w = (.ok listed, (carryOut finding reply fix w).2) := by
  have hworld : (carryOut finding reply fix w).2 = ((fix.patch.apply false).run.run w).2 := by
    rw [Patch.run_apply, carryOut]
    rcases happly : fix.patch.applyTo false w.files with e | ⟨_ | _, fs⟩
    · rfl
    · -- a patch that finds no file sets the files to what they are
      rw [Patch.applyTo_unchanged happly (Or.inr rfl)]
      rfl
    · rfl
  have happly := Patch.run_apply fix.patch false w
  rw [hworld, happly]
  unfold applyTo
  rw [Run.run_bind, Run.run_tryCatch, Run.run_bind_ok happly]
  exact ⟨_, rfl⟩

theorem run_withFix (engine : FixEngine) (finding : Json) (w : World) :
    ∃ listed, (withFix engine true finding).run.run w =
      (.ok listed, (attempt engine finding w).2) := by
  obtain ⟨fix?, w₁, hgenerate⟩ : ∃ fix? w₁, (engine.generate finding true).run.run w = (fix?, w₁) :=
    ⟨_, _, rfl⟩
  unfold withFix attempt
  rw [Run.run_bind, Run.run_tryCatch, hgenerate]
  -- without a fix, or with a finding that has no fields, nothing is carried out
  rcases fix? with e | _ | fix
  · exact ⟨finding, by cases finding <;> rfl⟩
  · exact ⟨finding, by cases finding <;> rfl⟩
  · cases finding with
    | obj fields => exact run_applyTo _ _ _ fix w₁
    | _ => exact ⟨_, rfl⟩

theorem carryOut_spec (finding : Json) (reply : String) (fix : FixSuggestion) (w : World) :
    carryOut finding reply fix w = (none, w) ∨
      ∃ fs, fix.patch.applyTo false w.files = .ok (true, fs) ∧
        carryOut finding reply fix w =
          (some ⟨finding, reply, fix, w.files, fs⟩, { w with files := fs }) := by
  unfold carryOut
  rcases happly : fix.patch.applyTo false w.files with e | ⟨_ | _, fs⟩
  · exact Or.inl rfl
  · exact Or.inl rfl
  · exact Or.inr ⟨fs, rfl, rfl⟩

/-- **What becomes of one finding**: nothing but that the model may be asked, or one change. -/
theorem attempt_spec (engine : FixEngine) (finding : Json) (w : World) :
    (attempt engine finding w).2.replies <:+ w.replies ∧
      ((attempt engine finding w).1 = none ∧ (attempt engine finding w).2.files = w.files ∨
        ∃ c, (attempt engine finding w).1 = some c ∧ c.finding = finding ∧ c.before = w.files ∧
          (attempt engine finding w).2.files = c.after ∧ c.IsMade w.replies) := by
  obtain ⟨fix?, w₁, hgenerate⟩ : ∃ fix? w₁, (engine.generate finding true).run.run w = (fix?, w₁) :=
    ⟨_, _, rfl⟩
  have hasked : w.Asked w₁ := by simpa [hgenerate] using engine.asksOnly_generate finding true w
  by_cases hfix : ∃ fields fix, finding = .obj fields ∧ fix? = .ok (some fix)
  · obtain ⟨fields, fix, rfl, rfl⟩ := hfix
    have hattempt : attempt engine (.obj fields) w = carryOut (.obj fields) w.nextReply fix w₁ := by
      unfold attempt
      rw [hgenerate]
    obtain ⟨reply, sent, received, rest, hreplies, hwrites⟩ := FixEngine.generate_eq_some hgenerate
    have hnext : w.nextReply = reply := by rw [World.nextReply, hreplies]
    rw [hattempt, hnext]
    rcases carryOut_spec (.obj fields) reply fix w₁ with hnone | ⟨fs, happly, hsome⟩
    · rw [hnone]
      exact ⟨hasked.2, Or.inl ⟨rfl, hasked.1⟩⟩
    · rw [hsome]
      refine ⟨hasked.2, Or.inr ⟨_, rfl, rfl, hasked.1, rfl, happly, ⟨sent, received, ?_⟩, hwrites⟩⟩
      rw [hreplies]
      exact List.mem_cons_self
  · have hattempt : attempt engine finding w = (none, w₁) := by
      unfold attempt
      rw [hgenerate]
      split
      · next fields fix w₂ h => exact absurd ⟨fields, fix, rfl, (Prod.mk.inj h).1⟩ hfix
      · next h => rw [(Prod.mk.inj h).2]
    rw [hattempt]
    exact ⟨hasked.2, Or.inl ⟨rfl, hasked.1⟩⟩

/-! ## All findings -/

theorem Change.IsMade.mono {c : Change} {replies replies' : List ModelReply} (h : c.IsMade replies)
    (hsub : replies <:+ replies') : c.IsMade replies' := by
  obtain ⟨sent, received, hmem⟩ := h.replied
  exact ⟨h.applied, ⟨sent, received, hsub.subset hmem⟩, h.writes⟩

/-- **The findings in turn** are attempted in turn. -/
theorem run_mapM_withFix (engine : FixEngine) (kept : List Json) (w : World) :
    ∃ listed, (kept.mapM (withFix engine true)).run.run w =
      (.ok listed, (attempts engine kept w).2) := by
  induction kept generalizing w with
  | nil => exact ⟨[], rfl⟩
  | cons finding kept ih =>
    obtain ⟨first, hfirst⟩ := run_withFix engine finding w
    obtain ⟨rest, hrest⟩ := ih (attempt engine finding w).2
    refine ⟨first :: rest, ?_⟩
    rw [List.mapM_cons, Run.run_bind_ok hfirst, Run.run_bind_ok hrest]
    rfl

/-- **The files go from change to change**, and each change is made as it should. -/
theorem attempts_spec (engine : FixEngine) (kept : List Json) (w : World) :
    Leads w.files (attempts engine kept w).1 (attempts engine kept w).2.files ∧
      ∀ c ∈ (attempts engine kept w).1, c.finding ∈ kept ∧ c.IsMade w.replies := by
  induction kept generalizing w with
  | nil => exact ⟨rfl, fun c hc => absurd hc List.not_mem_nil⟩
  | cons finding kept ih =>
    obtain ⟨hreplies, hstep⟩ := attempt_spec engine finding w
    obtain ⟨hleads, hmade⟩ := ih (attempt engine finding w).2
    have hlater : ∀ c ∈ (attempts engine kept (attempt engine finding w).2).1,
        c.finding ∈ finding :: kept ∧ c.IsMade w.replies := fun c hc =>
      ⟨List.mem_cons_of_mem finding (hmade c hc).1, (hmade c hc).2.mono hreplies⟩
    rw [attempts]
    -- the later changes start from the files that this finding has left
    rcases hstep with ⟨hnone, hfiles⟩ | ⟨c, hsome, hfinding, hbefore, hafter, hc⟩
    · rw [hfiles] at hleads
      simp only [hnone, Option.toList_none, List.nil_append]
      exact ⟨hleads, hlater⟩
    · rw [hafter] at hleads
      simp only [hsome, Option.toList_some, List.singleton_append]
      refine ⟨⟨hbefore, hleads⟩, fun d hd => ?_⟩
      rcases List.mem_cons.1 hd with rfl | hd
      · exact ⟨hfinding ▸ List.mem_cons_self, hc⟩
      · exact hlater d hd

/-- Fixes that are only suggested leave the files alone. -/
theorem keeps_withFix (engine : FixEngine) (finding : Json) :
    Run.Keeps World.files (withFix engine false finding) := by
  have hasks : Run.AsksOnly (withFix engine false finding) := by
    refine Run.AsksOnly.bind
      ((engine.asksOnly_generate finding true).tryCatch fun _ => Run.asksOnly_pure none) fun fix? => ?_
    split
    · exact Run.asksOnly_pure _
    · exact Run.asksOnly_pure _
  exact fun w => (hasks w).1

/-! ## A scan -/

/-- The changes that a scan makes. -/
def changes (r : ScanRequest) (w : World) : List Change :=
  match (collect r.path r.scanned).run.run w, FixEngine.create none w.settings with
  | (.ok all, w₁), .ok engine =>
    if r.autoFix then (attempts engine (limit r.maxFindings all) w₁).1 else []
  | _, _ => []

/-- Collecting findings asks nothing of the model. -/
theorem replies_collect (path : String) (languages : List String) :
    Run.Keeps World.replies (collect path languages) := by
  have hparse : Run.Keeps World.replies Run.parseSource := by
    intro w
    obtain ⟨_, _, _, _, _, trees, _, _, _, _, _, _, _, _⟩ := w
    cases trees with
    | nil => rfl
    | cons tree trees => cases tree <;> rfl
  induction languages with
  | nil => exact Run.keeps_pure []
  | cons language languages ih =>
    have hscan := keeps_scanLanguage hparse (fun _ _ => rfl) path language
    exact (hscan.tryCatch fun _ => Run.keeps_pure []).bind fun _ => ih.bind fun _ => Run.keeps_pure _

variable {all : List Json} {w₁ : World}

theorem exists_found_of_mem {found : List Json} (h : List.Forall₂ Enriches found all)
    (hmem : finding ∈ all) : ∃ f ∈ found, Enriches f finding := by
  induction h with
  | nil => exact absurd hmem List.not_mem_nil
  | cons hfirst _ ih =>
    rcases List.mem_cons.1 hmem with rfl | hmem
    · exact ⟨_, List.mem_cons_self, hfirst⟩
    · obtain ⟨f, hf, henriches⟩ := ih hmem
      exact ⟨f, List.mem_cons_of_mem _ hf, henriches⟩

theorem files_findings_of_not_autoFix (hauto : r.autoFix = false)
    (hall : (collect r.path r.scanned).run.run w = (.ok all, w₁)) :
    (r.findings.run.run w).2.files = w₁.files := by
  rw [findings, Run.run_bind_ok hall, hauto]
  split
  · exact (Run.Keeps.bind (fun _ => rfl) fun s => (Run.keeps_ofExcept _).bind fun engine =>
      Run.keeps_mapM (keeps_withFix engine) _) w₁
  · rfl

theorem world_findings_of_fixer (hauto : r.autoFix = true) {engine : FixEngine}
    (hall : (collect r.path r.scanned).run.run w = (.ok all, w₁))
    (hcreate : FixEngine.create none w₁.settings = .ok engine) :
    (r.findings.run.run w).2 = (attempts engine (limit r.maxFindings all) w₁).2 := by
  have hget : Run.settings.run.run w₁ = (.ok w₁.settings, w₁) := rfl
  obtain ⟨listed, hrun⟩ := run_mapM_withFix engine (limit r.maxFindings all) w₁
  rw [findings, Run.run_bind_ok hall, hauto, Bool.or_true, if_pos rfl, Run.run_bind_ok hget, hcreate,
    Run.run_bind_ok Run.run_ofExcept, hrun]

theorem world_findings_of_no_fixer (hauto : r.autoFix = true) {e : Failure}
    (hall : (collect r.path r.scanned).run.run w = (.ok all, w₁))
    (hcreate : FixEngine.create none w₁.settings = .error e) :
    (r.findings.run.run w).2 = w₁ := by
  have hget : Run.settings.run.run w₁ = (.ok w₁.settings, w₁) := rfl
  rw [findings, Run.run_bind_ok hall, hauto, Bool.or_true, if_pos rfl, Run.run_bind_ok hget, hcreate,
    Run.run_bind_error Run.run_ofExcept]

/-- **From the tools to the listing** the files go from change to change. Each change is made of a
finding of the tools and a reply of the model. -/
theorem leads_findings (r : ScanRequest) (w : World) :
    Leads (afterTools r.path r.tools w).files (r.changes w) (r.findings.run.run w).2.files ∧
      ∀ c ∈ r.changes w, (∃ found ∈ foundBy r.tools w.processes, Enriches found c.finding) ∧
        c.IsMade w.replies := by
  obtain ⟨all, w₁, hall, henriches, hkept⟩ := exists_collect r.path r.scanned w
  have hfiles : (afterTools r.path r.tools w).files = w₁.files :=
    congrArg (fun s => s.2.1) hkept.symm
  have hsettings : w₁.settings = w.settings := by
    rw [← settings_afterTools r.path (r.scanned.flatMap toolsFor) w]
    exact congrArg Prod.fst hkept
  have hreplies : w₁.replies = w.replies := by simpa [hall] using replies_collect r.path r.scanned w
  have hnone : ∀ c ∈ ([] : List Change), (∃ found ∈ foundBy r.tools w.processes,
      Enriches found c.finding) ∧ c.IsMade w.replies := fun c hc => absurd hc List.not_mem_nil
  unfold changes
  rw [hfiles, hall, ← hsettings]
  by_cases hauto : r.autoFix = true
  · cases hcreate : FixEngine.create none w₁.settings with
    | error e =>
      rw [world_findings_of_no_fixer hauto hall hcreate]
      exact ⟨rfl, hnone⟩
    | ok engine =>
      obtain ⟨hleads, hmade⟩ := attempts_spec engine (limit r.maxFindings all) w₁
      rw [world_findings_of_fixer hauto hall hcreate]
      simp only [hauto, if_true]
      refine ⟨hleads, fun c hc => ⟨?_, hreplies ▸ (hmade c hc).2⟩⟩
      have hkept := (hmade c hc).1
      rw [limit_eq_take] at hkept
      exact exists_found_of_mem henriches (List.mem_of_mem_take hkept)
  · rw [files_findings_of_not_autoFix (Bool.eq_false_iff.2 hauto) hall]
    cases FixEngine.create none w₁.settings with
    | error e => exact ⟨rfl, hnone⟩
    | ok engine =>
      simp only [hauto]
      exact ⟨rfl, hnone⟩

/-- What a listing does to the files: nothing, or it is written. -/
theorem files_deliver (r : ScanRequest) (listing : String) (w : World) :
    ((r.deliver listing).run.run w).2.files = w.files ∨
      w.files.writeText (Path.normal r.output) listing =
        .ok ((r.deliver listing).run.run w).2.files := by
  unfold deliver
  split
  · exact Or.inl rfl
  · rw [Run.run_bind_ok Run.run_files, Run.run_bind, Run.run_ofExcept]
    cases w.files.writeText (Path.normal r.output) listing with
    | error e => exact Or.inl rfl
    | ok fs => exact Or.inr rfl

/-- **After the findings** a scan writes its listing at most. -/
theorem exists_run (r : ScanRequest) (w : World) :
    ∃ answer w', r.run.run.run w = (.ok answer, w') ∧
      (w'.files = (r.findings.run.run w).2.files ∨ ∃ listing,
        (r.findings.run.run w).2.files.writeText (Path.normal r.output) listing = .ok w'.files) := by
  obtain ⟨kept?, w₁, hfindings⟩ : ∃ kept? w₁, r.findings.run.run w = (kept?, w₁) := ⟨_, _, rfl⟩
  rw [hfindings, run, Run.run_bind, Run.run_tryCatch]
  cases kept? with
  | error e =>
    rw [Run.run_bind_error hfindings]
    exact ⟨_, _, rfl, Or.inl rfl⟩
  | ok kept =>
    rw [Run.run_bind_ok hfindings]
    cases hlisting : r.format.render kept with
    | error e =>
      rw [Run.run_bind_error Run.run_ofExcept]
      exact ⟨_, _, rfl, Or.inl rfl⟩
    | ok listing =>
      have hdeliver := files_deliver r listing w₁
      obtain ⟨printed?, w₂, hrun⟩ : ∃ printed? w₂, (r.deliver listing).run.run w₁ = (printed?, w₂) :=
        ⟨_, _, rfl⟩
      rw [hrun] at hdeliver
      rw [Run.run_bind_ok Run.run_ofExcept, Run.run_bind, hrun]
      refine ⟨?_, w₂, ?_, hdeliver.imp id fun h => ⟨listing, h⟩⟩
      · exact (printed?.toOption.map fun printed => ⟨printed, r.gate kept⟩).getD ⟨"", 1⟩
      · cases printed? <;> rfl

/-- **The changes of a scan** and when they are acceptable. A scan goes from the files that its
tools have left, through its changes, to those it leaves beside its listing. Each change writes the
code in a reply of the model for the code of a finding of the tools. All of them are acceptable
exactly if no reply that was carried out has no code, or the old code again. -/
theorem changes_acceptable_iff (r : ScanRequest) (w : World) :
    (∃ answer w' fs, r.run.run.run w = (.ok answer, w') ∧
      Leads (afterTools r.path r.tools w).files (r.changes w) fs ∧
      (w'.files = fs ∨ ∃ listing, fs.writeText (Path.normal r.output) listing = .ok w'.files)) ∧
    (∀ c ∈ r.changes w, (∃ found ∈ foundBy r.tools w.processes, Enriches found c.finding) ∧
      c.IsMade w.replies) ∧
    ((∀ c ∈ r.changes w, isAcceptableFix c.fix.oldCode c.fix.fixedCode = true) ↔
      ∀ c ∈ r.changes w, FixEngine.codeIn c.finding c.reply ≠ "" ∧
        FixEngine.codeIn c.finding c.reply ≠ Text.strip c.fix.oldCode) := by
  obtain ⟨hleads, hmade⟩ := leads_findings r w
  obtain ⟨answer, w', hrun, hfiles⟩ := exists_run r w
  refine ⟨⟨answer, w', _, hrun, hleads, hfiles⟩, hmade, forall₂_congr fun c hc => ?_⟩
  have hfixed : c.fix.fixedCode = FixEngine.codeIn c.finding c.reply := (hmade c hc).2.writes.fixed
  rw [hfixed]
  exact isAcceptableFix_iff (FixEngine.strip_codeIn c.finding c.reply)

/-- A scan of one language that makes its fixes. -/
def fixing : ScanRequest where
  languages := ["python"]
  autoFix := true

/-- A report of one line. -/
def oneLineReport : Json :=
  .obj [("results", .arr [.obj [("filename", .str "a.py"), ("line_number", .int 1)]])]

/-- A world where that line is reported, and the model answers with fences that have nothing
between them. -/
def emptyFences : World where
  settings := { openaiApiKey := some "k" }
  files := { entries := [("a.py", Text.encodeUtf8 "f(x)")] }
  processes := [{ stdout := oneLineReport.compact }]
  replies := [.content (some "```\n```") 0 0]

/-- **A fix without code is carried out**: it empties the file. -/
theorem empty_fix_is_carried_out :
    ∃ c ∈ fixing.changes emptyFences, isAcceptableFix c.fix.oldCode c.fix.fixedCode = false ∧
      c.before.get? "a.py" = some (Text.encodeUtf8 "f(x)") ∧ c.after.get? "a.py" = some [] := by
  have hany : ((fixing.changes emptyFences).any fun c =>
      !isAcceptableFix c.fix.oldCode c.fix.fixedCode &&
        (c.before.get? "a.py" == some (Text.encodeUtf8 "f(x)") &&
          c.after.get? "a.py" == some [])) = true := by decide +kernel
  obtain ⟨c, hc, hchange⟩ := List.any_eq_true.1 hany
  simp only [Bool.and_eq_true, Bool.not_eq_true', beq_iff_eq] at hchange
  exact ⟨c, hc, hchange⟩

end CommandLine.ScanRequest

end SecureReview
