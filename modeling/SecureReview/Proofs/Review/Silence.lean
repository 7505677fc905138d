import SecureReview.Proofs.Privacy.Findings
import SecureReview.Proofs.Review.AllClear
/-!
# Reviews that stay silent

With a host that takes every call, a review that comes to the end of its
inspection says how it ended and comments on each confirmed finding, and
one that does not says nothing. The findings of the reported tools all
name a file, and **no finding that names a file gets through redaction**
(`sanitizeFinding_of_file`). So a review that has anything to verify
stays silent (`not_nonempty_inspection`), and only a review without a
finding in changed files gives a verdict.
-/

namespace SecureReview

/-! ## Findings name a file -/

/-- The finding has a field for its file. -/
def namesFile (f : Json) : Prop :=
  ∃ file, f.get? "file" = some file

namespace PullRequest

variable {sanitize : Json → Run (Json × List String)} {pr : PullRequest} {w : World}

/-- **The findings of the reported tools all name a file.** -/
theorem namesFile_of_mem_foundBy (ps : List ProcessScript) :
    ∀ f ∈ Scan.foundBy reportedTools ps, namesFile f :=
  fun f hf => (Scan.isFinding_of_mem_foundBy reportedTools ps f hf).exists_field (by decide)

theorem get?_file_of_enriches (f f' : Json) (h : Scan.Enriches f f') :
    f'.get? "file" = f.get? "file" := by
  obtain rfl | ⟨fields, context, rfl, rfl⟩ := h
  · rfl
  · rw [Json.get?_obj, Json.get?_obj, Fields.get?_put_of_ne (by decide)]

theorem Survey.namesFile_of_mem_found (s : Survey pr w) : ∀ f ∈ s.found, namesFile f :=
  (s.forall_found_iff get?_file_of_enriches (fun field => ∃ file, field = some file)).2
    (namesFile_of_mem_foundBy w.processes)

/-! ## No such finding gets through -/

end PullRequest

/-- **A finding that names a file is never redacted.** -/
theorem Privacy.sanitizeFinding_of_file {f : Json} (h : namesFile f) {w w' : World}
    {r : Json × List String} : (sanitizeFinding f).run.run w ≠ (.ok r, w') := by
  intro hrun
  obtain ⟨file, hfile⟩ := h
  obtain ⟨fs, r', rfl, -, hfs⟩ | ⟨vs, rfl, -, -⟩ := redactRecord_cases hrun
  · obtain ⟨r₁, w₁, hcode, hrest⟩ := Run.bind_eq_ok.1 hfs
    obtain ⟨r₂, w₂, hcontext, hpath⟩ := Run.bind_eq_ok.1 hrest
    have hnone := (redactPath_eq_ok hpath).1
    rw [get?_of_redactAt hcontext (by decide), get?_of_redactAt hcode (by decide)] at hnone
    cases hnone.symm.trans hfile
  · cases hfile

namespace PullRequest

variable {sanitize : Json → Run (Json × List String)} {pr : PullRequest} {w : World}

/-- **Nothing is left to verify** where an inspection comes to its end. -/
theorem Inspection.candidates_eq_nil (i : Inspection Privacy.sanitizeFinding pr w) :
    i.candidates = [] := by
  cases hcandidates : i.candidates with
  | nil => rfl
  | cons f fs =>
    exfalso
    obtain ⟨-, hfilter⟩ := inChanged_eq_ok.1 i.candidates_eq
    have hfound : f ∈ i.found := by
      have hmem : f ∈ i.candidates := hcandidates ▸ List.mem_cons_self
      rw [hfilter] at hmem
      exact List.mem_of_mem_filter hmem
    have hfirst := i.judged_eq
    rw [hcandidates, mostVerified, List.take_succ_cons] at hfirst
    have hjudged := i.after_eq
    cases hall : i.judged with
    | nil =>
      rw [hall] at hfirst
      cases hfirst
    | cons j js =>
      rw [hall] at hfirst hjudged
      obtain ⟨rfl, -⟩ := List.cons.inj hfirst
      -- the first finding that is judged has been redacted before, and it names a file
      cases hjudged with
      | cons hclean hverify hrest =>
        exact Privacy.sanitizeFinding_of_file (i.namesFile_of_mem_found _ hfound) hclean

/-- **A review that has something to verify does not come to the end of its inspection.** -/
theorem not_nonempty_inspection (hw : w.Willing)
    (hsome : ∃ f ∈ Scan.foundBy reportedTools w.processes, isChanged w.pullFiles f ≠ .ok false) :
    ¬ Nonempty (Inspection Privacy.sanitizeFinding pr w) := by
  rintro ⟨i⟩
  obtain ⟨hok, hfilter⟩ := inChanged_eq_ok.1 i.candidates_eq
  rw [i.candidates_eq_nil, eq_comm, List.filter_eq_nil_iff] at hfilter
  rw [(i.of_willing hw).1] at hok hfilter
  obtain ⟨f, hf, hchanged⟩ := hsome
  have hcarry := (i.forall_found_iff (isChanged_of_enriches w.pullFiles) (· = .ok false)).1
  refine hchanged (hcarry (fun g hg => ?_) f hf)
  have hgok := hok g hg
  have hgout := hfilter g hg
  rw [liesIn] at hgout
  cases hg' : isChanged w.pullFiles g with
  | error e =>
    rw [hg'] at hgok
    cases hgok
  | ok b =>
    rw [hg'] at hgout
    cases b with
    | false => rfl
    | true => exact absurd rfl hgout

/-- **A review that does not come to the end of its inspection complains.** -/
theorem exists_complaint (hready : Ready pr w) (hnone : ¬ Nonempty (Inspection sanitize pr w)) :
    ∃ e w', (pr.review sanitize).run.run w =
      (.ok [s!"Error processing PR: {Failure.message e}"], w') := by
  obtain ⟨s⟩ := hready.nonempty_survey
  have hinspect := s.run_inspect sanitize
  rcases hrun : (pr.inspect sanitize).run.run w with ⟨e | _ | ⟨dir, found⟩, w'⟩
  · refine ⟨e, w', ?_⟩
    have hprocess : (pr.process sanitize).run.run w = (.error e, w') := by
      rw [process_eq, Run.run_bind_error hrun]
    rw [review, Run.run_bind, Run.run_tryCatch, Run.run_bind_error hprocess]
    rfl
  · -- the clone succeeded, so there is something to report
    rw [hrun] at hinspect
    obtain ⟨candidates, w₁, -, hrest⟩ := Run.bind_eq_ok.1 hinspect.symm
    obtain ⟨found, w₂, -, hlast⟩ := Run.bind_eq_ok.1 hrest
    cases hlast
  · obtain ⟨i, -⟩ := exists_inspection hrun
    exact absurd ⟨i⟩ hnone

/-! ## What is said -/

/-- A confirmed finding with a text for its file can be commented at its line. -/
theorem exists_lineComment (pr : PullRequest) (dir : String) {j : Json × Verdict}
    (h : ∃ file, j.1.get? "file" = some (.str file)) : ∃ c, pr.lineComment dir j = .ok c := by
  obtain ⟨f, v⟩ := j
  obtain ⟨file, hfile⟩ := h
  cases f with
  | obj fields =>
    obtain ⟨severity, hseverity⟩ : ∃ severity, v.shownSeverity (.obj fields) = .ok severity := by
      unfold Verdict.shownSeverity
      split <;> exact ⟨_, rfl⟩
    obtain ⟨text, htext⟩ : ∃ text, v.comment (.obj fields) = .ok text := by
      rw [Verdict.comment, hseverity]
      exact ⟨_, rfl⟩
    rw [Json.get?_obj] at hfile
    rw [lineComment, htext, Json.getD_obj, Json.getD_obj, hfile]
    exact ⟨_, rfl⟩
  | _ => cases hfile

/-- Comments on all lines can be written if each can. -/
theorem exists_mapM_lineComment (pr : PullRequest) (dir : String) {found : List (Json × Verdict)}
    (h : ∀ j ∈ found, ∃ file, j.1.get? "file" = some (.str file)) :
    ∃ cs, found.mapM (pr.lineComment dir) = .ok cs := by
  induction found with
  | nil => exact ⟨[], rfl⟩
  | cons j js ih =>
    obtain ⟨hj, hjs⟩ := List.forall_mem_cons.1 h
    obtain ⟨c, hc⟩ := exists_lineComment pr dir hj
    obtain ⟨cs, hcs⟩ := ih hjs
    refine ⟨c :: cs, ?_⟩
    rw [List.mapM_cons, hc, hcs]
    rfl

/-- **When a review gives its verdict.** Where nothing outside stands in the way, a review gives the
all-clear exactly if every finding of the tools is known to lie outside the changed files, and else it
says nothing and ends with a complaint. For redactions at large, a review is silent exactly if its
inspection does not come to the end; if it does, it leaves one comment that says how the review ended,
and one on the line of each confirmed finding. -/
theorem review_speaks_iff (hready : Ready pr w) :
    (Run.comments (pr.review Privacy.sanitizeFinding) w = [.issueComment (.str allClear)] ↔
      ∀ f ∈ Scan.foundBy reportedTools w.processes, isChanged w.pullFiles f = .ok false) ∧
    ((∃ f ∈ Scan.foundBy reportedTools w.processes, isChanged w.pullFiles f ≠ .ok false) →
      Run.comments (pr.review Privacy.sanitizeFinding) w = [] ∧
        ∃ e w', (pr.review Privacy.sanitizeFinding).run.run w =
          (.ok [s!"Error processing PR: {Failure.message e}"], w')) ∧
    ∀ sanitize : Json → Run (Json × List String), (∀ f, Run.Keeps World.hostSide (sanitize f)) →
      (Run.comments (pr.review sanitize) w = [] ↔ ¬ Nonempty (Inspection sanitize pr w)) ∧
      ∀ s : Inspection sanitize pr w,
        (∀ j ∈ s.outcome, ∃ file, j.1.get? "file" = some (.str file)) →
        ∃ cs, s.outcome.mapM (pr.lineComment s.dir) = .ok cs ∧
          Run.comments (pr.review sanitize) w =
            .issueComment (.str (announcement s.outcome)) :: cs := by
  have hquiet := Privacy.hostSide_sanitizeFinding
  have hsilent (hsome : ∃ f ∈ Scan.foundBy reportedTools w.processes,
      isChanged w.pullFiles f ≠ .ok false) :
      Run.comments (pr.review Privacy.sanitizeFinding) w = [] :=
    comments_review_of_no_inspection hquiet (not_nonempty_inspection hready.host hsome)
  refine ⟨⟨fun hclear => ?_, comments_review_of_unchanged hquiet hready⟩, fun hsome => ?_,
    fun sanitize hkeeps => ⟨⟨?_, comments_review_of_no_inspection hkeeps⟩, fun s hfiles => ?_⟩⟩
  · -- a finding of which this is not known would silence the review
    by_contra hsome
    push Not at hsome
    rw [hsilent hsome] at hclear
    cases hclear
  · exact ⟨hsilent hsome, exists_complaint hready (not_nonempty_inspection hready.host hsome)⟩
  · rintro hnone ⟨s⟩
    rw [comments_review_of_inspection hkeeps s] at hnone
    exact comments_report_ne_nil (s.willing hkeeps hready.host) _ _ hnone
  · obtain ⟨cs, hcs⟩ := exists_mapM_lineComment pr s.dir hfiles
    refine ⟨cs, hcs, ?_⟩
    rw [comments_review_of_inspection hkeeps s]
    exact comments_report (s.willing hkeeps hready.host) hcs

/-- A finding in another file than the changed one leads to the all-clear. -/
theorem review_speaks_of_other_file : Ready smallPull (smallWorld "b.py" oneFinding) ∧
    Run.comments (smallPull.review Privacy.sanitizeFinding) (smallWorld "b.py" oneFinding) =
      [.issueComment (.str allClear)] := by
  have hready := ready_small "b.py" oneFinding
  have hfound : Scan.foundBy reportedTools (smallWorld "b.py" oneFinding).processes = [weakHash] :=
    foundBy_oneFinding
  refine ⟨hready, (review_speaks_iff hready).1.2 fun f hf => ?_⟩
  rw [hfound, List.mem_singleton] at hf
  rw [hf]
  rfl

/-- **One finding in a changed file silences the review**, although nothing stands in its way. -/
theorem review_silenced_by_finding : Ready smallPull (smallWorld "a.py" oneFinding) ∧
    Run.comments (smallPull.review Privacy.sanitizeFinding) (smallWorld "a.py" oneFinding) = [] := by
  have hready := ready_small "a.py" oneFinding
  have hfound : Scan.foundBy reportedTools (smallWorld "a.py" oneFinding).processes = [weakHash] :=
    foundBy_oneFinding
  have hchanged : isChanged (smallWorld "a.py" oneFinding).pullFiles weakHash = .ok true := rfl
  refine ⟨hready, comments_review_of_no_inspection Privacy.hostSide_sanitizeFinding
    (not_nonempty_inspection hready.host ⟨weakHash, ?_, ?_⟩)⟩
  · rw [hfound]
    exact List.mem_singleton_self _
  · rw [hchanged]
    nofun

end PullRequest

end SecureReview
