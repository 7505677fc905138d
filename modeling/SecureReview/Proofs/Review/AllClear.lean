import SecureReview.Proofs.Json.Reading
import SecureReview.Proofs.Review.Report
import SecureReview.Proofs.Verify.Degradation
/-!
# What the all-clear says

A review that comments that nothing was found has come to the end of an
inspection in which nothing was confirmed (`allClear_iff`). But a stage
that fails inside an inspection counts as one that finds nothing: a tool
that does not run, a listing that the host refuses, and every finding
after the tenth **leave no trace in the all-clear**.
-/

namespace SecureReview.PullRequest

variable {sanitize : Json → Run (Json × List String)} {pr : PullRequest} {w : World}

namespace Inspection

theorem outcome_eq_nil_iff (s : Inspection sanitize pr w) :
    s.outcome = [] ↔ ∀ j ∈ s.judged, j.2.decision ≠ .truePositive := by
  simp only [outcome, List.filter_eq_nil_iff, isConfirmed, decide_eq_true_eq]

/-- **The findings that are judged** are the first of those in changed files, in order. -/
theorem map_fst_judged (s : Inspection sanitize pr w) :
    s.judged.map Prod.fst = (s.found.filter (liesIn s.changed)).take mostVerified := by
  obtain ⟨-, hcandidates⟩ := inChanged_eq_ok.1 s.candidates_eq
  rw [s.judged_eq, hcandidates, Survey.found]

end Inspection

/-- **When a review gives the all-clear.** It does exactly if its inspection came to the end, none of
the findings that were judged was confirmed, and the pull request can still be looked up. In such an
inspection the files of the pull request were listed, or the host refused and no file counts as
changed; what was found are the findings of the tools that did not fail, each with its context or
without; and of those in changed files the first ten were redacted and judged. -/
theorem allClear_iff (hquiet : ∀ f, Run.Keeps World.hostSide (sanitize f)) (pr : PullRequest)
    (w : World) :
    (.issueComment (.str allClear) ∈ Run.comments (pr.review sanitize) w ↔
      ∃ s : Inspection sanitize pr w, (∀ j ∈ s.judged, j.2.decision ≠ .truePositive) ∧
        ∃ w', (HostClient.openPull pr.repo pr.number).run.run s.after = (.ok (), w')) ∧
    ∀ s : Inspection sanitize pr w,
      (((HostClient.listing pr.repo pr.number).run.run s.cloned = (.ok w.pullFiles, s.listed) ∧
          s.changed = w.pullFiles) ∨
        ((HostClient.listing pr.repo pr.number).run.run s.cloned = (.error .hostError, s.listed) ∧
          s.changed = [])) ∧
      List.Forall₂ Scan.Enriches
        ((Scan.working reportedTools w.processes).flatMap fun ran => ran.1.found ran.2) s.found ∧
      s.judged.map Prod.fst = (s.found.filter (liesIn s.changed)).take 10 := by
  refine ⟨⟨fun hposted => ?_, ?_⟩, fun s => ⟨s.changed_cases, ?_, s.map_fst_judged⟩⟩
  · -- without an inspection there would be no comment at all
    by_cases hinspected : Nonempty (Inspection sanitize pr w)
    · obtain ⟨s⟩ := hinspected
      rw [comments_review_of_inspection hquiet s, allClear_mem_report] at hposted
      exact ⟨s, s.outcome_eq_nil_iff.1 hposted.1, hposted.2⟩
    · rw [comments_review_of_no_inspection hquiet hinspected] at hposted
      cases hposted
  · rintro ⟨s, hjudged, hopen⟩
    rw [comments_review_of_inspection hquiet s, allClear_mem_report]
    exact ⟨s.outcome_eq_nil_iff.2 hjudged, hopen⟩
  · have hworking := Scan.foundBy_eq_working reportedTools w.processes
    exact hworking ▸ s.enriches_found

/-! ## Small reviews -/

def smallPull : PullRequest :=
  ⟨.str "o/r", .int 5, .str "sha1"⟩

/-- A world for a review, by the file that is changed and by what the tools do. -/
def smallWorld (file : String) (processes : List ProcessScript) : World :=
  { settings := { githubToken := some "t", openaiApiKey := some "k" }
    pullFiles := [file]
    processes := processes }

theorem ready_small (file : String) (processes : List ProcessScript) :
    Ready smallPull (smallWorld file processes) where
  client := ⟨_, rfl⟩
  verifier := ⟨_, rfl⟩
  dir := ⟨_, rfl⟩
  clone := rfl
  host := nofun

def weakHashReport : Json :=
  .obj [("results", .arr [.obj [
    ("issue_severity", .str "HIGH"), ("issue_confidence", .str "HIGH"),
    ("issue_text", .str "weak hash"), ("filename", .str "/app/cloned_repos/o_r_5/a.py"),
    ("line_number", .int 1), ("code", .str "md5(x)"), ("test_id", .str "B303")]])]

def weakHash : Json :=
  .obj [("tool", .str "bandit"), ("severity", .str "HIGH"), ("confidence", .str "HIGH"),
    ("description", .str "weak hash"), ("file", .str "/app/cloned_repos/o_r_5/a.py"),
    ("line", .int 1), ("code", .str "md5(x)"), ("rule_id", .str "B303")]

/-- The first tool reports a weak hash, and the second nothing. -/
def oneFinding : List ProcessScript :=
  [{ stdout := weakHashReport.compact }, { stdout := "[]" }]

/-- What is found where the first tool prints a report, and the second one an empty list. -/
theorem foundBy_report {report : Json} {found : List Json} (hkeys : report.distinctKeys = true)
    (hread : (report.getD "results" (.arr []) >>= Scan.Bandit.findings) = .ok found) :
    Scan.foundBy reportedTools [{ stdout := report.compact }, { stdout := "[]" }] = found := by
  have hbandit : Scan.Tool.bandit.read report.compact = .ok found := by
    rw [Scan.Tool.read, Scan.Bandit.read, Json.read, Json.parseString_compact hkeys]
    exact hread
  have heslint : (Scan.Tool.eslint .javascript).found { stdout := "[]" } = [] := by decide
  have hfound : Scan.Tool.bandit.found { stdout := report.compact } = found := by
    rw [Scan.Tool.found, hbandit]
    rfl
  rw [reportedTools, Scan.foundBy, Scan.foundBy, Scan.foundBy, List.headD_cons, List.tail_cons,
    List.headD_cons, heslint, hfound, List.append_nil, List.append_nil]

theorem foundBy_oneFinding : Scan.foundBy reportedTools oneFinding = [weakHash] :=
  foundBy_report (by decide) rfl

/-- A redaction that withholds every finding. -/
def withhold (_ : Json) : Run (Json × List String) :=
  return (.null, [])

/-- A finding that is withheld cannot be judged. -/
theorem verify_withheld (v : Verifier) (w : World) :
    ∃ verdict, (v.verify .null true).run.run w = (.ok verdict, w) ∧
      verdict.decision = .uncertain := by
  have hask : (v.ask .null true).run.run w = (.error (.noOperation "NoneType" "get"), w) := rfl
  have hverify := Verifier.verify_of_error hask
  rw [if_pos (by decide)] at hverify
  exact ⟨_, hverify, rfl⟩

/-- The weak hash is withheld, so it is not confirmed, and the all-clear is given. -/
theorem allClear_of_withheld : (∀ f, Run.Keeps World.hostSide (withhold f)) ∧
    .issueComment (.str allClear) ∈
      Run.comments (smallPull.review withhold) (smallWorld "a.py" oneFinding) := by
  have hquiet (f : Json) : Run.Keeps World.hostSide (withhold f) := Run.keeps_pure _
  refine ⟨hquiet, (allClear_iff hquiet smallPull _).1.2 ?_⟩
  have hready := ready_small "a.py" oneFinding
  obtain ⟨s⟩ := hready.nonempty_survey
  obtain ⟨hchanged, hwilling⟩ := s.of_willing hready.host
  have henriches : List.Forall₂ Scan.Enriches (Scan.foundBy reportedTools oneFinding) s.found :=
    s.enriches_found
  rw [foundBy_oneFinding] at henriches
  obtain ⟨f, rest, hf, hrest, hfound⟩ := List.forall₂_cons_left_iff.1 henriches
  obtain rfl := List.forall₂_nil_left_iff.1 hrest
  have hlies : isChanged s.changed f = .ok true := by
    rw [hchanged, isChanged_of_enriches _ _ _ hf]
    rfl
  have hcandidates : inChanged s.changed s.found = .ok [f] := by
    rw [hfound, inChanged_eq_ok]
    simp [hlies, liesIn, Except.isOk, Except.toBool, Except.toOption]
  obtain ⟨verdict, hverify, huncertain⟩ := verify_withheld s.verifier s.scanned
  let i : Inspection withhold smallPull (smallWorld "a.py" oneFinding) :=
    ⟨s, [f], [(f, verdict)], s.scanned, hcandidates, rfl, .cons rfl hverify .nil⟩
  obtain ⟨w', hopen, -⟩ := HostClient.exists_openPull hwilling smallPull.repo smallPull.number
  refine ⟨i, fun j hj => ?_, w', hopen⟩
  obtain rfl := List.mem_singleton.1 hj
  rw [huncertain]
  intro hconfirmed
  cases hconfirmed

/-- The first tool is not installed, and the second reports nothing. -/
def withoutBandit : List ProcessScript :=
  [{ fault := some .missing }, { stdout := "[]" }]

/-- **The all-clear is given although a tool did not run.** -/
theorem allClear_of_missing_tool :
    Scan.Tool.bandit.fails (smallWorld "a.py" withoutBandit).nextScript = true ∧
      Run.comments (smallPull.review Privacy.sanitizeFinding) (smallWorld "a.py" withoutBandit) =
        [.issueComment (.str allClear)] := by
  refine ⟨by decide, comments_review_of_unchanged Privacy.hostSide_sanitizeFinding
    (ready_small _ _) ?_⟩
  have hnothing : Scan.foundBy reportedTools (smallWorld "a.py" withoutBandit).processes = [] := by
    decide
  rw [hnothing]
  nofun

end SecureReview.PullRequest
