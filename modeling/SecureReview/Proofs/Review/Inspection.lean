import SecureReview.Proofs.Review.Quiet
import SecureReview.Proofs.Scan.Repository
import SecureReview.Review.PullRequest
/-!
# Inspections of pull requests

A review inspects a pull request and then reports what it found
(`process_eq`). An inspection gets to its end in one way only: the clients
are made, the repository is cloned, the listing, the scans and the
selection of findings come through, and each finding that is put to the
verifier is judged. The structure `Inspection` holds what happened at
each of these stages, and **an inspection comes to its end exactly if
there is one** (`Inspection.run_inspect`, `exists_inspection`).
-/

namespace SecureReview

/-! ## Findings in changed files -/

section FilterM

variable {α : Type} {g : α → Except Failure Bool}

/-- A selection succeeds if every choice does, and then takes what was chosen. -/
theorem filterAuxM_eq_ok {xs acc ys : List α} : xs.filterAuxM g acc = .ok ys ↔
    (∀ x ∈ xs, (g x).isOk = true) ∧
      ys = (xs.filter fun x => (g x).toOption.getD false).reverse ++ acc := by
  -- what was chosen so far is kept the other way round
  induction xs generalizing acc with
  | nil => exact ⟨fun h => ⟨nofun, (Except.ok.inj h).symm⟩, fun h => congrArg Except.ok h.2.symm⟩
  | cons x xs ih =>
    rw [List.filterAuxM, List.forall_mem_cons]
    cases hx : g x with
    | error e => simp [bind, Except.bind, Except.isOk, Except.toBool]
    | ok b =>
      have hstep : (Except.ok b >>= fun b => xs.filterAuxM g (cond b (x :: acc) acc)) =
        xs.filterAuxM g (cond b (x :: acc) acc) := rfl
      rw [hstep, ih]
      cases b <;> simp [hx, Except.isOk, Except.toBool, Except.toOption]

end FilterM

namespace PullRequest

variable {sanitize : Json → Run (Json × List String)} {v : Verifier} {pr : PullRequest}
variable {w w' : World}

/-- The finding is known to lie in a changed file. -/
def liesIn (changed : List String) (finding : Json) : Bool :=
  (isChanged changed finding).toOption.getD false

/-- **The findings in changed files** are selected in order, if it can be told of each whether it
lies in one. -/
theorem inChanged_eq_ok {changed : List String} {fs candidates : List Json} :
    inChanged changed fs = .ok candidates ↔
      (∀ f ∈ fs, (isChanged changed f).isOk = true) ∧ candidates = fs.filter (liesIn changed) := by
  have hreverse : inChanged changed fs =
      (fs.filterAuxM (isChanged changed) [] >>= fun chosen => pure chosen.reverse) := rfl
  rw [hreverse, Run.except_bind_eq_ok]
  constructor
  · rintro ⟨chosen, hchosen, hcandidates⟩
    obtain ⟨hall, rfl⟩ := filterAuxM_eq_ok.1 hchosen
    refine ⟨hall, (Except.ok.inj hcandidates).symm.trans ?_⟩
    rw [List.append_nil, List.reverse_reverse]
    rfl
  · rintro ⟨hall, rfl⟩
    refine ⟨_, filterAuxM_eq_ok.2 ⟨hall, rfl⟩, ?_⟩
    rw [List.append_nil, List.reverse_reverse]
    rfl

/-! ## Scans of the repository -/

/-- The tools whose findings are reported. -/
def reportedTools : List Scan.Tool :=
  [.bandit, .eslint .javascript]

theorem exists_attempt_of_scanner {language : String} {s : Scan.Scanner}
    (h : Scan.scannerFor? language = some s) (path : String) (w : World) :
    ∃ fs w', (Scan.Toolbox.attempt {} path language).run.run w = (.ok (language, fs), w') ∧
      List.Forall₂ Scan.Enriches (Scan.foundBy s.tools w.processes) fs ∧
      w'.processes = w.processes.drop s.tools.length := by
  obtain ⟨fs, w', hrun, henriches, hkept⟩ := Scan.exists_scanLanguage h path w
  refine ⟨fs, w', ?_, henriches, ?_⟩
  · rw [Scan.Toolbox.run_attempt, hrun]
    rfl
  · rw [← Scan.processes_afterTools path]
    exact congrArg (·.2.2) hkept

/-- **What a scanned repository reports** are the findings of the two tools, each with its context
or without, whatever the scans of the other languages come to. -/
theorem exists_scanRepository (path : String) (w : World) :
    ∃ results w', (Scan.Toolbox.scanRepository {} path).run.run w = (.ok results, w') ∧
      List.Forall₂ Scan.Enriches (Scan.foundBy reportedTools w.processes) (reportable results) := by
  have hscanner : Scan.scannerFor? "python" = some .bandit := by decide
  have hscanner' : Scan.scannerFor? "javascript" = some .eslint := by decide
  obtain ⟨python, w₁, hpython, hfound, hleft⟩ := exists_attempt_of_scanner hscanner path w
  obtain ⟨javascript, w₂, hjavascript, hfound', -⟩ := exists_attempt_of_scanner hscanner' path w₁
  obtain ⟨others, w₃, hothers, -⟩ :=
    Scan.Toolbox.exists_attempts {} path ["typescript", "go", "rust"] w₂
  refine ⟨("python", python) :: ("javascript", javascript) :: others, w₃, ?_, ?_⟩
  · have hsteps : Scan.Toolbox.scanRepository {} path =
        Scan.repositoryLanguages.mapM (Scan.Toolbox.attempt {} path) := rfl
    rw [hsteps, Scan.repositoryLanguages, List.mapM_cons, Run.run_bind_ok hpython, List.mapM_cons]
    rw [Run.run_bind_ok ((Run.run_bind_ok hjavascript).trans (Run.run_bind_ok hothers))]
    rfl
  · have hreported : reportable (("python", python) :: ("javascript", javascript) :: others) =
        python ++ (javascript ++ []) := rfl
    -- the second tool takes the item of the script that the first one has left
    rw [hleft] at hfound'
    rw [hreported, List.append_nil,
      show reportedTools = [.bandit] ++ [.eslint .javascript] from rfl, Scan.foundBy_append]
    exact List.rel_append hfound hfound'

/-! ## Verdicts -/

/-- From one world to the other, these findings were redacted and put to the verifier in turn, and
these are its verdicts. -/
inductive Judged (sanitize : Json → Run (Json × List String)) (v : Verifier) :
    World → List (Json × Verdict) → World → Prop
  | nil {w : World} : Judged sanitize v w [] w
  | cons {w w₁ w₂ w₃ : World} {finding clean : Json} {log : List String} {verdict : Verdict}
      {judged : List (Json × Verdict)} :
      (sanitize finding).run.run w = (.ok (clean, log), w₁) →
      (v.verify clean true).run.run w₁ = (.ok verdict, w₂) →
      Judged sanitize v w₂ judged w₃ → Judged sanitize v w ((finding, verdict) :: judged) w₃

/-- The verdict confirms the finding. -/
def isConfirmed (j : Json × Verdict) : Bool :=
  decide (j.2.decision = .truePositive)

/-- **The confirmed findings** are those of all that were judged. -/
theorem confirmed_eq_ok {fs : List Json} {found : List (Json × Verdict)} :
    (confirmed sanitize v fs).run.run w = (.ok found, w') ↔
      ∃ judged, Judged sanitize v w judged w' ∧ judged.map Prod.fst = fs ∧
        judged.filter isConfirmed = found := by
  induction fs generalizing w found with
  | nil =>
    constructor
    · intro h
      cases h
      exact ⟨[], .nil, rfl, rfl⟩
    · rintro ⟨judged, hjudged, hfs, rfl⟩
      obtain rfl := List.map_eq_nil_iff.1 hfs
      cases hjudged
      rfl
  | cons f fs ih =>
    constructor
    · intro h
      obtain ⟨⟨clean, log⟩, w₁, hclean, h⟩ := Run.bind_eq_ok.1 h
      obtain ⟨verdict, w₂, hverdict, h⟩ := Run.bind_eq_ok.1 h
      obtain ⟨others, w₃, hothers, h⟩ := Run.bind_eq_ok.1 h
      cases h
      obtain ⟨judged, hjudged, rfl, rfl⟩ := ih.1 hothers
      refine ⟨(f, verdict) :: judged, .cons hclean hverdict hjudged, rfl, ?_⟩
      rw [List.filter_cons]
      simp only [isConfirmed, decide_eq_true_eq]
    · rintro ⟨judged, hjudged, hfs, rfl⟩
      cases hjudged with
      | nil => cases hfs
      | @cons _ w₁ w₂ _ finding clean log verdict judged hclean hverdict hjudged =>
        obtain ⟨rfl, rfl⟩ := List.cons.inj hfs
        rw [confirmed, Run.run_bind_ok hclean, Run.run_bind_ok hverdict,
          Run.run_bind_ok (ih.2 ⟨judged, hjudged, rfl, rfl⟩), Run.run_pure, List.filter_cons]
        simp only [isConfirmed, decide_eq_true_eq]

theorem hostSide_confirmed (hquiet : ∀ f, Run.Keeps World.hostSide (sanitize f)) (v : Verifier)
    (fs : List Json) : Run.Keeps World.hostSide (confirmed sanitize v fs) := by
  induction fs with
  | nil => exact Run.keeps_pure _
  | cons f fs ih =>
    exact (hquiet f).bind fun _ => (v.hostSide_verify _ _).bind fun _ => ih.bind fun _ =>
      Run.keeps_pure _

/-! ## From the settings to the verdicts -/

/-- Clone, scan and verify. The answer is the directory of the clone and the confirmed findings, if
the repository could be cloned. -/
def inspect (sanitize : Json → Run (Json × List String)) (pr : PullRequest) :
    Run (Option (String × List (Json × Verdict))) := do
  let s ← Run.settings
  let client ← Run.ofExcept (HostClient.create none s)
  let verifier ← Run.ofExcept (Verifier.create none s)
  let dir ← Run.ofExcept pr.cloneDir
  Run.setFiles ((← Run.files).makeDir dir)
  if !(← client.clone pr.repo (.str dir) .null) then
    return none
  let changed ← HostClient.changedFiles pr.repo pr.number
  let results ← Scan.Toolbox.scanRepository {} dir
  let candidates ← Run.ofExcept (inChanged changed (reportable results))
  let found ← confirmed sanitize verifier (candidates.take mostVerified)
  return some (dir, found)

/-- Report what an inspection came to, and clear the clone away. -/
def conclude (pr : PullRequest) : Option (String × List (Json × Verdict)) → Run (List String)
  | none => return ["Failed to clone repository"]
  | some (dir, found) => do
    pr.report dir found
    Run.setFiles ((← Run.files).removeTree dir)
    return []

/-- **A review inspects, and then it reports.** -/
theorem process_eq (sanitize : Json → Run (Json × List String)) (pr : PullRequest) :
    pr.process sanitize = pr.inspect sanitize >>= pr.conclude := by
  unfold process inspect
  simp only [bind_assoc]
  refine bind_congr fun s => bind_congr fun client => bind_congr fun verifier =>
    bind_congr fun dir => bind_congr fun fs => bind_congr fun _ => bind_congr fun cloned => ?_
  cases cloned with
  | false => rfl
  | true =>
    simp only [Bool.not_true, Bool.false_eq_true, if_false, bind_assoc, pure_bind]
    rfl

/-- What an inspection has to go by before it looks at single findings. -/
structure Overview where
  verifier : Verifier
  dir : String
  changed : List String
  results : List (String × List Json)

/-- Clone, list and scan, if the repository can be cloned. -/
def survey (pr : PullRequest) : Run (Option Overview) := do
  let s ← Run.settings
  let client ← Run.ofExcept (HostClient.create none s)
  let verifier ← Run.ofExcept (Verifier.create none s)
  let dir ← Run.ofExcept pr.cloneDir
  Run.setFiles ((← Run.files).makeDir dir)
  if !(← client.clone pr.repo (.str dir) .null) then
    return none
  let changed ← HostClient.changedFiles pr.repo pr.number
  let results ← Scan.Toolbox.scanRepository {} dir
  return some ⟨verifier, dir, changed, results⟩

/-- Select the findings in changed files, and have the first of them judged. -/
def judge (sanitize : Json → Run (Json × List String)) :
    Option Overview → Run (Option (String × List (Json × Verdict)))
  | none => return none
  | some o => do
    let candidates ← Run.ofExcept (inChanged o.changed (reportable o.results))
    let found ← confirmed sanitize o.verifier (candidates.take mostVerified)
    return some (o.dir, found)

/-- **An inspection is a survey, and then findings are judged.** -/
theorem inspect_eq (sanitize : Json → Run (Json × List String)) (pr : PullRequest) :
    pr.inspect sanitize = pr.survey >>= judge sanitize := by
  unfold inspect survey
  simp only [bind_assoc]
  refine bind_congr fun s => bind_congr fun client => bind_congr fun verifier =>
    bind_congr fun dir => bind_congr fun fs => bind_congr fun _ => bind_congr fun cloned => ?_
  cases cloned with
  | false => rfl
  | true =>
    simp only [Bool.not_true, Bool.false_eq_true, if_false, bind_assoc, pure_bind]
    rfl

/-- **A survey of a pull request** that came to its end, with what happened at each of its stages. -/
structure Survey (pr : PullRequest) (w : World) where
  client : HostClient
  verifier : Verifier
  dir : String
  changed : List String
  results : List (String × List Json)
  cloned : World
  listed : World
  scanned : World
  client_eq : HostClient.create none w.settings = .ok client
  verifier_eq : Verifier.create none w.settings = .ok verifier
  dir_eq : pr.cloneDir = .ok dir
  cloned_eq : (client.clone pr.repo (.str dir) .null).run.run
    { w with files := w.files.makeDir dir } = (.ok true, cloned)
  listed_eq : (HostClient.changedFiles pr.repo pr.number).run.run cloned = (.ok changed, listed)
  scanned_eq : (Scan.Toolbox.scanRepository {} dir).run.run listed = (.ok results, scanned)

/-- **An inspection that came to its end**: the findings in changed files were selected, and the first
of them judged. -/
structure Inspection (sanitize : Json → Run (Json × List String)) (pr : PullRequest) (w : World)
    extends Survey pr w where
  candidates : List Json
  judged : List (Json × Verdict)
  after : World
  candidates_eq : inChanged changed (reportable results) = .ok candidates
  judged_eq : judged.map Prod.fst = candidates.take mostVerified
  after_eq : Judged sanitize verifier scanned judged after

namespace Survey

/-- What a survey comes to. -/
def overview (s : Survey pr w) : Overview :=
  ⟨s.verifier, s.dir, s.changed, s.results⟩

theorem run_survey (s : Survey pr w) : pr.survey.run.run w = (.ok (some s.overview), s.scanned) := by
  have hsettings : Run.settings.run.run w = (.ok w.settings, w) := rfl
  have hfiles : Run.files.run.run w = (.ok w.files, w) := rfl
  have hmade : (Run.setFiles (w.files.makeDir s.dir)).run.run w =
    (.ok (), { w with files := w.files.makeDir s.dir }) := rfl
  rw [survey, Run.run_bind_ok hsettings, s.client_eq, Run.run_bind_ok Run.run_ofExcept,
    s.verifier_eq, Run.run_bind_ok Run.run_ofExcept, s.dir_eq, Run.run_bind_ok Run.run_ofExcept,
    Run.run_bind_ok hfiles, Run.run_bind_ok hmade, Run.run_bind_ok s.cloned_eq]
  rw [if_neg (by decide), Run.run_bind_ok s.listed_eq, Run.run_bind_ok s.scanned_eq, Run.run_pure,
    overview]

/-- What is left to do after a survey: select findings, and have them judged. -/
def rest (s : Survey pr w) (sanitize : Json → Run (Json × List String)) :
    Run (Option (String × List (Json × Verdict))) := do
  let candidates ← Run.ofExcept (inChanged s.changed (reportable s.results))
  let found ← confirmed sanitize s.verifier (candidates.take mostVerified)
  return some (s.dir, found)

theorem run_inspect (s : Survey pr w) (sanitize : Json → Run (Json × List String)) :
    (pr.inspect sanitize).run.run w = (s.rest sanitize).run.run s.scanned := by
  rw [inspect_eq, Run.run_bind_ok s.run_survey]
  rfl

end Survey

/-- **A survey comes to its end in one way only.** -/
theorem exists_survey {o : Overview} (h : pr.survey.run.run w = (.ok (some o), w')) :
    ∃ s : Survey pr w, s.overview = o ∧ s.scanned = w' := by
  obtain ⟨settings, w₁, hsettings, h⟩ := Run.bind_eq_ok.1 h
  obtain ⟨client, w₂, hcreate, h⟩ := Run.bind_eq_ok.1 h
  obtain ⟨verifier, w₃, hcreate', h⟩ := Run.bind_eq_ok.1 h
  obtain ⟨dir, w₄, hname, h⟩ := Run.bind_eq_ok.1 h
  obtain ⟨fs, w₅, hfiles, h⟩ := Run.bind_eq_ok.1 h
  obtain ⟨_, w₆, hmade, h⟩ := Run.bind_eq_ok.1 h
  obtain ⟨ok, cloned, hcloned, h⟩ := Run.bind_eq_ok.1 h
  cases hsettings
  obtain ⟨hclient, rfl⟩ := Run.ofExcept_eq_ok.1 hcreate
  obtain ⟨hverifier, rfl⟩ := Run.ofExcept_eq_ok.1 hcreate'
  obtain ⟨hdir, rfl⟩ := Run.ofExcept_eq_ok.1 hname
  cases hfiles
  cases hmade
  cases ok with
  | false => cases h
  | true =>
    rw [if_neg (by decide)] at h
    obtain ⟨changed, listed, hlisted, h⟩ := Run.bind_eq_ok.1 h
    obtain ⟨results, scanned, hscanned, h⟩ := Run.bind_eq_ok.1 h
    obtain ⟨hoverview, rfl⟩ := Prod.mk.inj h
    exact ⟨⟨client, verifier, dir, changed, results, cloned, listed, _, hclient, hverifier, hdir,
      hcloned, hlisted, hscanned⟩, Option.some.inj (Except.ok.inj hoverview), rfl⟩

namespace Inspection

/-- What there is to report. -/
def outcome (s : Inspection sanitize pr w) : List (Json × Verdict) :=
  s.judged.filter isConfirmed

theorem run_confirmed (s : Inspection sanitize pr w) :
    (confirmed sanitize s.verifier (s.candidates.take mostVerified)).run.run s.scanned =
      (.ok s.outcome, s.after) :=
  confirmed_eq_ok.2 ⟨s.judged, s.after_eq, s.judged_eq, rfl⟩

theorem run_inspect (s : Inspection sanitize pr w) :
    (pr.inspect sanitize).run.run w = (.ok (some (s.dir, s.outcome)), s.after) := by
  rw [s.toSurvey.run_inspect, Survey.rest, s.candidates_eq, Run.run_bind_ok Run.run_ofExcept,
    Run.run_bind_ok s.run_confirmed, Run.run_pure]

end Inspection

/-- **An inspection comes to its end in one way only.** -/
theorem exists_inspection {dir : String} {found : List (Json × Verdict)}
    (h : (pr.inspect sanitize).run.run w = (.ok (some (dir, found)), w')) :
    ∃ s : Inspection sanitize pr w, s.dir = dir ∧ s.outcome = found ∧ s.after = w' := by
  rw [inspect_eq] at h
  obtain ⟨o | o, scanned, hsurvey, h⟩ := Run.bind_eq_ok.1 h
  · cases h
  · obtain ⟨s, rfl, rfl⟩ := exists_survey hsurvey
    obtain ⟨candidates, w₁, hselect, h⟩ := Run.bind_eq_ok.1 h
    obtain ⟨hcandidates, rfl⟩ := Run.ofExcept_eq_ok.1 hselect
    obtain ⟨found', after, hconfirmed, h⟩ := Run.bind_eq_ok.1 h
    obtain ⟨hanswer, rfl⟩ := Prod.mk.inj h
    obtain ⟨rfl, rfl⟩ := Prod.mk.inj (Option.some.inj (Except.ok.inj hanswer))
    obtain ⟨judged, hjudged, hfirst, hfound⟩ := confirmed_eq_ok.1 hconfirmed
    exact ⟨⟨s, candidates, judged, _, hcandidates, hfirst, hjudged⟩, rfl, hfound, rfl⟩

/-! ## What a survey goes by -/

namespace Survey

/-- The findings of the reported languages. -/
def found (s : Survey pr w) : List Json :=
  reportable s.results

/-- Cloning leaves alone what the next stages read. -/
theorem kept_by_clone (s : Survey pr w) : s.cloned.host = w.host ∧
    s.cloned.pullFiles = w.pullFiles ∧ s.cloned.processes = w.processes := by
  obtain ⟨w₁, hrun, -, hkept⟩ := s.client.run_clone pr.repo (.str s.dir) .null
    { w with files := w.files.makeDir s.dir }
  obtain ⟨-, rfl⟩ := Prod.mk.inj (hrun.symm.trans s.cloned_eq)
  exact hkept

/-- **What is found is what the reported tools report**, each finding with its context or without. -/
theorem enriches_found (s : Survey pr w) :
    List.Forall₂ Scan.Enriches (Scan.foundBy reportedTools w.processes) s.found := by
  have hlisted : s.listed.processes = s.cloned.processes := by
    have hkeeps : Run.Keeps World.processes (HostClient.changedFiles pr.repo pr.number) :=
      HostClient.keeps_changedFiles (fun _ _ _ => rfl) pr.repo pr.number
    simpa [s.listed_eq] using hkeeps s.cloned
  obtain ⟨results, w₁, hrun, henriches⟩ := exists_scanRepository s.dir s.listed
  obtain ⟨hresults, -⟩ := Prod.mk.inj (hrun.symm.trans s.scanned_eq)
  rw [hlisted, s.kept_by_clone.2.2, Except.ok.inj hresults] at henriches
  exact henriches

/-- **The changed files are those of the pull request**, or none if the host refuses to list them. -/
theorem changed_cases (s : Survey pr w) :
    ((HostClient.listing pr.repo pr.number).run.run s.cloned = (.ok w.pullFiles, s.listed) ∧
      s.changed = w.pullFiles) ∨
    ((HostClient.listing pr.repo pr.number).run.run s.cloned = (.error .hostError, s.listed) ∧
      s.changed = []) := by
  obtain ⟨hrun, hchanged⟩ | hrefused := HostClient.changedFiles_eq_ok s.listed_eq
  · rw [s.kept_by_clone.2.1] at hchanged
    exact Or.inl ⟨hchanged ▸ hrun, hchanged⟩
  · exact Or.inr hrefused

end Survey

/-! ## Comments of a review -/

/-- **An inspection leaves no comment.** -/
theorem callsOnly_inspect (hquiet : ∀ f, Run.Keeps World.hostSide (sanitize f))
    (pr : PullRequest) :
    Run.CallsOnly (fun c => c.isComment = false) (pr.inspect sanitize) := by
  have hclone (client : HostClient) (dir : String) : Run.CallsOnly (fun c => c.isComment = false)
      (client.clone pr.repo (.str dir) .null) := by
    intro w
    obtain ⟨w', hrun, hcalls, -⟩ := client.run_clone pr.repo (.str dir) .null w
    rw [hrun]
    exact ⟨_, hcalls, by simp [HostCall.isComment]⟩
  have hlist : Run.CallsOnly (fun c => c.isComment = false)
      (HostClient.changedFiles pr.repo pr.number) :=
    HostClient.callsOnly_changedFiles rfl rfl rfl
  refine Run.Keeps.callsOnly (fun _ => rfl) |>.bind fun s => ?_
  refine (Run.keeps_ofExcept _).callsOnly.bind fun client => ?_
  refine (Run.keeps_ofExcept _).callsOnly.bind fun verifier => ?_
  refine (Run.keeps_ofExcept _).callsOnly.bind fun dir => ?_
  refine Run.keeps_files.callsOnly.bind fun fs => ?_
  refine Run.Keeps.callsOnly (fun _ => rfl) |>.bind fun _ => ?_
  refine (hclone client dir).bind fun cloned => ?_
  split
  · exact (Run.keeps_pure _).callsOnly
  · refine hlist.bind fun changed => ?_
    refine (Scan.hostSide_scanRepository dir).callsOnly.bind fun results => ?_
    refine (Run.keeps_ofExcept _).callsOnly.bind fun candidates => ?_
    exact (hostSide_confirmed hquiet verifier _).callsOnly.bind fun found =>
      (Run.keeps_pure _).callsOnly

end PullRequest

end SecureReview
