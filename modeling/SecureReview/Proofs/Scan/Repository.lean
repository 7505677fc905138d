import SecureReview.Proofs.Scan.Contexts
/-!
# Scans of a repository

The languages of a repository are scanned in turn, and the scan of each
language starts in the world that the one before it left. The relation
`InTurn` says so, and **a repository scan is one in turn**
(`Toolbox.inTurn_of_run`) that always comes to its end
(`Toolbox.exists_inTurn`): a scan that fails reports nothing, and
takes nothing from the others (`InTurn.lookup_eq`). With the tools
themselves none fails, and each finding is reported with its context.
-/

namespace SecureReview.Scan

namespace Toolbox

variable {t u : Toolbox} {path language : String} {w w' : World}

/-- The scan of one language of a repository. A scan that fails reports nothing. -/
def attempt (t : Toolbox) (path language : String) : Run (String × List Json) :=
  try
    return (language, ← t.scanLanguage path language)
  catch _ => return (language, [])

/-- What the end of a scan is reported as: its findings, or none if it failed. -/
def reportOf : Except Failure (List Json) × World → List Json × World
  | (.ok fs, w) => (fs, w)
  | (.error _, w) => ([], w)

theorem reportOf_snd (r : Except Failure (List Json) × World) : (reportOf r).2 = r.2 := by
  rcases r with ⟨_ | _, _⟩ <;> rfl

/-- **An attempt never fails.** -/
theorem run_attempt (t : Toolbox) (path language : String) (w : World) :
    (t.attempt path language).run.run w =
      (.ok (language, (reportOf ((t.scanLanguage path language).run.run w)).1),
        (reportOf ((t.scanLanguage path language).run.run w)).2) := by
  rw [attempt, Run.run_bind, Run.run_tryCatch]
  rcases hrun : (t.scanLanguage path language).run.run w with ⟨_ | fs, w₁⟩
  · rw [Run.run_bind_error hrun]
    rfl
  · rw [Run.run_bind_ok hrun]
    rfl

/-- **Languages are scanned in turn**: each scan starts in the world that the one before it left, and
its end is reported under its language. -/
inductive InTurn (t : Toolbox) (path : String) :
    List String → World → List (String × List Json) → World → Prop where
  | done (w : World) : InTurn t path [] w [] w
  | next {language : String} {languages : List String} {w w₁ w₂ : World} {found : List Json}
      {results : List (String × List Json)}
      (hscan : reportOf ((t.scanLanguage path language).run.run w) = (found, w₁))
      (hrest : InTurn t path languages w₁ results w₂) :
      InTurn t path (language :: languages) w ((language, found) :: results) w₂

theorem exists_attempts (t : Toolbox) (path : String) (languages : List String) (w : World) :
    ∃ results w', (languages.mapM (t.attempt path)).run.run w = (.ok results, w') ∧
      t.InTurn path languages w results w' := by
  induction languages generalizing w with
  | nil => exact ⟨[], w, rfl, .done w⟩
  | cons language languages ih =>
    obtain ⟨results, w', hrun, hturn⟩ := ih (reportOf ((t.scanLanguage path language).run.run w)).2
    refine ⟨_, w', ?_, .next (Prod.eta _).symm hturn⟩
    rw [List.mapM_cons, Run.run_bind_ok (run_attempt t path language w), Run.run_bind_ok hrun]
    rfl

/-- **A repository scan comes to its end**, its languages scanned in turn. -/
theorem exists_inTurn (t : Toolbox) (path : String) (w : World) :
    ∃ results w', (t.scanRepository path).run.run w = (.ok results, w') ∧
      t.InTurn path repositoryLanguages w results w' :=
  exists_attempts t path repositoryLanguages w

theorem inTurn_of_run {results : List (String × List Json)}
    (h : (t.scanRepository path).run.run w = (.ok results, w')) :
    t.InTurn path repositoryLanguages w results w' := by
  obtain ⟨results', w₁, hrun, hturn⟩ := t.exists_inTurn path w
  obtain ⟨hresults, rfl⟩ := Prod.mk.inj (h.symm.trans hrun)
  obtain rfl := Except.ok.inj hresults
  exact hturn

/-- Two sets of parts scan a path alike but for one language, and leave the same behind there. -/
structure AlikeBut (t u : Toolbox) (path broken : String) : Prop where
  others : ∀ language ∈ repositoryLanguages, language ≠ broken → ∀ w,
    (t.scanLanguage path language).run.run w = (u.scanLanguage path language).run.run w
  left : ∀ w, ((t.scanLanguage path broken).run.run w).2 = ((u.scanLanguage path broken).run.run w).2

/-- **What a scan comes to makes no difference to the others.** -/
theorem InTurn.lookup_eq {broken : String} (h : AlikeBut t u path broken) {languages : List String}
    (hknown : ∀ language ∈ languages, language ∈ repositoryLanguages)
    {results results' : List (String × List Json)} {w₁ w₂ : World}
    (ht : t.InTurn path languages w results w₁) (hu : u.InTurn path languages w results' w₂) :
    ∀ language ≠ broken, results.lookup language = results'.lookup language := by
  induction ht generalizing results' with
  | done w =>
    cases hu
    exact fun _ _ => rfl
  | @next language languages w w₁ _ found results hscan hrest ih =>
    obtain ⟨hlanguage, hlanguages⟩ := List.forall_mem_cons.1 hknown
    cases hu with
    | @next _ _ _ w₁' _ found' results' hscan' hrest' =>
      by_cases hbroken : language = broken
      · -- both go on in the same world
        subst hbroken
        obtain rfl : w₁ = w₁' := by
          have hleft := h.left w
          rwa [← reportOf_snd, ← reportOf_snd, hscan, hscan'] at hleft
        intro other hother
        have hne : (other == language) = false := beq_false_of_ne hother
        rw [List.lookup_cons, List.lookup_cons, hne]
        exact ih hlanguages hrest' other hother
      · have hsame := hscan.symm.trans ((congrArg reportOf (h.others _ hlanguage hbroken w)).trans hscan')
        obtain ⟨rfl, rfl⟩ := Prod.mk.inj hsame
        intro other hother
        rw [List.lookup_cons, List.lookup_cons, ih hlanguages hrest' other hother]

end Toolbox

/-- **Contexts lose nothing**, and neither do scans that fail. A language that has a scanner, as
those of a repository have, is scanned with the findings of its scanner, in order and each with its
fields and one more, its context. A repository has under each of its languages what the scan of that
language reports, and if it fails the others report the same as ever. -/
theorem findings_gain_contexts (path : String) :
    (∀ language ∈ repositoryLanguages, (scannerFor? language).isSome = true) ∧
    (∀ (language : String) (s : Scanner), scannerFor? language = some s → ∀ w,
      ∃ found fs w₁ w₂, (s.scan path).run.run w = (.ok found, w₁) ∧
        (Toolbox.scanLanguage {} path language).run.run w = (.ok fs, w₂) ∧
        List.Forall₂ GainsContext found fs) ∧
    (∀ (t : Toolbox) (w : World), ∃ results w',
      (t.scanRepository path).run.run w = (.ok results, w') ∧
        t.InTurn path repositoryLanguages w results w') ∧
    ∀ (t u : Toolbox) (broken : String), t.AlikeBut u path broken → ∀ w results results' w₁ w₂,
      (t.scanRepository path).run.run w = (.ok results, w₁) →
      (u.scanRepository path).run.run w = (.ok results', w₂) →
      ∀ language ≠ broken, results.lookup language = results'.lookup language := by
  refine ⟨by decide, ?_, fun t w => t.exists_inTurn path w, ?_⟩
  · intro language s hscanner w
    obtain ⟨fs, w₂, hrun, hgains, -⟩ := exists_gaining hscanner path w
    exact ⟨_, fs, _, w₂, run_scan hscanner path w, hrun, hgains⟩
  · intro t u broken halike w results results' w₁ w₂ ht hu
    exact (t.inTurn_of_run ht).lookup_eq halike (fun _ => id) (u.inTurn_of_run hu)

/-- The tools, but for one scanner that does as told. -/
def Toolbox.replacing (s : Scanner) (x : Run (List Json)) : Toolbox where
  scan s' path := if s' = s then x else s'.scan path

/-- A world in which the first tool reports a finding. -/
def oneReport : World :=
  { processes := [{ stdout := "\x7b\"results\": [\x7b\"filename\": \"a.py\"\x7d]\x7d" }] }

theorem found_oneReport : (foundBy [.bandit] oneReport.processes).length = 1 := by
  decide +kernel

theorem alikeBut_go (e : Failure) : Toolbox.AlikeBut (.replacing .gosec (throw e))
    (.replacing .gosec (pure [])) "." "go" where
  left w := rfl
  others := by
    intro language hlanguage hother w
    simp only [repositoryLanguages, List.mem_cons, List.not_mem_nil, or_false] at hlanguage
    obtain rfl | rfl | rfl | rfl | rfl := hlanguage
    · rfl
    · rfl
    · rfl
    · exact absurd rfl hother
    · rfl

/-- A finding in a file that is not there has a context as well, and a scan that breaks leaves the
findings in other languages. -/
theorem finding_kept_beside_failure :
    (∃ fs w', (Toolbox.scanLanguage {} "." "Python").run.run oneReport = (.ok fs, w') ∧
      fs.length = 1) ∧
    ∃ results results' w₁ w₂,
      (Toolbox.scanRepository (.replacing .gosec (throw (.broken "gosec"))) ".").run.run oneReport =
        (.ok results, w₁) ∧
      (Toolbox.scanRepository (.replacing .gosec (pure [])) ".").run.run oneReport =
        (.ok results', w₂) ∧
      results.lookup "python" = results'.lookup "python" := by
  obtain ⟨-, hscan, hturn, halike⟩ := findings_gain_contexts "."
  constructor
  · obtain ⟨found, fs, w₁, w₂, hfound, hrun, hgains⟩ := hscan "Python" .bandit (by decide) oneReport
    have hone : (foundBy [.bandit] oneReport.processes) = found :=
      Except.ok.inj (Prod.mk.inj ((run_one "." .bandit oneReport).symm.trans hfound)).1
    exact ⟨fs, w₂, hrun, by rw [← hgains.length_eq, ← hone, found_oneReport]⟩
  · obtain ⟨results, w₁, hrun, -⟩ := hturn (.replacing .gosec (throw (.broken "gosec"))) oneReport
    obtain ⟨results', w₂, hrun', -⟩ := hturn (.replacing .gosec (pure [])) oneReport
    refine ⟨results, results', w₁, w₂, hrun, hrun', ?_⟩
    exact halike _ _ "go" (alikeBut_go _) oneReport _ _ _ _ hrun hrun' "python" (by decide)

end SecureReview.Scan
