import SecureReview.Proofs.Review.Silence
import SecureReview.Proofs.Text.Search
/-!
# Findings that are handed to the redaction

To see what a review hands to the redaction, let the redaction note it
(`noting`). No stage of a review touches such notes, so what is noted at the
end are the findings that were handed over, in order (`handed`). They are
**the first of those selected**, up to ten and up to the first that fails
(`Survey.handed_of_selected`), and nothing is handed over before a survey has
come to its end.

A finding is selected if the name of a changed file occurs in the path of
its own. That is so of the findings in changed files
(`liesIn_of_isOneOf`), but also of others: a change to `a.py` selects what
was found in `data.py`.
-/

namespace SecureReview

/-- What has been noted. -/
def World.noted (w : World) : List Json :=
  w.trace.notes

theorem aside_noted : Aside World.noted where
  command _ _ := rfl
  trees _ _ := rfl
  personal _ _ _ := rfl
  model _ _ _ := rfl

namespace PullRequest

variable {sanitize : Json → Run (Json × List String)} {pr : PullRequest} {w : World}

/-- A redaction that notes every finding it is handed. -/
def noting (sanitize : Json → Run (Json × List String)) (finding : Json) :
    Run (Json × List String) := do
  Run.record fun t => { t with notes := t.notes ++ [finding] }
  sanitize finding

/-- **The findings that a review hands to the redaction**, in order. -/
def handed (sanitize : Json → Run (Json × List String)) (pr : PullRequest) (w : World) : List Json :=
  ((pr.review (noting sanitize)).run.run w).2.noted.drop w.noted.length

/-- The redaction leaves the notes alone. -/
def Discreet (sanitize : Json → Run (Json × List String)) : Prop :=
  ∀ f, Run.Keeps World.noted (sanitize f)

theorem discreet_sanitizeFinding : Discreet Privacy.sanitizeFinding :=
  aside_noted.sanitizeFinding

theorem discreet_withhold : Discreet withhold :=
  fun _ => Run.keeps_pure _

/-! ## Stages that leave the notes alone -/

theorem noted_clone (client : HostClient) (repo dir branch : Json) :
    Run.Keeps World.noted (client.clone repo dir branch) := by
  intro w
  obtain ⟨_, _, _, _, _, _, _, _, _, _, clones, _, _, _⟩ := w
  rcases clones with _ | ⟨_ | _ | _, clones⟩ <;> rfl

theorem noted_survey (pr : PullRequest) : Run.Keeps World.noted pr.survey := by
  refine Run.Keeps.bind (fun _ => rfl) fun s => ?_
  refine (Run.keeps_ofExcept _).bind fun client => ?_
  refine (Run.keeps_ofExcept _).bind fun verifier => ?_
  refine (Run.keeps_ofExcept _).bind fun dir => ?_
  refine Run.keeps_files.bind fun fs => ?_
  refine Run.Keeps.bind (fun _ => rfl) fun _ => ?_
  refine (noted_clone client _ _ _).bind fun cloned => ?_
  split
  · exact Run.keeps_pure _
  · refine (HostClient.keeps_changedFiles (fun _ _ _ => rfl) _ _).bind fun changed => ?_
    exact (aside_noted.scanRepository dir).bind fun results => Run.keeps_pure _

theorem noted_callHost (method : String) (c : HostCall) :
    Run.Keeps World.noted (Run.callHost method c) :=
  Run.keeps_callHost (fun _ _ _ => rfl) method c

/-- A comment of either kind looks the pull request up and makes one more call. -/
theorem noted_comment (repo number : Json) (method : String) (c : HostCall) :
    Run.Keeps World.noted (HostClient.onHostError false do
      HostClient.openPull repo number
      Run.callHost method c
      return true) := by
  have hopen : Run.Keeps World.noted (HostClient.openPull repo number) :=
    (noted_callHost _ _).bind fun _ => noted_callHost _ _
  exact HostClient.keeps_onHostError
    (hopen.bind fun _ => (noted_callHost method c).bind fun _ => Run.keeps_pure true)

theorem noted_reportOne (pr : PullRequest) (dir : String) (finding : Json) (verdict : Verdict) :
    Run.Keeps World.noted (pr.reportOne dir finding verdict) := by
  refine (Run.keeps_ofExcept _).bind fun comment => ?_
  refine (Run.keeps_ofExcept _).bind fun file => ?_
  refine (Run.keeps_ofExcept _).bind fun line => ?_
  refine (noted_comment _ _ _ _).bind fun taken => ?_
  split
  · refine (Run.keeps_ofExcept _).bind fun shown => ?_
    exact (noted_comment _ _ _ _).bind fun _ => Run.keeps_pure _
  · exact Run.keeps_pure _

theorem noted_report (pr : PullRequest) (dir : String) (found : List (Json × Verdict)) :
    Run.Keeps World.noted (pr.report dir found) := by
  have hlines : Run.Keeps World.noted (found.forM fun f => pr.reportOne dir f.1 f.2) := by
    induction found with
    | nil => exact Run.keeps_pure ()
    | cons f fs ih => exact (noted_reportOne pr dir f.1 f.2).bind fun _ => ih
  unfold report
  split
  · exact (noted_comment _ _ _ _).bind fun _ => Run.keeps_pure _
  · refine Run.Keeps.bind ?_ fun _ => hlines
    exact (noted_comment _ _ _ _).bind fun _ => Run.keeps_pure _

theorem noted_conclude (pr : PullRequest) (r : Option (String × List (Json × Verdict))) :
    Run.Keeps World.noted (pr.conclude r) := by
  unfold conclude
  split
  · exact Run.keeps_pure _
  · refine (noted_report pr _ _).bind fun _ => Run.keeps_files.bind fun fs => ?_
    exact Run.Keeps.bind (fun _ => rfl) fun _ => Run.keeps_pure _

/-- **What is noted in a review** is noted in its inspection. -/
theorem noted_review (sanitize : Json → Run (Json × List String)) (pr : PullRequest) (w : World) :
    ((pr.review sanitize).run.run w).2.noted = ((pr.inspect sanitize).run.run w).2.noted := by
  rw [world_review, process_eq]
  rcases hrun : (pr.inspect sanitize).run.run w with ⟨e | r, w'⟩
  · rw [Run.run_bind_error hrun]
  · rw [Run.run_bind_ok hrun]
    exact noted_conclude pr r w'

/-! ## Notes of a redaction -/

/-- The world after a finding was noted. -/
def noteIn (w : World) (finding : Json) : World :=
  { w with trace := { w.trace with notes := w.trace.notes ++ [finding] } }

theorem run_noting (sanitize : Json → Run (Json × List String)) (f : Json) (w : World) :
    (noting sanitize f).run.run w = (sanitize f).run.run (noteIn w f) :=
  Run.run_bind_ok rfl

theorem noted_noting (hsanitize : Discreet sanitize) (f : Json) (w : World) :
    ((noting sanitize f).run.run w).2.noted = w.noted ++ [f] := by
  rw [run_noting]
  exact hsanitize f (noteIn w f)

/-- **One finding** is noted, and then there is a failure or it goes on with the others. -/
theorem confirmed_cons_cases (hsanitize : Discreet sanitize) (v : Verifier) (f : Json)
    (fs : List Json) (w : World) :
    (∃ e w', (confirmed (noting sanitize) v (f :: fs)).run.run w = (.error e, w') ∧
      w'.noted = w.noted ++ [f]) ∨
    ∃ w', w'.noted = w.noted ++ [f] ∧
      ((confirmed (noting sanitize) v (f :: fs)).run.run w).2 =
        ((confirmed (noting sanitize) v fs).run.run w').2 ∧
      ((confirmed (noting sanitize) v (f :: fs)).run.run w).1.isOk =
        ((confirmed (noting sanitize) v fs).run.run w').1.isOk := by
  have hw₁ := noted_noting hsanitize f w
  rcases hclean : (noting sanitize f).run.run w with ⟨e | ⟨clean, log⟩, w₁⟩
  all_goals rw [hclean] at hw₁
  · refine Or.inl ⟨e, w₁, ?_, hw₁⟩
    rw [confirmed, Run.run_bind_error hclean]
  have hw₂ := aside_noted.verify v clean true w₁
  rcases hverify : (v.verify clean true).run.run w₁ with ⟨e | verdict, w₂⟩
  all_goals rw [hverify] at hw₂
  · refine Or.inl ⟨e, w₂, ?_, hw₂.trans hw₁⟩
    rw [confirmed, Run.run_bind_ok hclean, Run.run_bind_error hverify]
  refine Or.inr ⟨w₂, hw₂.trans hw₁, ?_⟩
  rw [confirmed, Run.run_bind_ok hclean, Run.run_bind_ok hverify]
  -- what is done with the verdict touches nothing
  rcases hrest : (confirmed (noting sanitize) v fs).run.run w₂ with ⟨e | others, w₃⟩
  · rw [Run.run_bind_error hrest]
    exact ⟨rfl, rfl⟩
  · rw [Run.run_bind_ok hrest, Run.run_pure]
    exact ⟨rfl, rfl⟩

/-- **Findings are handed over in turn**, up to the first that fails: the first of them if there is
one, and all of them if none fails. -/
theorem noted_confirmed (hsanitize : Discreet sanitize) (v : Verifier) (fs : List Json) (w : World) :
    ∃ given, ((confirmed (noting sanitize) v fs).run.run w).2.noted = w.noted ++ given ∧
      given <+: fs ∧ (fs ≠ [] → given ≠ []) ∧
      (((confirmed (noting sanitize) v fs).run.run w).1.isOk = true → given = fs) := by
  induction fs generalizing w with
  | nil => exact ⟨[], (List.append_nil _).symm, List.prefix_rfl, id, fun _ => rfl⟩
  | cons f fs ih =>
    rcases confirmed_cons_cases hsanitize v f fs w with
      ⟨e, w', hrun, hnoted⟩ | ⟨w', hnoted, hworld, hok⟩
    · rw [hrun]
      refine ⟨[f], hnoted, by simp, fun _ => List.cons_ne_nil f [], fun hall => ?_⟩
      cases hall
    · obtain ⟨given, hgiven, hlead, -, hall⟩ := ih w'
      rw [hworld, hok]
      refine ⟨f :: given, ?_, (List.prefix_cons_inj f).2 hlead, fun _ => List.cons_ne_nil f given,
        fun h => by rw [hall h]⟩
      rw [hgiven, hnoted, List.append_assoc]
      rfl

/-- A redaction that withholds everything is handed all findings. -/
theorem confirmed_withheld (v : Verifier) (fs : List Json) (w : World) :
    ∃ found w', (confirmed (noting withhold) v fs).run.run w = (.ok found, w') := by
  induction fs generalizing w with
  | nil => exact ⟨[], w, rfl⟩
  | cons f fs ih =>
    have hclean : (noting withhold f).run.run w = (.ok (.null, []), noteIn w f) :=
      run_noting withhold f w
    obtain ⟨verdict, hverify, -⟩ := verify_withheld v (noteIn w f)
    obtain ⟨others, w', hrest⟩ := ih (noteIn w f)
    rw [confirmed, Run.run_bind_ok hclean, Run.run_bind_ok hverify, Run.run_bind_ok hrest,
      Run.run_pure]
    exact ⟨_, w', rfl⟩

/-! ## What is handed over -/

/-- **Without a survey that came to its end** nothing is handed over. -/
theorem handed_of_no_survey (sanitize : Json → Run (Json × List String))
    (h : ¬ Nonempty (Survey pr w)) : handed sanitize pr w = [] := by
  have hkept := noted_survey pr w
  have hnoted : ((pr.inspect (noting sanitize)).run.run w).2.noted = w.noted := by
    rw [inspect_eq]
    rcases hrun : pr.survey.run.run w with ⟨e | o | o, w'⟩
    all_goals rw [hrun] at hkept
    · rw [Run.run_bind_error hrun]
      exact hkept
    · rw [Run.run_bind_ok hrun]
      exact hkept
    · obtain ⟨s, -⟩ := exists_survey hrun
      exact absurd ⟨s⟩ h
  rw [handed, noted_review, hnoted, List.drop_length]

namespace Survey

/-- A survey leaves the notes alone, so what is handed over is noted after it. -/
theorem handed_eq (s : Survey pr w) (sanitize : Json → Run (Json × List String)) :
    s.scanned.noted = w.noted ∧ handed sanitize pr w =
      ((s.rest (noting sanitize)).run.run s.scanned).2.noted.drop w.noted.length := by
  have hkept := noted_survey pr w
  rw [s.run_survey] at hkept
  exact ⟨hkept, by rw [handed, noted_review, s.run_inspect]⟩

/-- If it cannot be told of every finding whether it lies in a changed file, none is handed over. -/
theorem handed_of_error (s : Survey pr w) {e : Failure} (h : inChanged s.changed s.found = .error e)
    (sanitize : Json → Run (Json × List String)) : handed sanitize pr w = [] := by
  obtain ⟨hkept, hhanded⟩ := s.handed_eq sanitize
  have hselect : (Run.ofExcept (inChanged s.changed (reportable s.results))).run.run s.scanned =
      (.error e, s.scanned) := by
    rw [Run.run_ofExcept]
    exact congrArg (·, s.scanned) h
  rw [hhanded, rest, Run.run_bind_error hselect, hkept, List.drop_length]

/-- **The first of the selected findings are handed over**: at least one if there is one, and all ten
if none of them fails. -/
theorem handed_of_selected (s : Survey pr w) {candidates : List Json}
    (h : inChanged s.changed s.found = .ok candidates) (hsanitize : Discreet sanitize) :
    handed sanitize pr w <+: candidates.take mostVerified ∧
      (candidates ≠ [] → handed sanitize pr w ≠ []) ∧
      (((confirmed (noting sanitize) s.verifier (candidates.take mostVerified)).run.run
          s.scanned).1.isOk = true → handed sanitize pr w = candidates.take mostVerified) := by
  obtain ⟨hkept, hhanded⟩ := s.handed_eq sanitize
  have hselect : (Run.ofExcept (inChanged s.changed (reportable s.results))).run.run s.scanned =
      (.ok candidates, s.scanned) := by
    rw [Run.run_ofExcept]
    exact congrArg (·, s.scanned) h
  obtain ⟨given, hnoted, hgiven, hsome, hall⟩ :=
    noted_confirmed hsanitize s.verifier (candidates.take mostVerified) s.scanned
  have hend : handed sanitize pr w = given := by
    have hworld : ((s.rest (noting sanitize)).run.run s.scanned).2.noted = w.noted ++ given := by
      rw [rest, Run.run_bind_ok hselect, ← hkept, ← hnoted]
      rcases hrun : (confirmed (noting sanitize) s.verifier
        (candidates.take mostVerified)).run.run s.scanned with ⟨e | found, w'⟩
      · rw [Run.run_bind_error hrun]
      · rw [Run.run_bind_ok hrun, Run.run_pure]
    rw [hhanded, hworld, List.drop_left]
  rw [hend]
  refine ⟨hgiven, fun hne => hsome fun hnil => hne ?_, hall⟩
  rcases List.take_eq_nil_iff.1 hnil with hzero | hnone
  · exact absurd hzero (by decide)
  · exact hnone

end Survey

/-! ## Changed files -/

/-- The file of the finding is one of these files of the clone. -/
def isOneOf (dir : String) (names : List String) (finding : Json) : Bool :=
  match finding.get? "file" with
  | some (.str file) => names.any fun name => file == dir ++ "/" ++ name
  | _ => false

theorem isOneOf_iff {dir : String} {names : List String} {f : Json} :
    isOneOf dir names f = true ↔
      ∃ name ∈ names, f.get? "file" = some (.str (dir ++ "/" ++ name)) := by
  unfold isOneOf
  split
  · next file hfile => simp [hfile]
  · next hother =>
    refine iff_of_false (by decide) ?_
    rintro ⟨name, -, hfile⟩
    exact hother _ hfile

/-- **A finding with a text for its file is selected** by the names that occur in the text. -/
theorem isChanged_of_text {f : Json} {file : String} (h : f.get? "file" = some (.str file))
    (changed : List String) :
    isChanged changed f = .ok (changed.any fun name => Text.contains file name) := by
  cases f with
  | obj fields =>
    rw [Json.get?_obj] at h
    rw [isChanged, Json.getD_obj, h]
    exact List.anyM_pure
  | _ => cases h

theorem liesIn_iff {f : Json} {file : String} (h : f.get? "file" = some (.str file))
    (changed : List String) :
    liesIn changed f = true ↔ ∃ name ∈ changed, name.toList <:+: file.toList := by
  rw [liesIn, isChanged_of_text h]
  change (changed.any fun name => Text.contains file name) = true ↔ _
  simp only [List.any_eq_true, Text.contains_iff]

/-- A finding in a changed file is selected. -/
theorem liesIn_of_isOneOf {dir : String} {changed : List String} {f : Json}
    (h : isOneOf dir changed f = true) : liesIn changed f = true := by
  obtain ⟨name, hname, hfile⟩ := isOneOf_iff.1 h
  refine (liesIn_iff hfile changed).2 ⟨name, hname, ?_⟩
  rw [String.toList_append]
  exact (List.suffix_append _ _).isInfix

/-- What begins a selection, and has a property that only what is selected has, begins the findings
with that property. -/
theorem prefix_filter {α : Type} {p q : α → Bool} {l given : List α} {n : Nat}
    (hpq : ∀ a, q a = true → p a = true) (hgiven : given <+: (l.filter p).take n)
    (hall : ∀ a ∈ (l.filter p).take n, q a = true) : given <+: l.filter q := by
  have hboth : l.filter q = (l.filter p).filter q := by
    rw [List.filter_filter]
    refine List.filter_congr fun a _ => ?_
    cases hq : q a with
    | false => rfl
    | true => simp [hpq a hq]
  rw [hboth, ← List.take_append_drop n (l.filter p), List.filter_append, List.filter_eq_self.2 hall]
  exact hgiven.trans (List.prefix_append _ _)

/-- **What a review hands to the redaction.** Without a survey it is nothing. After one it is a
beginning of the first ten findings that are selected, where the name of a changed file occurs in the
path. So for every redaction only findings in changed files are handed over, from the first on and at
most ten, exactly if the first ten that are selected, where a selection is possible, are all in
changed files. -/
theorem handed_only_changed_iff (pr : PullRequest) (w : World) :
    (¬ Nonempty (Survey pr w) → ∀ sanitize, handed sanitize pr w = []) ∧
    ∀ s : Survey pr w,
      (∀ sanitize, Discreet sanitize →
        handed sanitize pr w <+: (s.found.filter (liesIn s.changed)).take 10) ∧
      (∀ (f : Json) (file : String), f.get? "file" = some (.str file) →
        (liesIn s.changed f = true ↔ ∃ name ∈ s.changed, name.toList <:+: file.toList)) ∧
      ((∀ sanitize, Discreet sanitize →
          handed sanitize pr w <+: s.found.filter (isOneOf s.dir s.changed) ∧
            (handed sanitize pr w).length ≤ 10) ↔
        ((∀ f ∈ s.found, (isChanged s.changed f).isOk = true) →
          ∀ f ∈ (s.found.filter (liesIn s.changed)).take 10,
            ∃ name ∈ s.changed, f.get? "file" = some (.str (s.dir ++ "/" ++ name)))) := by
  refine ⟨fun h sanitize => handed_of_no_survey sanitize h, fun s => ?_⟩
  -- what is handed over, by whether there is a selection
  have hgiven : ∀ sanitize, Discreet sanitize → handed sanitize pr w = [] ∨
      (∀ f ∈ s.found, (isChanged s.changed f).isOk = true) ∧
        handed sanitize pr w <+: (s.found.filter (liesIn s.changed)).take 10 := by
    intro sanitize hsanitize
    rcases hselect : inChanged s.changed s.found with e | candidates
    · exact Or.inl (s.handed_of_error hselect sanitize)
    · obtain ⟨hok, rfl⟩ := inChanged_eq_ok.1 hselect
      exact Or.inr ⟨hok, (s.handed_of_selected hselect hsanitize).1⟩
  refine ⟨fun sanitize hsanitize => ?_, fun f file hfile => liesIn_iff hfile s.changed, ?_, ?_⟩
  · rcases hgiven sanitize hsanitize with hnone | ⟨-, hfirst⟩
    · rw [hnone]
      exact List.nil_prefix
    · exact hfirst
  · -- a redaction that withholds everything is handed all ten
    intro hlaw hok f hf
    have hselect := inChanged_eq_ok.2 ⟨hok, rfl⟩
    obtain ⟨found, w', hrun⟩ := confirmed_withheld s.verifier
      ((s.found.filter (liesIn s.changed)).take mostVerified) s.scanned
    have hall := (s.handed_of_selected hselect discreet_withhold).2.2 (by rw [hrun]; rfl)
    have hlead := (hlaw withhold discreet_withhold).1
    rw [hall] at hlead
    exact isOneOf_iff.1 (List.mem_filter.1 (hlead.subset hf)).2
  · intro hchanged sanitize hsanitize
    rcases hgiven sanitize hsanitize with hnone | ⟨hok, hfirst⟩
    · rw [hnone]
      exact ⟨by simp, by simp⟩
    · have hall := fun f hf => isOneOf_iff.2 (hchanged hok f hf)
      refine ⟨prefix_filter (fun f => liesIn_of_isOneOf) hfirst hall, ?_⟩
      exact hfirst.length_le.trans (List.length_take_le 10 _)

/-! ## Small reviews with one finding -/

/-- A survey of a small review in which one thing is found. -/
theorem Survey.of_small {name : String} {processes : List ProcessScript} {g : Json}
    (s : Survey smallPull (smallWorld name processes))
    (hfound : Scan.foundBy reportedTools processes = [g]) :
    s.dir = "/app/cloned_repos/o_r_5" ∧ s.changed = [name] ∧
      ∃ f, s.found = [f] ∧ f.get? "file" = g.get? "file" := by
  have hdir : smallPull.cloneDir = .ok "/app/cloned_repos/o_r_5" := rfl
  have henriches : List.Forall₂ Scan.Enriches (Scan.foundBy reportedTools processes) s.found :=
    s.enriches_found
  rw [hfound] at henriches
  obtain ⟨f, rest, hf, hrest, hall⟩ := List.forall₂_cons_left_iff.1 henriches
  obtain rfl := List.forall₂_nil_left_iff.1 hrest
  refine ⟨(Except.ok.inj (hdir.symm.trans s.dir_eq)).symm, ?_, f, hall, get?_file_of_enriches g f hf⟩
  exact (s.of_willing (ready_small name processes).host).1

/-- Where the file with the finding is the changed one, the law holds for every redaction. -/
theorem handed_only_changed_small : Discreet Privacy.sanitizeFinding ∧
    ∃ s : Survey smallPull (smallWorld "a.py" oneFinding), s.found.length = 1 ∧
      ∀ sanitize, Discreet sanitize →
        handed sanitize smallPull (smallWorld "a.py" oneFinding) <+:
            s.found.filter (isOneOf s.dir s.changed) ∧
          (handed sanitize smallPull (smallWorld "a.py" oneFinding)).length ≤ 10 := by
  obtain ⟨s⟩ := (ready_small "a.py" oneFinding).nonempty_survey
  obtain ⟨hdir, hchanged, f, hfound, hfile⟩ := s.of_small foundBy_oneFinding
  refine ⟨discreet_sanitizeFinding, s, by rw [hfound]; rfl, ?_⟩
  refine (((handed_only_changed_iff smallPull _).2 s).2.2.2 fun _ g hg => ?_)
  have hmem : g ∈ s.found := List.mem_of_mem_filter (List.mem_of_mem_take hg)
  rw [hfound, List.mem_singleton] at hmem
  rw [hmem, hdir, hchanged, hfile]
  exact ⟨"a.py", List.mem_singleton_self _, rfl⟩

/-- A weak hash in a file of the clone that is called `data.py`. -/
def dataReport : Json :=
  .obj [("results", .arr [.obj [
    ("issue_severity", .str "HIGH"), ("issue_confidence", .str "HIGH"),
    ("issue_text", .str "weak hash"), ("filename", .str "/app/cloned_repos/o_r_5/data.py"),
    ("line_number", .int 1), ("code", .str "md5(x)"), ("test_id", .str "B303")]])]

def dataFinding : Json :=
  .obj [("tool", .str "bandit"), ("severity", .str "HIGH"), ("confidence", .str "HIGH"),
    ("description", .str "weak hash"), ("file", .str "/app/cloned_repos/o_r_5/data.py"),
    ("line", .int 1), ("code", .str "md5(x)"), ("rule_id", .str "B303")]

/-- **A finding in another file is handed over** where only `a.py` has changed. -/
theorem handed_of_other_file :
    ∃ s : Survey smallPull
        (smallWorld "a.py" [{ stdout := dataReport.compact }, { stdout := "[]" }]),
      s.dir = "/app/cloned_repos/o_r_5" ∧ s.changed = ["a.py"] ∧
      ∃ f, f.get? "file" = some (.str "/app/cloned_repos/o_r_5/data.py") ∧
        handed Privacy.sanitizeFinding smallPull
          (smallWorld "a.py" [{ stdout := dataReport.compact }, { stdout := "[]" }]) = [f] ∧
        s.found.filter (isOneOf s.dir s.changed) = [] := by
  obtain ⟨s⟩ :=
    (ready_small "a.py" [{ stdout := dataReport.compact }, { stdout := "[]" }]).nonempty_survey
  obtain ⟨hdir, hchanged, f, hfound, hfile⟩ := s.of_small (foundBy_report (by decide) rfl : _ = [dataFinding])
  have hdata : f.get? "file" = some (.str "/app/cloned_repos/o_r_5/data.py") := hfile
  have hlies : isChanged s.changed f = .ok true := by
    rw [hchanged, isChanged_of_text hdata]
    rfl
  have hselect : inChanged s.changed s.found = .ok [f] := by
    rw [hfound, inChanged_eq_ok]
    simp [hlies, liesIn, Except.isOk, Except.toBool, Except.toOption]
  obtain ⟨hlead, hsome, -⟩ := s.handed_of_selected hselect discreet_sanitizeFinding
  have hother : isOneOf s.dir s.changed f = false := by
    rw [hdir, hchanged, isOneOf, hdata]
    rfl
  refine ⟨s, hdir, hchanged, f, hdata, ?_, by rw [hfound]; simp [hother]⟩
  exact hlead.eq_of_length_le (List.length_pos_iff.2 (hsome (List.cons_ne_nil _ _)))

end PullRequest

end SecureReview
