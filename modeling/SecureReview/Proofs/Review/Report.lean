import SecureReview.Proofs.Json.Fields
import SecureReview.Proofs.Review.Inspection
/-!
# Comments that a review leaves

A review comments only when it reports, and it reports only after an
inspection that came to its end: its comments are those of the report on
that inspection (`comments_review_of_inspection`), and **without one there
is none** (`comments_review_of_no_inspection`). Which texts a report can leave is
said once (`callsOnly_report`); they differ in their first character.
-/

namespace SecureReview

theorem Run.CallsOnly.discard {α : Type} {x : Run α} {p : HostCall → Prop} (h : CallsOnly p x) :
    CallsOnly p (discard x : Run Unit) :=
  h.bind fun _ => (keeps_pure ()).callsOnly

theorem Run.world_discard {α : Type} (x : Run α) (w : World) :
    ((discard x : Run Unit).run.run w).2 = (x.run.run w).2 := by
  have hbind : (discard x : Run Unit) = x >>= fun _ => pure () := rfl
  rw [hbind, run_bind]
  rcases x.run.run w with ⟨_ | _, w'⟩ <;> rfl

namespace PullRequest

variable {sanitize : Json → Run (Json × List String)} {pr : PullRequest} {w w' : World}

/-! ## Texts -/

/-- The comment that stands in for one on a line. -/
def inPlace (path line comment : String) : String :=
  s!"**{path}:{line}**\n\n{comment}"

theorem head?_append {s t : String} {c : Char} (h : s.toList.head? = some c) :
    (s ++ t).toList.head? = some c := by
  rw [String.toList_append, List.head?_append, h, Option.some_or]

theorem inPlace_ne_allClear (path line comment : String) : inPlace path line comment ≠ allClear := by
  intro h
  have hfirst : (inPlace path line comment).toList.head? = some '*' :=
    head?_append (head?_append (head?_append (head?_append (head?_append (by decide)))))
  rw [h] at hfirst
  exact absurd hfirst (by decide)

theorem summary_ne_allClear (count : Nat) : summary count ≠ allClear := by
  intro h
  have hfirst : (summary count).toList.head? = some '🔒' :=
    head?_append (head?_append (head?_append (by decide)))
  rw [h] at hfirst
  exact absurd hfirst (by decide)

/-! ## Calls -/

variable {p : HostCall → Prop}

theorem callsOnly_reportOne (dir : String) (finding : Json) (verdict : Verdict)
    (hrepo : p (.getRepo pr.repo)) (hpull : p (.getPull pr.number))
    (hline : ∀ body path line, p (.reviewComment body pr.head path line))
    (hplace : ∀ path line comment, p (.issueComment (.str (inPlace path line comment)))) :
    Run.CallsOnly p (pr.reportOne dir finding verdict) := by
  refine (Run.keeps_ofExcept _).callsOnly.bind fun comment => ?_
  refine (Run.keeps_ofExcept _).callsOnly.bind fun file => ?_
  refine (Run.keeps_ofExcept _).callsOnly.bind fun line => ?_
  refine (HostClient.callsOnly_commentLine hrepo hpull (hline _ _ _)).bind fun taken => ?_
  split
  · refine (Run.keeps_ofExcept _).callsOnly.bind fun shown => ?_
    exact (HostClient.callsOnly_comment hrepo hpull (hplace _ _ _)).discard
  · exact (Run.keeps_pure _).callsOnly

/-- **What a report asks of the host**: it looks the pull request up, announces what was found, and
comments on the lines, or on the pull request in their place. -/
theorem callsOnly_report (dir : String) (found : List (Json × Verdict))
    (hrepo : p (.getRepo pr.repo)) (hpull : p (.getPull pr.number))
    (hclear : found = [] → p (.issueComment (.str allClear)))
    (hsummary : p (.issueComment (.str (summary found.length))))
    (hline : ∀ body path line, p (.reviewComment body pr.head path line))
    (hplace : ∀ path line comment, p (.issueComment (.str (inPlace path line comment)))) :
    Run.CallsOnly p (pr.report dir found) := by
  have hone (f : Json × Verdict) : Run.CallsOnly p (pr.reportOne dir f.1 f.2) :=
    callsOnly_reportOne dir f.1 f.2 hrepo hpull hline hplace
  have hannounce : Run.CallsOnly p
      (HostClient.comment pr.repo pr.number (.str (summary found.length))) :=
    HostClient.callsOnly_comment hrepo hpull hsummary
  unfold report
  split
  · next hnone =>
    have hnothing := hclear (List.isEmpty_iff.1 hnone)
    exact (HostClient.callsOnly_comment hrepo hpull hnothing).discard
  · exact hannounce.discard.bind fun _ => Run.CallsOnly.forM hone found

/-- A text that a report on some findings cannot have is not among its comments. -/
theorem not_mem_report {dir text : String} {found : List (Json × Verdict)} (hfound : found ≠ [])
    (hsummary : summary found.length ≠ text)
    (hplace : ∀ path line comment, inPlace path line comment ≠ text) (w : World) :
    .issueComment (.str text) ∉ Run.comments (pr.report dir found) w := by
  have honly : Run.CallsOnly (· ≠ .issueComment (.str text)) (pr.report dir found) := by
    refine callsOnly_report dir found nofun nofun (fun hnil => absurd hnil hfound) ?_ nofun ?_
    · exact fun h => hsummary (Json.str.inj (HostCall.issueComment.inj h))
    · exact fun path line comment h =>
        hplace path line comment (Json.str.inj (HostCall.issueComment.inj h))
  obtain ⟨cs, hcalls, hcs⟩ := honly w
  rw [Run.comments_eq hcalls]
  exact fun hmem => hcs _ (List.mem_of_mem_filter hmem) rfl

/-- **A report on nothing gives the all-clear** if the pull request can be looked up, and only such a
report does. -/
theorem allClear_mem_report {dir : String} {found : List (Json × Verdict)} :
    .issueComment (.str allClear) ∈ Run.comments (pr.report dir found) w ↔
      found = [] ∧ ∃ w', (HostClient.openPull pr.repo pr.number).run.run w = (.ok (), w') := by
  cases found with
  | cons f fs =>
    refine iff_of_false ?_ fun h => by cases h.1
    exact not_mem_report (List.cons_ne_nil f fs) (summary_ne_allClear _) inPlace_ne_allClear w
  | nil =>
    have honly : Run.CallsOnly (fun _ => True)
        (HostClient.comment pr.repo pr.number (.str allClear)) :=
      HostClient.callsOnly_comment trivial trivial trivial
    obtain ⟨cs, hcalls, -⟩ := honly w
    have hworld : ((pr.report dir []).run.run w).2 =
        ((HostClient.comment pr.repo pr.number (.str allClear)).run.run w).2 :=
      Run.world_discard _ w
    rw [Run.comments_eq (hworld ▸ hcalls), List.mem_filter, HostClient.mem_calls_comment hcalls]
    simp [HostCall.isComment]

/-! ## Reviews -/

/-- Whether trouble comes up or not, a review leaves the world in which its work ended. -/
theorem world_review (sanitize : Json → Run (Json × List String)) (pr : PullRequest) (w : World) :
    ((pr.review sanitize).run.run w).2 = ((pr.process sanitize).run.run w).2 := by
  rw [review, Run.run_bind, Run.run_tryCatch]
  rcases hrun : (pr.process sanitize).run.run w with ⟨_ | _, w'⟩
  · rw [Run.run_bind_error hrun]
    rfl
  · rw [Run.run_bind_ok hrun]
    rfl

theorem comments_review (sanitize : Json → Run (Json × List String)) (pr : PullRequest)
    (w : World) : Run.comments (pr.review sanitize) w = Run.comments (pr.process sanitize) w := by
  rw [Run.comments, world_review, Run.comments]

theorem callsOnly_conclude (pr : PullRequest) (r : Option (String × List (Json × Verdict))) :
    Run.CallsOnly (fun _ => True) (pr.conclude r) := by
  unfold conclude
  split
  · exact (Run.keeps_pure _).callsOnly
  · refine Run.CallsOnly.bind ?_ fun _ => Run.keeps_files.callsOnly.bind fun fs =>
      (Run.Keeps.callsOnly fun _ => rfl).bind fun _ => (Run.keeps_pure _).callsOnly
    exact callsOnly_report _ _ trivial trivial (fun _ => trivial) trivial (fun _ _ _ => trivial)
      fun _ _ _ => trivial

/-- **The comments of a review are those of its report.** -/
theorem comments_review_of_inspection (hquiet : ∀ f, Run.Keeps World.hostSide (sanitize f))
    (s : Inspection sanitize pr w) :
    Run.comments (pr.review sanitize) w = Run.comments (pr.report s.dir s.outcome) s.after := by
  have hinspect := callsOnly_inspect hquiet pr
  have hconclude : Run.comments (pr.conclude (some (s.dir, s.outcome))) s.after =
      Run.comments (pr.report s.dir s.outcome) s.after :=
    Run.comments_bind_of_keeps (fun _ => Run.keeps_files.bind fun fs =>
      Run.Keeps.bind (fun _ => rfl) fun _ => Run.keeps_pure _) s.after
  rw [comments_review, process_eq,
    Run.comments_bind hinspect (callsOnly_conclude pr _) s.run_inspect,
    Run.comments_of_callsOnly hinspect, List.nil_append, hconclude]

/-- **Without an inspection that came to its end there is no comment.** -/
theorem comments_review_of_no_inspection (hquiet : ∀ f, Run.Keeps World.hostSide (sanitize f))
    (h : ¬ Nonempty (Inspection sanitize pr w)) : Run.comments (pr.review sanitize) w = [] := by
  have hnone := Run.comments_of_callsOnly (callsOnly_inspect hquiet pr) w
  rw [comments_review, process_eq, Run.comments]
  rw [Run.comments] at hnone
  rcases hrun : (pr.inspect sanitize).run.run w with ⟨e | _ | ⟨dir, found⟩, w'⟩
  · rw [hrun] at hnone
    rw [Run.run_bind_error hrun]
    exact hnone
  · rw [hrun] at hnone
    rw [Run.run_bind_ok hrun]
    exact hnone
  · obtain ⟨s, -⟩ := exists_inspection hrun
    exact absurd ⟨s⟩ h

/-! ## Reviews that nothing stands in the way of -/

/-- Nothing outside stands in the way of a review: it has its clients and a place for the clone, the
repository can be cloned, and the host takes every call. -/
structure Ready (pr : PullRequest) (w : World) : Prop where
  client : ∃ client, HostClient.create none w.settings = .ok client
  verifier : ∃ verifier, Verifier.create none w.settings = .ok verifier
  dir : ∃ dir, pr.cloneDir = .ok dir
  clone : w.clones.headD .ok = .ok
  host : w.Willing

/-- A willing host lists the files, and is willing after the scans. -/
theorem Survey.of_willing (s : Survey pr w) (hw : w.Willing) :
    s.changed = w.pullFiles ∧ s.scanned.Willing := by
  have hcloned : s.cloned.Willing := World.willing_of_host s.kept_by_clone.1 hw
  obtain ⟨w₂, hlist, htook⟩ := HostClient.exists_changedFiles hcloned pr.repo pr.number
  obtain ⟨hchanged, rfl⟩ := Prod.mk.inj (hlist.symm.trans s.listed_eq)
  have hscanned : s.scanned.host = s.listed.host := by
    have hkept := Scan.hostSide_scanRepository s.dir s.listed
    rw [s.scanned_eq] at hkept
    exact congrArg (·.1) hkept
  exact ⟨(Except.ok.inj hchanged).symm.trans s.kept_by_clone.2.1,
    World.willing_of_host hscanned htook.willing⟩

theorem Inspection.willing (hquiet : ∀ f, Run.Keeps World.hostSide (sanitize f))
    (s : Inspection sanitize pr w) (hw : w.Willing) : s.after.Willing := by
  have hkept := hostSide_confirmed hquiet s.verifier (s.candidates.take mostVerified) s.scanned
  rw [s.run_confirmed] at hkept
  exact World.willing_of_host (congrArg (·.1) hkept) (s.of_willing hw).2

/-- **A review that is ready gets to its findings.** -/
theorem Ready.nonempty_survey (h : Ready pr w) : Nonempty (Survey pr w) := by
  obtain ⟨client, hclient⟩ := h.client
  obtain ⟨verifier, hverifier⟩ := h.verifier
  obtain ⟨dir, hdir⟩ := h.dir
  obtain ⟨cloned, hcloned, -, hhost, -⟩ := client.run_clone pr.repo (.str dir) .null
    { w with files := w.files.makeDir dir }
  have hwilling : cloned.Willing := World.willing_of_host hhost h.host
  obtain ⟨listed, hlisted, -⟩ := HostClient.exists_changedFiles hwilling pr.repo pr.number
  obtain ⟨results, scanned, hscanned, -⟩ := exists_scanRepository dir listed
  rw [h.clone] at hcloned
  exact ⟨client, verifier, dir, _, results, cloned, listed, scanned, hclient, hverifier, hdir, hcloned,
    hlisted, hscanned⟩

/-! ## Reports that the host takes -/

/-- The comment on the line of a confirmed finding. -/
def lineComment (pr : PullRequest) (dir : String) (j : Json × Verdict) : Except Failure HostCall := do
  let comment ← j.2.comment j.1
  let file ← (← j.1.getD "file" (.str "")).asString "replace"
  let line ← j.1.getD "line" (.int 1)
  return .reviewComment (.str comment) pr.head (.str (Text.replace file (dir ++ "/") "")) line

/-- The comment that says how a review ended. -/
def announcement (found : List (Json × Verdict)) : String :=
  if found.isEmpty then allClear else summary found.length

theorem exists_reportOne {dir : String} {j : Json × Verdict} {c : HostCall} (hw : w.Willing)
    (hc : pr.lineComment dir j = .ok c) :
    ∃ w', (pr.reportOne dir j.1 j.2).run.run w = (.ok (), w') ∧
      w.Took w' [.getRepo pr.repo, .getPull pr.number, c] ∧ c.isComment = true := by
  obtain ⟨comment, hcomment, hc⟩ := Run.except_bind_eq_ok.1 hc
  obtain ⟨raw, hraw, hc⟩ := Run.except_bind_eq_ok.1 hc
  obtain ⟨file, hfile, hc⟩ := Run.except_bind_eq_ok.1 hc
  obtain ⟨line, hline, hc⟩ := Run.except_bind_eq_ok.1 hc
  obtain rfl := Except.ok.inj hc
  obtain ⟨w', hrun, htook⟩ := HostClient.exists_commentLine hw pr.repo pr.number pr.head
    (.str (Text.replace file (dir ++ "/") "")) line (.str comment)
  refine ⟨w', ?_, htook, rfl⟩
  rw [reportOne, hcomment, Run.run_bind_ok Run.run_ofExcept, hraw]
  rw [show (Except.ok raw >>= fun v => v.asString "replace") = raw.asString "replace" from rfl, hfile,
    Run.run_bind_ok Run.run_ofExcept, hline, Run.run_bind_ok Run.run_ofExcept,
    Run.run_bind_ok hrun]
  rfl

/-- **Every confirmed finding gets its comment.** -/
theorem exists_forM_reportOne {dir : String} {found : List (Json × Verdict)} {cs : List HostCall}
    (hw : w.Willing) (hcs : found.mapM (pr.lineComment dir) = .ok cs) :
    ∃ w' calls, (found.forM fun f => pr.reportOne dir f.1 f.2).run.run w = (.ok (), w') ∧
      w.Took w' calls ∧ calls.filter HostCall.isComment = cs := by
  induction found generalizing w cs with
  | nil =>
    obtain rfl := Except.ok.inj hcs
    exact ⟨w, [], rfl, ⟨(List.append_nil _).symm, hw⟩, rfl⟩
  | cons f fs ih =>
    rw [List.mapM_cons] at hcs
    obtain ⟨c, hc, hcs⟩ := Run.except_bind_eq_ok.1 hcs
    obtain ⟨cs', hcs', hcs⟩ := Run.except_bind_eq_ok.1 hcs
    obtain rfl := Except.ok.inj hcs
    obtain ⟨w₁, hone, htook, hcomment⟩ := exists_reportOne hw hc
    obtain ⟨w₂, calls, hall, htooks, hcomments⟩ := ih htook.willing hcs'
    refine ⟨w₂, _, (Run.run_bind_ok hone).trans hall, htook.trans htooks, ?_⟩
    rw [List.filter_append, hcomments, List.filter_cons_of_neg Bool.false_ne_true,
      List.filter_cons_of_neg Bool.false_ne_true, List.filter_cons_of_pos hcomment]
    rfl

theorem exists_discard_comment (hw : w.Willing) (repo number body : Json) :
    ∃ w', (discard (HostClient.comment repo number body) : Run Unit).run.run w = (.ok (), w') ∧
      w.Took w' [.getRepo repo, .getPull number, .issueComment body] := by
  obtain ⟨w', hrun, htook⟩ := HostClient.exists_comment hw repo number body
  exact ⟨w', Run.run_bind_ok hrun, htook⟩

/-- **What a report comes to with a host that takes it**: how the review ended, and then a comment on
the line of each confirmed finding. -/
theorem comments_report {dir : String} {found : List (Json × Verdict)} {cs : List HostCall}
    (hw : w.Willing) (hcs : found.mapM (pr.lineComment dir) = .ok cs) :
    Run.comments (pr.report dir found) w = .issueComment (.str (announcement found)) :: cs := by
  cases found with
  | nil =>
    obtain rfl := Except.ok.inj hcs
    obtain ⟨w', hrun, htook⟩ := exists_discard_comment hw pr.repo pr.number (.str allClear)
    have hreport : (pr.report dir []).run.run w = (.ok (), w') := hrun
    exact htook.comments_eq hreport
  | cons f fs =>
    obtain ⟨w₁, hannounce, htook⟩ :=
      exists_discard_comment hw pr.repo pr.number (.str (summary (f :: fs).length))
    obtain ⟨w₂, calls, hlines, htooks, rfl⟩ := exists_forM_reportOne htook.willing hcs
    have hreport : (pr.report dir (f :: fs)).run.run w = (.ok (), w₂) :=
      (Run.run_bind_ok hannounce).trans hlines
    exact (htook.trans htooks).comments_eq hreport

/-- **A report says how the review ended** even if it fails later. -/
theorem comments_report_ne_nil (hw : w.Willing) (dir : String) (found : List (Json × Verdict)) :
    Run.comments (pr.report dir found) w ≠ [] := by
  cases found with
  | nil =>
    rw [comments_report hw rfl]
    exact List.cons_ne_nil _ _
  | cons f fs =>
    obtain ⟨w₁, hannounce, htook⟩ :=
      exists_discard_comment hw pr.repo pr.number (.str (summary (f :: fs).length))
    have hsummary : Run.CallsOnly (fun _ => True)
        (HostClient.comment pr.repo pr.number (.str (summary (f :: fs).length))) :=
      HostClient.callsOnly_comment trivial trivial trivial
    have hline (j : Json × Verdict) : Run.CallsOnly (fun _ => True) (pr.reportOne dir j.1 j.2) :=
      callsOnly_reportOne dir j.1 j.2 trivial trivial (fun _ _ _ => trivial) fun _ _ _ => trivial
    have hreport : Run.comments (pr.report dir (f :: fs)) w = _ :=
      Run.comments_bind hsummary.discard (Run.CallsOnly.forM hline (f :: fs)) hannounce
    rw [hreport, htook.comments_eq hannounce]
    exact List.append_ne_nil_of_left_ne_nil (List.cons_ne_nil _ _) _

/-! ## Findings outside the changed files -/

theorem map_of_enriches {β : Type} {g : Json → β} {fs gs : List Json}
    (hg : ∀ f f', Scan.Enriches f f' → g f' = g f) (h : List.Forall₂ Scan.Enriches fs gs) :
    gs.map g = fs.map g := by
  induction h with
  | nil => rfl
  | cons hf _ ih => rw [List.map_cons, List.map_cons, hg _ _ hf, ih]

/-- **What does not depend on contexts** holds of all that was found if it holds of all that the tools
report. -/
theorem Survey.forall_found_iff {β : Type} {g : Json → β}
    (hg : ∀ f f', Scan.Enriches f f' → g f' = g f) (s : Survey pr w) (holds : β → Prop) :
    (∀ f ∈ s.found, holds (g f)) ↔
      ∀ f ∈ Scan.foundBy reportedTools w.processes, holds (g f) := by
  have hmap := map_of_enriches hg s.enriches_found
  rw [← List.forall_mem_map, hmap, List.forall_mem_map]

/-- **A context does not move a finding** to another file. -/
theorem isChanged_of_enriches (changed : List String) (f f' : Json) (h : Scan.Enriches f f') :
    isChanged changed f' = isChanged changed f := by
  obtain rfl | ⟨fields, context, rfl, rfl⟩ := h
  · rfl
  · rw [isChanged, isChanged, Json.getD_obj, Json.getD_obj, Fields.get?_put_of_ne (by decide)]

/-- **A review without a finding in changed files gives the all-clear.** -/
theorem comments_review_of_unchanged (hquiet : ∀ f, Run.Keeps World.hostSide (sanitize f))
    (hready : Ready pr w)
    (hnone : ∀ f ∈ Scan.foundBy reportedTools w.processes, isChanged w.pullFiles f = .ok false) :
    Run.comments (pr.review sanitize) w = [.issueComment (.str allClear)] := by
  obtain ⟨s⟩ := hready.nonempty_survey
  have hunchanged := (s.forall_found_iff (isChanged_of_enriches w.pullFiles) (· = .ok false)).2 hnone
  have hcandidates : inChanged s.changed s.found = .ok [] := by
    rw [(s.of_willing hready.host).1, inChanged_eq_ok]
    refine ⟨fun f hf => by rw [hunchanged f hf]; rfl, ?_⟩
    rw [eq_comm, List.filter_eq_nil_iff]
    intro f hf
    rw [liesIn, hunchanged f hf]
    exact Bool.false_ne_true
  let i : Inspection sanitize pr w := ⟨s, [], [], s.scanned, hcandidates, rfl, .nil⟩
  rw [comments_review_of_inspection hquiet i]
  exact comments_report (i.willing hquiet hready.host) rfl

end PullRequest

end SecureReview
