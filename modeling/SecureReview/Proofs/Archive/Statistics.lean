import Mathlib.Algebra.BigOperators.Ring.Finset
import SecureReview.Archive.Feedback
import SecureReview.Proofs.Json.Reading
import SecureReview.Proofs.World.Run
/-!
# Feedback statistics add up

Feedback is counted in several ways: by its type, for any stretch of time
and any tool, and for each rule by itself. The counts agree because of
three things: findings have numbers of their own, feedback is of a known
type, and the finding that it is about is there. `after_cases` says what
one call can do, and so **every call keeps them** (`Consistent.after`).
Going through the rules and, for each of them, through its findings, one
meets every piece of feedback once (`feedbackOn_perm`).
-/

namespace SecureReview

/-- A call that may change the archive. Feedback is handed in as fields. -/
inductive ArchiveCall where
  | addJob (given : Fields) (now : DateTime)
  | addFinding (given : Fields) (now : DateTime)
  | deleteJob (id : Int)
  | submit (given : Fields) (now : DateTime)

namespace Archive

variable {a a' : Archive} {given : Fields} {now : DateTime}
variable {e : FeedbackEntry} {r : Row} {rows : List Row} {id : Int}

/-- Hand feedback in: it is read, and then it is kept. -/
def offer (a : Archive) (given : Fields) (now : DateTime) : Except Failure (FeedbackEntry × Archive) := do
  a.submit (← FeedbackDraft.read given) now

/-- The archive after a call. A call that fails changes nothing. -/
def after (a : Archive) : ArchiveCall → Archive
  | .addJob given now => ((a.addJob given now).toOption.map Prod.snd).getD a
  | .addFinding given now => ((a.addFinding given now).toOption.map Prod.snd).getD a
  | .deleteJob id => (a.deleteJob id).toOption.getD a
  | .submit given now => ((a.offer given now).toOption.map Prod.snd).getD a

/-- The archive after some calls. -/
def afterAll (a : Archive) (calls : List ArchiveCall) : Archive :=
  calls.foldl after a

/-- The feedback that a call is answered with. -/
def accepts (a : Archive) : ArchiveCall → List FeedbackEntry
  | .submit given now => ((a.offer given now).toOption.map Prod.fst).toList
  | _ => []

/-- The feedback that some calls are answered with, one after the other. -/
def acceptsAll (a : Archive) : List ArchiveCall → List FeedbackEntry
  | [] => []
  | call :: calls => a.accepts call ++ (a.after call).acceptsAll calls

/-- The numbers of the findings. -/
def numbers (a : Archive) : List Int :=
  a.findings.map Row.id

/-- **What makes the counts agree.** -/
structure Consistent (a : Archive) : Prop where
  numbers : a.numbers.Nodup
  type : ∀ e ∈ a.feedback, e.type ∈ types
  finding : ∀ e ∈ a.feedback, e.findingId ∈ a.numbers

/-! ## What a call does -/

theorem offer_eq_ok (h : a.offer given now = .ok (e, a')) :
    e.type ∈ types ∧ e.findingId ∈ a.numbers ∧ a' = { a with feedback := a.feedback ++ [e] } := by
  obtain ⟨d, -, h⟩ := Run.except_bind_eq_ok.1 h
  unfold submit at h
  split at h
  · cases h
  next htype =>
  obtain ⟨key, hkey, h⟩ := Run.except_bind_eq_ok.1 h
  have hkey : key = d.findingId := by
    simp only [Row.keyOf, ColumnKind.keep] at hkey
    split at hkey
    · exact (Except.ok.inj hkey).symm
    · cases hkey
  cases hfound : a.finding? key with
  | none =>
    rw [hfound] at h
    cases h
  | some row =>
    rw [hfound] at h
    obtain ⟨rfl, rfl⟩ := Prod.mk.inj (Except.ok.inj h)
    refine ⟨by simpa using htype, ?_, rfl⟩
    have hid : row.id = key := by simpa using List.find?_some hfound
    exact List.mem_map.2 ⟨row, List.mem_of_find?_eq_some hfound, hid.trans hkey⟩

/-- The next number is larger than all there are. -/
theorem lt_next (h : r ∈ rows) : r.id < rows.foldl (fun n r => max n r.id) 0 + 1 := by
  have hmax : ∀ (rows : List Row) (n : Int), n ≤ rows.foldl (fun n r => max n r.id) n ∧
      ∀ r ∈ rows, r.id ≤ rows.foldl (fun n r => max n r.id) n := by
    intro rows
    induction rows with
    | nil => exact fun n => ⟨le_refl n, fun r hr => by cases hr⟩
    | cons x rows ih =>
      intro n
      obtain ⟨hn, hrows⟩ := ih (max n x.id)
      rw [List.foldl_cons]
      refine ⟨by omega, fun r hr => ?_⟩
      obtain rfl | hr := List.mem_cons.1 hr
      · omega
      · exact hrows r hr
  have := (hmax rows 0).2 r h
  omega

/-- **A new row has a number of its own**, whether it was given one or not. -/
theorem newRow_eq_ok {s : Schema} (h : s.newRow rows given now = .ok r) : r.id ∉ rows.map Row.id := by
  intro hmem
  obtain ⟨x, hx, hid⟩ := List.mem_map.1 hmem
  obtain ⟨_, -, h⟩ := Run.except_bind_eq_ok.1 h
  dsimp only at h
  split at h
  · cases h
  · split at h
    · -- no number was given, so the next one is taken
      obtain rfl := Except.ok.inj h
      have hnext := lt_next hx
      rw [hid, Row.id, Row.value, Fields.get?_put_self] at hnext
      exact absurd hnext (lt_irrefl _)
    · split at h
      · cases h
      · next hfree =>
        obtain rfl := Except.ok.inj h
        exact hfree (List.any_eq_true.2 ⟨x, hx, by simpa using hid⟩)

/-- A row that is kept changes the order of the others only in so far as
it comes between them. -/
theorem place_perm (r : Row) (rows : List Row) : (place r rows).Perm (r :: rows) := by
  unfold place
  exact List.perm_middle.trans ((List.filter_append_perm _ rows).cons r)

theorem deleteJob_eq_ok (h : a.deleteJob id = .ok a') :
    a'.feedback = a.feedback ∧ a'.findings.Sublist a.findings ∧
      ∀ f ∈ a.findings, (∃ e ∈ a.feedback, e.findingId = f.id) → f ∈ a'.findings := by
  unfold deleteJob at h
  split at h
  · dsimp only at h
    split at h
    · cases h
    · next hfree =>
      obtain rfl := Except.ok.inj h
      refine ⟨rfl, List.filter_sublist, ?_⟩
      rintro f hf ⟨e, he, hid⟩
      refine List.mem_filter.2 ⟨hf, ?_⟩
      by_contra hgone
      refine hfree (List.any_eq_true.2 ⟨e, he, List.any_eq_true.2 ⟨f, ?_, by simp [hid]⟩⟩)
      exact List.mem_filter.2 ⟨hf, by simpa using hgone⟩
  · cases h

theorem addFinding_eq_ok (h : a.addFinding given now = .ok (r, a')) :
    a'.feedback = a.feedback ∧ r.id ∉ a.numbers ∧ a'.numbers.Perm (r.id :: a.numbers) := by
  obtain ⟨row, hrow, h⟩ := Run.except_bind_eq_ok.1 h
  obtain ⟨rfl, rfl⟩ := Prod.mk.inj (Except.ok.inj h)
  exact ⟨rfl, newRow_eq_ok hrow, (place_perm row a.findings).map Row.id⟩

theorem addJob_eq_ok (h : a.addJob given now = .ok (r, a')) :
    a'.feedback = a.feedback ∧ a'.findings = a.findings := by
  obtain ⟨row, -, h⟩ := Run.except_bind_eq_ok.1 h
  obtain ⟨-, rfl⟩ := Prod.mk.inj (Except.ok.inj h)
  exact ⟨rfl, rfl⟩

/-- **What one call can do.** It is answered with feedback, which is added;
or it leaves the feedback and the findings that have feedback, and keeps
the numbers of the findings apart. -/
theorem after_cases (a : Archive) (call : ArchiveCall) :
    (∃ e, a.accepts call = [e] ∧ e.type ∈ types ∧ e.findingId ∈ a.numbers ∧
      a.after call = { a with feedback := a.feedback ++ [e] }) ∨
    (a.accepts call = [] ∧ (a.after call).feedback = a.feedback ∧
      (a.numbers.Nodup → (a.after call).numbers.Nodup) ∧
      ∀ e ∈ a.feedback, e.findingId ∈ a.numbers → e.findingId ∈ (a.after call).numbers) := by
  cases call with
  | addJob given now =>
    right
    cases h : a.addJob given now with
    | error e => simp [accepts, after, h, Except.toOption]
    | ok p =>
      obtain ⟨hfeedback, hfindings⟩ := addJob_eq_ok h
      have hnumbers : p.2.numbers = a.numbers := congrArg (List.map Row.id) hfindings
      simp [accepts, after, h, Except.toOption, hfeedback, hnumbers]
  | addFinding given now =>
    right
    cases h : a.addFinding given now with
    | error e => simp [accepts, after, h, Except.toOption]
    | ok p =>
      obtain ⟨hfeedback, hfree, hperm⟩ := addFinding_eq_ok h
      simp only [accepts, after, h, Except.toOption, Option.map_some, Option.getD_some, true_and]
      refine ⟨hfeedback, fun hnodup => ?_, fun e _ he => ?_⟩
      · exact hperm.nodup_iff.2 (List.nodup_cons.2 ⟨hfree, hnodup⟩)
      · exact hperm.mem_iff.2 (List.mem_cons_of_mem _ he)
  | deleteJob id =>
    right
    cases h : a.deleteJob id with
    | error e => simp [accepts, after, h, Except.toOption]
    | ok a' =>
      obtain ⟨hfeedback, hsub, hkept⟩ := deleteJob_eq_ok h
      simp only [accepts, after, h, Except.toOption, Option.getD_some, true_and]
      refine ⟨hfeedback, fun hnodup => hnodup.sublist (hsub.map Row.id), fun e he hmem => ?_⟩
      obtain ⟨f, hf, hid⟩ := List.mem_map.1 hmem
      exact List.mem_map.2 ⟨f, hkept f hf ⟨e, he, hid.symm⟩, hid⟩
  | submit given now =>
    cases h : a.offer given now with
    | error e =>
      right
      simp [accepts, after, h, Except.toOption]
    | ok p =>
      obtain ⟨htype, hfinding, hp⟩ := offer_eq_ok h
      left
      exact ⟨p.1, by simp [accepts, h, Except.toOption], htype, hfinding,
        by simp [after, h, Except.toOption, hp]⟩

/-! ## What every call keeps -/

/-- **Every call keeps an archive consistent.** -/
theorem Consistent.after (h : a.Consistent) (call : ArchiveCall) : (a.after call).Consistent := by
  obtain ⟨e, -, htype, hfinding, hafter⟩ | ⟨-, hfeedback, hnumbers, hkept⟩ := after_cases a call
  · rw [hafter]
    refine ⟨h.numbers, ?_, ?_⟩
    · exact List.forall_mem_append.2 ⟨h.type, List.forall_mem_singleton.2 htype⟩
    · exact List.forall_mem_append.2 ⟨h.finding, List.forall_mem_singleton.2 hfinding⟩
  · refine ⟨hnumbers h.numbers, hfeedback ▸ h.type, ?_⟩
    intro e he
    rw [hfeedback] at he
    exact hkept e he (h.finding e he)

theorem Consistent.afterAll (h : a.Consistent) (calls : List ArchiveCall) :
    (a.afterAll calls).Consistent := by
  induction calls generalizing a with
  | nil => exact h
  | cons call calls ih => exact ih (h.after call)

/-- A call adds the feedback that it is answered with, and no other. -/
theorem feedback_after (a : Archive) (call : ArchiveCall) :
    (a.after call).feedback = a.feedback ++ a.accepts call := by
  obtain ⟨e, haccepts, -, -, hafter⟩ | ⟨haccepts, hfeedback, -⟩ := after_cases a call
  · rw [haccepts, hafter]
  · rw [haccepts, hfeedback, List.append_nil]

theorem feedback_afterAll (a : Archive) (calls : List ArchiveCall) :
    (a.afterAll calls).feedback = a.feedback ++ a.acceptsAll calls := by
  induction calls generalizing a with
  | nil => exact (List.append_nil _).symm
  | cons call calls ih =>
    calc ((a.after call).afterAll calls).feedback
        = (a.after call).feedback ++ (a.after call).acceptsAll calls := ih _
      _ = a.feedback ++ a.acceptsAll (call :: calls) := by
          rw [feedback_after, List.append_assoc, acceptsAll]

/-! ## Counting by type -/

/-- Feedback of known types is of exactly one of them. -/
theorem length_eq_counts {es : List FeedbackEntry} (h : ∀ e ∈ es, e.type ∈ types) :
    es.length = countOf "true_positive" es + countOf "false_positive" es +
      countOf "false_negative" es := by
  induction es with
  | nil => rfl
  | cons e es ih =>
    obtain ⟨he, hes⟩ := List.forall_mem_cons.1 h
    have hcount (type : String) : countOf type (e :: es) =
        countOf type es + if e.type = type then 1 else 0 := by
      by_cases htype : e.type = type <;> simp [countOf, htype]
    simp only [types, List.mem_cons, List.not_mem_nil, or_false] at he
    rw [List.length_cons, ih hes, hcount, hcount, hcount]
    rcases he with he | he | he <;> simp [he] <;> omega

/-! ## Counting by rule -/

/-- Items that are put together again, key by key, are the same items. -/
theorem perm_flatMap_filter {α β : Type} (key : α → β) {p : β → α → Bool}
    (hp : ∀ k x, p k x = true ↔ key x = k) {ks : List β} (hks : ks.Nodup) {xs : List α}
    (h : ∀ x ∈ xs, key x ∈ ks) : (ks.flatMap fun k => xs.filter (p k)).Perm xs := by
  induction ks generalizing xs with
  | nil =>
    obtain rfl : xs = [] := List.eq_nil_iff_forall_not_mem.2 fun x hx => by cases h x hx
    exact .nil
  | cons k ks ih =>
    obtain ⟨hk, hks⟩ := List.nodup_cons.1 hks
    -- the keys that are left see only what does not have the key `k`
    have hrest : (ks.flatMap fun l => xs.filter (p l)) =
        ks.flatMap fun l => (xs.filter fun x => !p k x).filter (p l) := by
      refine List.flatMap_congr fun l hl => ?_
      rw [List.filter_filter]
      refine List.filter_congr fun x _ => ?_
      by_cases hl' : p l x = true
      · have hne : p k x = false := by
          rw [← Bool.not_eq_true, hp, (hp l x).1 hl']
          exact fun heq => hk (heq ▸ hl)
        rw [hl', hne]
        rfl
      · rw [Bool.not_eq_true] at hl'
        rw [hl', Bool.false_and]
    have hleft : ∀ x ∈ xs.filter (fun x => !p k x), key x ∈ ks := by
      intro x hx
      obtain ⟨hx, hne⟩ := List.mem_filter.1 hx
      have hkey : key x ≠ k := by
        rw [Ne, ← hp]
        simpa using hne
      exact (List.mem_cons.1 (h x hx)).resolve_left hkey
    rw [List.flatMap_cons, hrest]
    exact ((ih hks hleft).append_left _).trans (List.filter_append_perm (p k) xs)

/-- **Rule by rule, all the feedback is met once.** -/
theorem feedbackOn_perm (h : a.Consistent) {rules : List Json} (hrules : rules.Nodup)
    (hall : ∀ f ∈ a.findings, f.value "rule_id" ∈ rules) :
    (rules.flatMap a.feedbackOn).Perm a.feedback := by
  have hfindings : (rules.flatMap fun rule =>
      a.findings.filter fun f => (f.value "rule_id").same rule).Perm a.findings :=
    perm_flatMap_filter (fun f => Row.value f "rule_id") (fun rule f => Json.same_iff _ rule) hrules hall
  have hfeedback : (a.numbers.flatMap fun n => a.feedback.filter fun e => e.findingId == n).Perm
      a.feedback :=
    perm_flatMap_filter FeedbackEntry.findingId (fun n e => beq_iff_eq) h.numbers h.finding
  rw [numbers, List.flatMap_map] at hfeedback
  unfold feedbackOn
  rw [← List.flatMap_assoc]
  exact (hfindings.flatMap_right _).trans hfeedback

/-- The counts that are told of a rule. -/
theorem exists_byRule (a : Archive) (rule : Json) (limit : Int) : ∃ report,
    a.byRule rule (.int limit) = .ok report ∧
      (report.part "total_feedback").whole = (a.feedbackOn rule).length ∧
      (report.part "false_positives").whole = countOf "false_positive" (a.feedbackOn rule) :=
  ⟨_, rfl, rfl, rfl⟩

/-- Without a selection everything is counted. -/
theorem stats_all (a : Archive) : a.stats {} = ⟨a.feedback.length, countOf "true_positive" a.feedback,
    countOf "false_positive" a.feedback, countOf "false_negative" a.feedback⟩ := by
  have hall : a.feedback.filter (a.keeps {}) = a.feedback :=
    List.filter_eq_self.2 fun _ _ => rfl
  rw [stats, hall]

/-- **The counts of the rules add up** to those of all the feedback. -/
theorem exists_reports (h : a.Consistent) {rules : List Json} (hrules : rules.Nodup)
    (hall : ∀ f ∈ a.findings, f.value "rule_id" ∈ rules) (limit : Int) :
    ∃ reports, rules.mapM (fun rule => a.byRule rule (.int limit)) = .ok reports ∧
      (reports.map fun r => (r.part "total_feedback").whole).sum = a.feedback.length ∧
      (reports.map fun r => (r.part "false_positives").whole).sum =
        countOf "false_positive" a.feedback := by
  choose report hreport htotal hwrong using fun rule => exists_byRule a rule limit
  have hperm := feedbackOn_perm h hrules hall
  refine ⟨rules.map report, Run.except_mapM_eq_ok fun rule _ => hreport rule, ?_, ?_⟩
  · simp only [List.map_map, Function.comp_def, htotal]
    rw [← hperm.length_eq, List.length_flatMap, Nat.cast_list_sum, List.map_map]
    rfl
  · simp only [List.map_map, Function.comp_def, hwrong]
    rw [countOf, ← (hperm.filter _).length_eq, List.filter_flatMap, List.length_flatMap, Nat.cast_list_sum,
      List.map_map]
    rfl

/-- **Feedback statistics add up.** Any findings may be there at first, and
any calls may follow. Then the counts by type add up to the total in every
selection, the total without a selection is the number of calls that were
answered with feedback, and the counts by rule add up to the counts without
a selection, whichever way the rules are listed. -/
theorem statistics_add_up (a : Archive) (hnumbers : a.numbers.Nodup) (hnew : a.feedback = [])
    (calls : List ArchiveCall) :
    (∀ filter, ((a.afterAll calls).stats filter).total =
      ((a.afterAll calls).stats filter).truePositives +
        ((a.afterAll calls).stats filter).falsePositives +
        ((a.afterAll calls).stats filter).falseNegatives) ∧
    ((a.afterAll calls).stats {}).total = (a.acceptsAll calls).length ∧
    ∀ (rules : List Json) (limit : Int), rules.Nodup →
      (∀ f ∈ (a.afterAll calls).findings, f.value "rule_id" ∈ rules) →
      ∃ reports, rules.mapM (fun rule => (a.afterAll calls).byRule rule (.int limit)) = .ok reports ∧
        (reports.map fun r => (r.part "total_feedback").whole).sum =
          ((a.afterAll calls).stats {}).total ∧
        (reports.map fun r => (r.part "false_positives").whole).sum =
          ((a.afterAll calls).stats {}).falsePositives := by
  have hconsistent : (a.afterAll calls).Consistent := by
    refine Consistent.afterAll ⟨hnumbers, ?_, ?_⟩ calls <;> rw [hnew] <;> simp
  refine ⟨?_, ?_, ?_⟩
  · intro filter
    exact length_eq_counts fun e he => hconsistent.type e (List.mem_filter.1 he).1
  · rw [stats_all, feedback_afterAll, hnew, List.nil_append]
  · intro rules limit hrules hall
    rw [stats_all]
    exact exists_reports hconsistent hrules hall limit

/-- Two findings of different rules. -/
def twoFindings : Archive where
  findings := [[("id", .int 1), ("rule_id", .str "B105")], [("id", .int 2), ("rule_id", .str "B303")]]

/-- Feedback on each of two findings, and in between feedback of an unknown
type and on a finding that is not there. -/
def fourSubmissions : List ArchiveCall :=
  [(1, "false_positive"), (2, "maybe"), (9, "false_positive"), (2, "true_positive")].map fun p =>
    .submit [("finding_id", .int p.1), ("feedback_type", .str p.2)] ⟨2024, 1, 15, 12, 0, 0, 0, none⟩

theorem statistics_of_two_findings :
    (twoFindings.numbers.Nodup ∧ twoFindings.feedback = []) ∧
    ((twoFindings.afterAll fourSubmissions).stats {}).total = 2 ∧
    ∃ reports, [.str "B105", .str "B303"].mapM
        (fun rule => (twoFindings.afterAll fourSubmissions).byRule rule (.int 10)) = .ok reports ∧
      (reports.map fun r => (r.part "total_feedback").whole).sum = 2 ∧
      (reports.map fun r => (r.part "false_positives").whole).sum = 1 := by
  have hnumbers : twoFindings.numbers.Nodup := by decide
  have hfindings : (twoFindings.afterAll fourSubmissions).findings = twoFindings.findings := rfl
  have hlength : (twoFindings.acceptsAll fourSubmissions).length = 2 := by decide +kernel
  have hwrong : ((twoFindings.afterAll fourSubmissions).stats {}).falsePositives = 1 := by
    decide +kernel
  obtain ⟨-, htotal, hrules⟩ := statistics_add_up twoFindings hnumbers rfl fourSubmissions
  have hlisted : ∀ f ∈ twoFindings.findings, f.value "rule_id" ∈ [.str "B105", .str "B303"] := by
    simp [twoFindings, Row.value, Fields.get?_cons]
  obtain ⟨reports, hreports, htotals, hwrongs⟩ :=
    hrules [.str "B105", .str "B303"] 10 (by simp) (hfindings ▸ hlisted)
  rw [hlength] at htotal
  exact ⟨⟨hnumbers, rfl⟩, htotal, reports, hreports, by rw [htotals, htotal]; rfl,
    by rw [hwrongs, hwrong]; rfl⟩

end Archive

end SecureReview
