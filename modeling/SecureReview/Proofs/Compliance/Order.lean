import Mathlib.Data.List.Perm.Basic
import SecureReview.Compliance.Report
import SecureReview.Proofs.Json.Fields
import SecureReview.Proofs.World.Run
/-!
# More findings, no better report

A report counts: each of its numbers is the number of findings of a kind, and
a topic fails if **some** finding bears on it. The kinds and topics of the
standards are tables (`Standard.tallies`, `Standard.topics`), and
`report_judges` says of every report that it goes by them. Counting knows no
order and only grows with the list, so that reports on a list and on its
permutations have the same results, and a report on more findings has none
that is better (`Judges.agree`, `Judges.noBetter`).
-/

namespace SecureReview

/-- The part of a value at the end of a path. -/
def Json.follow (v : Json) (path : List String) : Json :=
  path.foldl Json.part v

namespace Compliance

variable {f r r' : Json} {fs fs' : List Json} {es es' : List Entry} {s : Standard}

/-! ## What the standards ask -/

/-- A kind of entries, with the number of a summary and the mark of a report that are about it. -/
structure Kind where
  holds : Entry → Bool
  tally : Option String
  mark : Option (List String)

namespace Standard

/-- The kinds that a report tells apart, in the order of the summary. -/
def kinds : Standard → List Kind
  | .soc2 => [
    ⟨fun _ => true, some "total_findings", none⟩,
    ⟨(·.isRated "CRITICAL"), some "critical_findings", none⟩,
    ⟨(·.isRated "HIGH"), some "high_findings", none⟩,
    ⟨Entry.mentions ["injection", "xss", "csrf", "auth", "crypto"],
      some "security_findings", some ["principles", "security", "status"]⟩,
    ⟨Entry.mentions ["secret", "password", "key", "token", "credential"],
      some "confidentiality_findings", some ["principles", "confidentiality", "status"]⟩,
    ⟨Entry.mentions ["pii", "personal", "gdpr", "privacy"],
      some "privacy_findings", some ["principles", "privacy", "status"]⟩]
  | .gdpr => [
    ⟨Entry.mentions gdprKeywords,
      some "pii_findings", some ["requirements", "data_protection", "status"]⟩,
    ⟨Entry.mentions ["encrypt", "crypto", "hash"],
      some "encryption_findings", some ["requirements", "encryption", "status"]⟩,
    ⟨Entry.mentions ["auth", "access", "permission", "rbac"],
      some "access_control_findings", some ["requirements", "access_control", "status"]⟩]
  | .hipaa => [
    ⟨Entry.mentions hipaaKeywords, some "phi_findings", none⟩,
    ⟨Entry.mentions ["encrypt", "crypto", "tls", "ssl"],
      some "encryption_findings", some ["safeguards", "technical", "encryption"]⟩,
    ⟨Entry.mentions ["log", "audit", "track"],
      some "audit_findings", some ["safeguards", "administrative", "audit_controls"]⟩,
    -- access is judged by the rule alone
    ⟨fun e => Text.contains e.rule "auth", none, some ["safeguards", "technical", "access_control"]⟩]

/-- What the entries cost. -/
def penalty : Standard → List Entry → ℕ
  | .soc2, es => es.countP (·.isRated "CRITICAL") * 10 + es.countP (·.isRated "HIGH") * 5
  | .gdpr, es =>
    es.countP (fun e => (e.isRated "CRITICAL" || e.isRated "HIGH") && e.mentions gdprKeywords) * 15
  | .hipaa, es => es.countP (Entry.mentions hipaaKeywords) * 20

/-- The score from which on a project complies. -/
def threshold : Standard → ℕ
  | .soc2 => 80
  | .gdpr => 85
  | .hipaa => 90

theorem penalty_perm (h : es.Perm es') : s.penalty es' = s.penalty es := by
  cases s <;> simp only [penalty, h.countP_eq]

/-- No entry takes a cost back. -/
theorem penalty_le (h : es.Sublist es') : s.penalty es ≤ s.penalty es' := by
  cases s with
  | soc2 =>
    exact Nat.add_le_add (Nat.mul_le_mul_right 10 h.countP_le) (Nat.mul_le_mul_right 5 h.countP_le)
  | gdpr => exact Nat.mul_le_mul_right 15 h.countP_le
  | hipaa => exact Nat.mul_le_mul_right 20 h.countP_le

end Standard

/-! ## What a report says -/

/-- The results of a report are those that the entries have by the tables of the standard. -/
structure Judges (s : Standard) (es : List Entry) (r : Json) : Prop where
  score : r.part "compliance_score" = Json.nat (100 - s.penalty es)
  status : r.part "status" =
    .str (if s.threshold ≤ 100 - s.penalty es then "COMPLIANT" else "NON_COMPLIANT")
  summary : r.part "summary" = .obj (s.kinds.filterMap fun k =>
    k.tally.map fun name => (name, Json.nat (es.countP k.holds)))
  marks : ∀ k ∈ s.kinds, ∀ path ∈ k.mark,
    r.follow path = .str (if es.any k.holds then "FAIL" else "PASS")

/-- Two reports have the same score, status, summary and marks. -/
structure Agree (s : Standard) (r r' : Json) : Prop where
  score : r'.part "compliance_score" = r.part "compliance_score"
  status : r'.part "status" = r.part "status"
  summary : r'.part "summary" = r.part "summary"
  marks : ∀ k ∈ s.kinds, ∀ path ∈ k.mark, r'.follow path = r.follow path

/-- The second report has no higher score than the first, and neither complies nor passes a mark
where the first does not. -/
structure NoBetter (s : Standard) (r r' : Json) : Prop where
  score : ∃ m n : ℕ, r.part "compliance_score" = Json.nat m ∧
    r'.part "compliance_score" = Json.nat n ∧ n ≤ m
  status : r.part "status" = .str "NON_COMPLIANT" → r'.part "status" = .str "NON_COMPLIANT"
  marks : ∀ k ∈ s.kinds, ∀ path ∈ k.mark, r.follow path = .str "FAIL" → r'.follow path = .str "FAIL"

theorem verdict_filter (p : Entry → Bool) (es : List Entry) :
    verdict (es.filter p) = .str (if es.any p then "FAIL" else "PASS") := by
  have hempty : (es.filter p).isEmpty = !es.any p := by
    rw [Bool.eq_iff_iff, List.isEmpty_iff, List.filter_eq_nil_iff]
    simp
  rw [verdict, hempty]
  cases es.any p <;> rfl

theorem count_filter (p : Entry → Bool) (es : List Entry) :
    count (es.filter p) = Json.nat (es.countP p) := by
  rw [count, List.countP_eq_length_filter]

theorem gdprScore_eq (es : List Entry) : gdprScore es = 100 - Standard.gdpr.penalty es := by
  rw [gdprScore, touching, List.countP_filter]
  rfl

theorem hipaaScore_eq (es : List Entry) : hipaaScore es = 100 - Standard.hipaa.penalty es := by
  rw [hipaaScore, touching, ← List.countP_eq_length_filter]
  rfl

section Report

variable (s : Standard) (now : DateTime) (project : Json) (es : List Entry)

theorem report_score :
    (s.report now project es).part "compliance_score" = Json.nat (100 - s.penalty es) := by
  cases s with
  | soc2 => rfl
  | gdpr => exact congrArg Json.nat (gdprScore_eq es)
  | hipaa => exact congrArg Json.nat (hipaaScore_eq es)

theorem report_status : (s.report now project es).part "status" =
    .str (if s.threshold ≤ 100 - s.penalty es then "COMPLIANT" else "NON_COMPLIANT") := by
  cases s with
  | soc2 => rfl
  | gdpr =>
    rw [← gdprScore_eq]
    rfl
  | hipaa =>
    rw [← hipaaScore_eq]
    rfl

theorem report_summary : (s.report now project es).part "summary" =
    .obj (s.kinds.filterMap fun k => k.tally.map fun name => (name, Json.nat (es.countP k.holds))) := by
  cases s with
  | soc2 =>
    have htotal : count es = Json.nat (es.countP fun _ => true) := by
      rw [List.countP_true, count]
    simp only [Standard.report, soc2, touching, count_filter, htotal]
    rfl
  | gdpr =>
    simp only [Standard.report, gdpr, touching, count_filter]
    rfl
  | hipaa =>
    simp only [Standard.report, hipaa, touching, count_filter]
    rfl

theorem report_marks : ∀ k ∈ s.kinds, ∀ path ∈ k.mark, (s.report now project es).follow path =
    .str (if es.any k.holds then "FAIL" else "PASS") := by
  intro k hk path hpath
  cases s with
  | soc2 =>
    simp only [Standard.kinds, List.mem_cons, List.not_mem_nil, or_false] at hk
    obtain rfl | rfl | rfl | rfl | rfl | rfl := hk <;> cases hpath <;> exact verdict_filter _ es
  | gdpr =>
    simp only [Standard.kinds, List.mem_cons, List.not_mem_nil, or_false] at hk
    obtain rfl | rfl | rfl := hk <;> cases hpath <;> exact verdict_filter _ es
  | hipaa =>
    simp only [Standard.kinds, List.mem_cons, List.not_mem_nil, or_false] at hk
    obtain rfl | rfl | rfl | rfl := hk <;> cases hpath <;> exact verdict_filter _ es

/-- **A report goes by the tables of its standard.** -/
theorem report_judges : Judges s es (s.report now project es) :=
  ⟨report_score s now project es, report_status s now project es, report_summary s now project es,
    report_marks s now project es⟩

end Report

/-- **The order does not matter.** -/
theorem Judges.agree (h : Judges s es r) (h' : Judges s es' r') (hperm : es.Perm es') :
    Agree s r r' where
  score := by rw [h.score, h'.score, Standard.penalty_perm hperm]
  status := by rw [h.status, h'.status, Standard.penalty_perm hperm]
  summary := by simp only [h.summary, h'.summary, hperm.countP_eq]
  marks k hk path hpath := by
    rw [h.marks k hk path hpath, h'.marks k hk path hpath, hperm.any_eq]

/-- **More entries are no better.** -/
theorem Judges.noBetter (h : Judges s es r) (h' : Judges s es' r') (hsub : es.Sublist es') :
    NoBetter s r r' := by
  have hpenalty : s.penalty es ≤ s.penalty es' := Standard.penalty_le hsub
  refine ⟨⟨_, _, h.score, h'.score, by omega⟩, fun hstatus => ?_, fun k hk path hpath hmark => ?_⟩
  -- the score was below the threshold, and has not risen since
  · have hbelow : ¬ s.threshold ≤ 100 - s.penalty es := by
      intro hreaches
      rw [h.status, if_pos hreaches] at hstatus
      exact absurd (Json.str.inj hstatus) (by decide)
    rw [h'.status, if_neg (by omega)]
  -- the entry that failed the topic is still there
  · have hany : es.any k.holds = true := by
      by_contra hnone
      rw [h.marks k hk path hpath, if_neg hnone] at hmark
      exact absurd (Json.str.inj hmark) (by decide)
    obtain ⟨e, he, hholds⟩ := List.any_eq_true.1 hany
    rw [h'.marks k hk path hpath, if_pos (List.any_eq_true.2 ⟨e, hsub.subset he, hholds⟩)]

/-! ## Findings -/

/-- A record whose rule and description, if it has them, are texts. -/
structure Legible (f : Json) : Prop where
  isRecord : f.IsRecord
  rule : ∀ v, f.get? "rule_id" = some v → ∃ t, v = .str t
  description : ∀ v, f.get? "description" = some v → ∃ t, v = .str t

/-- The entry of a legible finding. -/
def entryOf (f : Json) : Entry :=
  ⟨f, Text.lower (f.part "rule_id").text, Text.lower (f.part "description").text, f.part "severity"⟩

theorem lowered_partOr {k : String} (h : ∀ v, f.get? k = some v → ∃ t, v = .str t) :
    (f.partOr k (.str "")).lowered = .ok (Text.lower (f.part k).text) := by
  rw [Json.partOr, Json.part]
  cases hget : f.get? k with
  | none => rfl
  | some v =>
    obtain ⟨t, rfl⟩ := h v hget
    rfl

/-- A legible finding is read. -/
theorem read_of_legible (h : Legible f) : Entry.read f = .ok (entryOf f) := by
  have hpart (k : String) (d : Json) : f.getD k d = .ok (f.partOr k d) :=
    Json.getD_eq_ok.2 ⟨h.isRecord, rfl⟩
  simp only [Entry.read, Json.get, hpart, lowered_partOr h.rule, lowered_partOr h.description, bind,
    Except.bind]
  rfl

theorem report_of_legible {type : String} (hs : Standard.ofName type = .ok s)
    (h : ∀ f ∈ fs, Legible f) (now : DateTime) (project : Json) :
    report type now project (.arr fs) = .ok (s.report now project (fs.map entryOf)) := by
  have hread : fs.mapM Entry.read = .ok (fs.map entryOf) :=
    Run.except_mapM_eq_ok fun f hf => read_of_legible (h f hf)
  rw [report, hs]
  simp only [Json.items, bind, Except.bind, hread]
  rfl

/-- **Reports do not depend on the order of the findings, and more findings make none better.** On
every list of findings whose rules and descriptions are texts or absent there is a report of the
standard, which goes by its tables. The report on a permutation, at whatever time and of whatever
project, has the same score, status, summary and marks. The report on a longer list, wherever the
findings were added, has no higher score, and what did not comply or pass before does not so now. -/
theorem reports_unordered_and_monotone (type : String) (s : Standard)
    (hs : Standard.ofName type = .ok s) (fs : List Json) (h : ∀ f ∈ fs, Legible f) (now : DateTime)
    (project : Json) :
    ∃ r, report type now project (.arr fs) = .ok r ∧ Judges s (fs.map entryOf) r ∧
      (∀ fs' now' project', fs.Perm fs' →
        ∃ r', report type now' project' (.arr fs') = .ok r' ∧ Agree s r r') ∧
      (∀ fs' now' project', fs.Sublist fs' → (∀ f ∈ fs', Legible f) →
        ∃ r', report type now' project' (.arr fs') = .ok r' ∧ NoBetter s r r') := by
  have hjudges := report_judges s now project (fs.map entryOf)
  refine ⟨_, report_of_legible hs h now project, hjudges, ?_, ?_⟩
  · intro fs' now' project' hperm
    have h' : ∀ f ∈ fs', Legible f := fun f hf => h f (hperm.mem_iff.2 hf)
    exact ⟨_, report_of_legible hs h' now' project',
      hjudges.agree (report_judges s now' project' _) (hperm.map entryOf)⟩
  · intro fs' now' project' hsub h'
    exact ⟨_, report_of_legible hs h' now' project',
      hjudges.noBetter (report_judges s now' project' _) (hsub.map entryOf)⟩

/-- A finding that bears on security, and one that says nothing but its severity. -/
def injection : Json :=
  .obj [("rule_id", .str "SQL-Injection"), ("severity", .str "CRITICAL")]

def unnamed : Json :=
  .obj [("severity", .str "HIGH")]

theorem reports_unordered_and_monotone_injection :
    Standard.ofName "Soc2" = .ok .soc2 ∧ (∀ f ∈ [unnamed, injection], Legible f) ∧
    ∃ r r', report "Soc2" { year := 2024, month := 2, day := 29 } .null (.arr [injection]) = .ok r ∧
      report "Soc2" { year := 2025, month := 1, day := 1 } .null (.arr [unnamed, injection]) = .ok r' ∧
      r.follow ["principles", "security", "status"] = .str "FAIL" ∧ NoBetter .soc2 r r' := by
  have hs : Standard.ofName "Soc2" = .ok .soc2 := by rfl
  have hlegible : ∀ f ∈ [unnamed, injection], Legible f := by
    simp only [List.forall_mem_cons, List.not_mem_nil, false_implies, implies_true, and_true]
    refine ⟨⟨⟨_, rfl⟩, fun v hv => ?_, fun v hv => ?_⟩, ⟨_, rfl⟩, fun v hv => ?_, fun v hv => ?_⟩
    · cases hv
    · cases hv
    · exact ⟨_, (Option.some.inj hv).symm⟩
    · cases hv
  have hsecurity : ⟨Entry.mentions ["injection", "xss", "csrf", "auth", "crypto"],
      some "security_findings", some ["principles", "security", "status"]⟩ ∈ Standard.soc2.kinds := by
    simp [Standard.kinds]
  have hbears : (entryOf injection).mentions ["injection", "xss", "csrf", "auth", "crypto"] = true := by
    decide +kernel
  obtain ⟨r, hr, hjudges, -, hmore⟩ := reports_unordered_and_monotone "Soc2" .soc2 hs [injection]
    (fun f hf => hlegible f (List.mem_cons_of_mem _ hf)) { year := 2024, month := 2, day := 29 } .null
  obtain ⟨r', hr', hworse⟩ := hmore [unnamed, injection] { year := 2025, month := 1, day := 1 } .null
    (List.sublist_cons_self _ _) hlegible
  refine ⟨hs, hlegible, r, r', hr, hr', ?_, hworse⟩
  rw [hjudges.marks _ hsecurity _ rfl]
  simp [hbears]

end Compliance

end SecureReview
