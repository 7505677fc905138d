import SecureReview.Proofs.Number.Double
import SecureReview.Proofs.Validation.Checked
import SecureReview.Verify.Verdict
/-!
# Legal verdicts

A verdict is legal if its confidence is between zero and one and its texts
keep their limits, which count characters. Whatever lawful validator reads
and writes verdicts, every verdict that is read is legal
(`legal_of_check`), and a legal verdict is read back from its own text. So
printing and reading again **loses exactly the verdicts that are not
legal** (`parse_print_iff`).
-/

namespace SecureReview

theorem Number.finite_of_unit {x : Float} (h : 0.0 ≤ x ∧ x ≤ 1.0) :
    ∃ negative m q, parts x = .finite negative m q := by
  obtain rfl | ⟨negative, b, hb, rfl⟩ := exists_signed x
  · exact absurd h (by decide +kernel)
  obtain hlt | rfl := Nat.lt_or_eq_of_le hb
  · exact ⟨negative, _, _, parts_signed hlt⟩
  · cases negative <;> exact absurd h (by decide +kernel)

namespace Verdict

variable {v : Verdict} {fs : Fields} {n : ℕ}

/-- A verdict keeps the limits of its form. -/
structure Legal (v : Verdict) : Prop where
  confidence : 0.0 ≤ v.confidence ∧ v.confidence ≤ 1.0
  reasoning : 10 ≤ v.reasoning.length ∧ v.reasoning.length ≤ 500
  exploitability : ∀ t ∈ v.exploitability, t.length ≤ 200
  remediation : ∀ t ∈ v.remediation, t.length ≤ 300
  falsePositiveReason : ∀ t ∈ v.falsePositiveReason, t.length ≤ 200

theorem isEntry_toJson (h : v.Legal) (hfs : v.toJson = .obj fs) : ∀ f ∈ fs, f.2.isEntry = true := by
  have hoption (o : Option String) : (Json.ofString? o).isEntry = true := by
    cases o <;> rfl
  have hfinite : (Json.float v.confidence).isEntry = true := by
    obtain ⟨negative, m, q, hparts⟩ := Number.finite_of_unit h.confidence
    rw [Json.isEntry, hparts]
  obtain ⟨_, _, _, _, _, _, _, _ | ids⟩ := v <;> cases hfs <;>
    simp only [List.forall_mem_cons, hoption, hfinite, true_and]
  · exact ⟨rfl, rfl, rfl, by simp⟩
  · exact ⟨rfl, rfl, by simp [Json.strings, Json.isEntry], by simp⟩

theorem nodup_keys_toJson (hfs : v.toJson = .obj fs) : (fs.map Prod.fst).Nodup := by
  cases hfs
  exact (by decide : ["decision", "confidence", "reasoning", "severity", "exploitability",
    "remediation", "false_positive_reason", "cwe_ids"].Nodup)

section Lawful

variable [Validator] [Validator.Lawful]

/-! ## What is read is legal -/

theorem readText_eq_ok {x : Json} {t : String} (h : readText n x = .ok t) : t.length ≤ n := by
  obtain ⟨s, -, hs⟩ := Checked.andThen_eq_ok.1 h
  obtain ⟨hlength, rfl⟩ := Validator.Lawful.atMost_eq_ok.1 hs
  exact hlength

theorem length_of_optional {k : String} {o : Option String}
    (h : Validator.optional fs k (readText n) = .ok o) : ∀ t ∈ o, t.length ≤ n := by
  rintro t rfl
  obtain ⟨x, -, hx⟩ := Validator.Lawful.of_optional h
  exact readText_eq_ok hx

theorem length_of_readReasoning {x : Json} {t : String} (h : readReasoning x = .ok t) :
    10 ≤ t.length ∧ t.length ≤ 500 := by
  obtain ⟨s, hs, hmost⟩ := Checked.andThen_eq_ok.1 h
  obtain ⟨hlength, rfl⟩ := Validator.Lawful.atMost_eq_ok.1 hmost
  obtain ⟨s', -, hleast⟩ := Checked.andThen_eq_ok.1 hs
  obtain ⟨hlow, rfl⟩ := Validator.Lawful.atLeast_eq_ok.1 hleast
  exact ⟨hlow, hlength⟩

/-- **A verdict that is read is legal.** -/
theorem legal_of_check (h : check fs = .ok v) : v.Legal := by
  simp only [check, Checked.seq_eq_ok, Checked.map_eq_ok] at h
  obtain ⟨_, _, ⟨_, _, ⟨_, _, ⟨_, _, ⟨_, _, ⟨_, _, ⟨_, _, ⟨_, -, rfl⟩, hconfidence, rfl⟩, hreasoning,
    rfl⟩, -, rfl⟩, hexploit, rfl⟩, hremedy, rfl⟩, hfalse, rfl⟩, -, rfl⟩ := h
  obtain ⟨x, -, hx⟩ := Validator.Lawful.of_required hconfidence
  obtain ⟨y, -, hy⟩ := Validator.Lawful.of_required hreasoning
  refine ⟨?_, length_of_readReasoning hy, length_of_optional hexploit, length_of_optional hremedy,
    length_of_optional hfalse⟩
  obtain ⟨p, -, hp⟩ := Checked.andThen_eq_ok.1 hx
  obtain ⟨hunit, rfl⟩ := Validator.Lawful.unit_eq_ok.1 hp
  exact hunit

theorem legal_of_parse {text : Option String} (h : parse text = .ok v) : v.Legal := by
  obtain ⟨fs, -, hcheck⟩ := Checked.andThen_eq_ok.1 (Checked.get_eq_ok.1 h)
  exact legal_of_check hcheck

/-! ## What is legal is read back -/

theorem readText_str {t : String} (h : t.length ≤ n) : readText n (.str t) = .ok t :=
  Checked.andThen_eq_ok.2
    ⟨t, Validator.Lawful.string_str t, Validator.Lawful.atMost_eq_ok.2 ⟨h, rfl⟩⟩

theorem optional_readText {k : String} {o : Option String}
    (hget : Fields.get? fs k = some (Json.ofString? o)) (h : ∀ t ∈ o, t.length ≤ n) :
    Validator.optional fs k (readText n) = .ok o := by
  cases o with
  | none => exact Validator.Lawful.optional_null hget
  | some t =>
    exact Validator.Lawful.optional_some hget (by simp [Json.ofString?]) (readText_str (h t rfl))

theorem readReasoning_str {t : String} (h : 10 ≤ t.length ∧ t.length ≤ 500) :
    readReasoning (.str t) = .ok t := by
  have hleast : (Validator.string (.str t)).andThen (Validator.atLeast 10) = .ok t :=
    Checked.andThen_eq_ok.2
      ⟨t, Validator.Lawful.string_str t, Validator.Lawful.atLeast_eq_ok.2 ⟨h.1, rfl⟩⟩
  exact Checked.andThen_eq_ok.2 ⟨t, hleast, Validator.Lawful.atMost_eq_ok.2 ⟨h.2, rfl⟩⟩

theorem readDecision_text (d : Decision) : readDecision (.str d.text) = .ok d :=
  Validator.Lawful.member_str _ (by cases d <;> rfl)

theorem readSeverity_text (s : Severity) : readSeverity (.str s.text) = .ok s :=
  Validator.Lawful.member_str _ (by cases s <;> rfl)

theorem optional_readSeverity {k : String} {o : Option Severity}
    (hget : Fields.get? fs k = some (Json.ofString? (o.map Severity.text))) :
    Validator.optional fs k readSeverity = .ok o := by
  cases o with
  | none => exact Validator.Lawful.optional_null hget
  | some s =>
    exact Validator.Lawful.optional_some hget (by simp [Json.ofString?]) (readSeverity_text s)

theorem list_strings (ts : List String) :
    Validator.list Validator.string (Json.strings ts) = .ok ts := by
  refine Validator.Lawful.list_arr (List.forall₂_map_left_iff.2 (List.forall₂_same.2 fun t _ => ?_))
  exact ⟨by simp, Validator.Lawful.string_str t⟩

/-- The fields of a legal verdict pass their checks. -/
theorem check_toJson (h : v.Legal) (hfs : v.toJson = .obj fs) : check fs = .ok v := by
  have hget (k : String) : Fields.get? fs k = v.toJson.get? k := by rw [hfs, Json.get?_obj]
  have hdecision : Validator.required fs "decision" readDecision = .ok v.decision :=
    Validator.Lawful.required_of (hget _) (by simp) (readDecision_text v.decision)
  have hconfidence : Validator.required fs "confidence"
      (fun x => (Validator.float x).andThen Validator.unit) = .ok v.confidence :=
    Validator.Lawful.required_of (hget _) (by simp) (Checked.andThen_eq_ok.2
      ⟨_, Validator.Lawful.float_float _, Validator.Lawful.unit_eq_ok.2 ⟨h.confidence, rfl⟩⟩)
  have hreasoning : Validator.required fs "reasoning" readReasoning = .ok v.reasoning :=
    Validator.Lawful.required_of (hget _) (by simp) (readReasoning_str h.reasoning)
  have hids : Validator.optional fs "cwe_ids" (Validator.list Validator.string) = .ok v.cweIds := by
    obtain ⟨_, _, _, _, _, _, _, _ | ids⟩ := v
    · exact Validator.Lawful.optional_null (hget _)
    · exact Validator.Lawful.optional_some (hget _) (by simp [Json.strings]) (list_strings ids)
  rw [check, hdecision, hconfidence, hreasoning, optional_readSeverity (hget _),
    optional_readText (hget _) h.exploitability, optional_readText (hget _) h.remediation,
    optional_readText (hget _) h.falsePositiveReason, hids]
  rfl

/-- A legal verdict is read back from its own text. -/
theorem parse_print (h : v.Legal) : parse (some v.print) = .ok v := by
  obtain ⟨fs, hfs⟩ : ∃ fs, v.toJson = .obj fs := ⟨_, rfl⟩
  have hentries := isEntry_toJson h hfs
  have htext := Validator.Lawful.parse_write (nodup_keys_toJson hfs) hentries
  rw [parse, print, hfs, Validator.Lawful.fields_of_parse hentries htext, Checked.andThen,
    Checked.get_eq_ok]
  exact check_toJson h hfs

/-- **A verdict survives its own text** if and only if it is legal. -/
theorem parse_print_iff (v : Verdict) : parse (some v.print) = .ok v ↔ v.Legal :=
  ⟨legal_of_parse, parse_print⟩

end Lawful

/-- A verdict with fields of every kind. -/
def injection : Verdict where
  decision := .truePositive
  confidence := 0.9
  reasoning := "Input reaches the query."
  severity := some .high
  remediation := some "Bind \"name\"."
  cweIds := some ["CWE-89"]

/-- A verdict survives a text without blanks. -/
theorem parse_print_tight : injection.Legal ∧
    @print (.writing .tight) injection = "\x7b\"decision\":\"true_positive\",\"confidence\":0.9," ++
      "\"reasoning\":\"Input reaches the query.\",\"severity\":\"high\"," ++
      "\"exploitability\":null,\"remediation\":\"Bind \\\"name\\\".\"," ++
      "\"false_positive_reason\":null,\"cwe_ids\":[\"CWE-89\"]\x7d" ∧
    @parse (.writing .tight) (some (@print (.writing .tight) injection)) = .ok injection := by
  have hlegal : injection.Legal :=
    ⟨by decide +kernel, by decide +kernel, by decide +kernel, by decide +kernel, by decide +kernel⟩
  have hread := (@parse_print_iff (.writing .tight) (Validator.lawful_writing .tight) injection).2 hlegal
  exact ⟨hlegal, by decide +kernel, hread⟩

end Verdict

end SecureReview
