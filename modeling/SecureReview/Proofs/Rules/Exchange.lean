import SecureReview.Proofs.Rules.Rows
import SecureReview.Proofs.Validation.Checked
/-!
# Exporting rules and importing them again

A rule that is exported can be read as a draft that makes the same rule,
but for its number and its times, if it is on or off. **A rule that is
neither cannot be read** (`read_exported_of_none`), and a change can make a
rule such. So rules go through an export and an import exactly if each of
them is on or off (`reimport_exact_iff`). That a key occurs twice is no
obstacle, since an import into an empty table takes every rule.
-/

namespace SecureReview

variable {t : RuleTable} {r : Rule} {now : DateTime} {ds : List RuleDraft}

namespace Rule

/-- The draft that makes the rule, if it is on or off as given. -/
def draft (r : Rule) (enabled : Bool) : RuleDraft :=
  ⟨r.name, r.language, r.tool, r.ruleId, enabled, r.severityOverride, r.customMessage, r.description⟩

/-- The complaint about a rule that is neither on nor off. -/
def unset : Failure :=
  .unfit ⟨"CustomRuleCreate", [⟨["enabled"], "none is not an allowed value",
    "type_error.none.not_allowed"⟩]⟩

/-- A rule is read like its part that is on, off or neither. -/
theorem read_exported : RuleDraft.read r.exported =
    (r.draft <$> Checked.required r.exported "enabled" Checked.bool).get "CustomRuleCreate" := by
  have hname : Checked.required r.exported "name" Checked.string = .ok r.name :=
    Checked.required_str rfl
  have hlanguage : Checked.required r.exported "language" Checked.string = .ok r.language :=
    Checked.required_str rfl
  have htool : Checked.required r.exported "tool" Checked.string = .ok r.tool :=
    Checked.required_str rfl
  have hruleId : Checked.required r.exported "rule_id" Checked.string = .ok r.ruleId :=
    Checked.required_str rfl
  have hseverity : Checked.optional r.exported "severity_override" Checked.string =
      .ok r.severityOverride := Checked.optional_ofString? rfl
  have hmessage : Checked.optional r.exported "custom_message" Checked.string = .ok r.customMessage :=
    Checked.optional_ofString? rfl
  have hdescription : Checked.optional r.exported "description" Checked.string = .ok r.description :=
    Checked.optional_ofString? rfl
  have henabled : Checked.defaulted r.exported "enabled" true Checked.bool =
      Checked.required r.exported "enabled" Checked.bool := rfl
  rw [RuleDraft.read, RuleDraft.check, hname, hlanguage, htool, hruleId, henabled, hseverity, hmessage,
    hdescription]
  cases Checked.required r.exported "enabled" Checked.bool <;> rfl

theorem read_exported_of_some {b : Bool} (h : r.enabled = some b) :
    RuleDraft.read r.exported = .ok (r.draft b) := by
  have hrequired : Checked.required r.exported "enabled" Checked.bool = .ok b :=
    Checked.required_eq_ok.2 ⟨.bool b, by simp [exported, Fields.get?_cons, enabledJson, h], rfl⟩
  rw [read_exported, hrequired]
  rfl

/-- **A rule that is neither on nor off is not read.** -/
theorem read_exported_of_none (h : r.enabled = none) : RuleDraft.read r.exported = .error unset := by
  have hget : Fields.get? r.exported "enabled" = some .null := by
    simp [exported, Fields.get?_cons, enabledJson, h]
  rw [read_exported, Checked.required, hget]
  rfl

theorem exported_toRule {b : Bool} (h : r.enabled = some b) (n : Nat) :
    ((r.draft b).toRule n now).exported = r.exported := by
  simp [exported, draft, RuleDraft.toRule, enabledJson, h]

end Rule

namespace RuleTable

/-! ## All rules -/

theorem exportRules_all : t.exportRules {} = t.map Rule.exported := by
  have hall : t.select {} = t := by
    refine List.filter_eq_self.2 fun r _ => ?_
    rfl
  rw [exportRules, hall]

/-- The drafts that make the rules of a table, those that are neither on
nor off being on. -/
def drafts (t : RuleTable) : List RuleDraft :=
  t.map fun r => r.draft (r.enabled.getD true)

theorem mapM_read_of_set (h : ∀ r ∈ t, r.enabled ≠ none) :
    (t.exportRules {}).mapM RuleDraft.read = .ok t.drafts := by
  rw [exportRules_all, List.mapM_map]
  refine Run.except_mapM_eq_ok fun r hr => ?_
  obtain ⟨b, hb⟩ := Option.ne_none_iff_exists'.1 (h r hr)
  rw [Function.comp, Rule.read_exported_of_some hb, hb]
  rfl

/-- One rule that is neither on nor off spoils the reading of all. -/
theorem mapM_read_of_unset (h : ∃ r ∈ t, r.enabled = none) :
    (t.exportRules {}).mapM RuleDraft.read = .error Rule.unset := by
  rw [exportRules_all, List.mapM_map]
  refine Run.except_mapM_eq_error (fun r _ => ?_) ?_
  · cases hr : r.enabled with
    | none => exact Or.inr (Rule.read_exported_of_none hr)
    | some b => exact Or.inl ⟨_, Rule.read_exported_of_some hr⟩
  · obtain ⟨r, hr, hnone⟩ := h
    exact ⟨r, hr, Rule.read_exported_of_none hnone⟩

/-- Nothing is refused by an empty table. -/
theorem importRules_nil : importRules [] ds now = (⟨ds.length, 0, []⟩, addAll [] ds now) := by
  have hfresh : ds.filter (fun d => !isTaken [] d.tool d.ruleId) = ds :=
    List.filter_eq_self.2 fun d _ => rfl
  have htaken : ds.filter (fun d => isTaken [] d.tool d.ruleId) = [] :=
    List.filter_eq_nil_iff.2 fun d _ => Bool.false_ne_true
  rw [importRules, hfresh, htaken]
  rfl

theorem exportRules_addAll_drafts (h : ∀ r ∈ t, r.enabled ≠ none) :
    (addAll [] t.drafts now).exportRules {} = t.exportRules {} := by
  -- what is exported of a rule does not show its number
  have hnumber : (Rule.exported ∘ fun p : RuleDraft × Nat => p.1.toRule p.2 now) =
      (fun d => (d.toRule 0 now).exported) ∘ Prod.fst := rfl
  calc (addAll [] t.drafts now).exportRules {}
      = (t.drafts.zipIdx (nextId [])).map (Rule.exported ∘ fun p => p.1.toRule p.2 now) := by
        rw [exportRules_all, addAll_eq, newRows, List.nil_append, List.map_map]
    _ = t.drafts.map fun d => (d.toRule 0 now).exported := by
        rw [hnumber, ← List.map_map, List.zipIdx_map_fst]
    _ = t.map Rule.exported := by
        rw [drafts, List.map_map]
        refine List.map_congr_left fun r hr => ?_
        obtain ⟨b, hb⟩ := Option.ne_none_iff_exists'.1 (h r hr)
        rw [Function.comp, hb]
        exact Rule.exported_toRule hb 0
    _ = t.exportRules {} := exportRules_all.symm

/-! ## Through an export and an import -/

/-- The rules are exported, what is exported is read as drafts, and these
are imported into an empty table. The import gives `m` and leaves `t'`. -/
def Reimports (t : RuleTable) (now : DateTime) (m : ImportSummary) (t' : RuleTable) : Prop :=
  ∃ ds, (t.exportRules {}).mapM RuleDraft.read = .ok ds ∧
    RuleSession.serve (RuleSession.importRules ds now) [] = (.ok m, t')

theorem reimports_of_set (h : ∀ r ∈ t, r.enabled ≠ none) (now : DateTime) :
    t.Reimports now ⟨t.length, 0, []⟩ (addAll [] t.drafts now) := by
  refine ⟨t.drafts, mapM_read_of_set h, ?_⟩
  rw [RuleSession.serve_importRules, importRules_nil, drafts, List.length_map]

theorem enabled_ne_none_apply {c : RuleChanges} {r r' : Rule} (hc : c.enabled ≠ some none)
    (h : c.apply now r = .ok r') (hr : r.enabled ≠ none) : r'.enabled ≠ none := by
  rw [RuleChanges.apply_eq] at h
  split at h
  · cases h
  · obtain rfl := Except.ok.inj h
    change c.enabled.getD r.enabled ≠ none
    rcases henabled : c.enabled with _ | b
    · exact hr
    · rw [henabled] at hc
      exact fun hnone => hc (congrArg some hnone)

/-- **When an export can be imported again.** After a history of calls on
an empty table the rules are imported without a failure, and exported as
before, exactly if each of them is on or off. If one is neither, what was
exported cannot even be read. It is enough that no change in the history
sets a rule to neither. -/
theorem reimport_exact_iff (calls : List RuleCall) (now : DateTime) :
    ((∃ m t', (servedAll [] calls).Reimports now m t' ∧ m.failed = 0 ∧
        t'.exportRules {} = (servedAll [] calls).exportRules {}) ↔
      ∀ r ∈ servedAll [] calls, r.enabled ≠ none) ∧
    ((∃ r ∈ servedAll [] calls, r.enabled = none) →
      ((servedAll [] calls).exportRules {}).mapM RuleDraft.read = .error Rule.unset) ∧
    ((∀ id c now, RuleCall.update id c now ∈ calls → c.enabled ≠ some none) →
      ∀ r ∈ servedAll [] calls, r.enabled ≠ none) := by
  refine ⟨⟨?_, fun h => ?_⟩, mapM_read_of_unset, fun h => ?_⟩
  · rintro ⟨m, t', ⟨ds, hread, -⟩, -, -⟩ r hr hnone
    rw [mapM_read_of_unset ⟨r, hr, hnone⟩] at hread
    cases hread
  · exact ⟨_, _, reimports_of_set h now, rfl, exportRules_addAll_drafts h⟩
  · rw [servedAll_nil]
    refine forall_mem_afterAll (Q := fun _ => True) (fun d n now => by simp [RuleDraft.toRule]) ?_
      (fun _ _ _ _ _ _ => trivial) (by simp)
    intro id c now hmem r r'
    exact enabled_ne_none_apply (h id c now hmem)

/-- **A rule that is neither on nor off.** It is created and then changed,
and cannot be imported again. -/
theorem unset_rule_is_not_reimported :
    ¬ ∃ m t', (servedAll [] [
      .create { name := "a", language := "python", tool := "bandit", ruleId := "B101" }
        { year := 2024, month := 1, day := 15, hour := 12 },
      .update 1 { enabled := some none }
        { year := 2024, month := 1, day := 15, hour := 12, second := 1 }]).Reimports
      { year := 2024, month := 1, day := 15, hour := 12, second := 2 } m t' := by
  rintro ⟨m, t', ds, hread, -⟩
  rw [mapM_read_of_unset (by decide)] at hread
  cases hread

end RuleTable

end SecureReview
