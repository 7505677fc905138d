import Mathlib.Data.List.Forall2
import SecureReview.Proofs.Rules.Rows
/-!
# What an import does with each rule

An import goes through the rules that are handed in and counts each as
imported or as failed. What it takes in waits until the end and is not
looked at before, so **a rule is turned away exactly if its key was taken
before the import**, also where a key is handed in twice, or if the
database cannot be asked about it (`turnsAway_iff`). The rules that it
takes in stand behind the old ones, in order (`forall₂_carries`), and the
counts add up (`import_accounted`). They are stored together: if the
database refuses one of them, the import fails and stores none.
-/

namespace SecureReview

/-- The rule has all that was handed in. -/
structure Rule.Carries (r : Rule) (d : RuleDraft) : Prop where
  name : r.name = d.name
  language : r.language = d.language
  tool : r.tool = d.tool
  ruleId : r.ruleId = d.ruleId
  enabled : r.enabled = some d.enabled
  severityOverride : r.severityOverride = d.severityOverride
  customMessage : r.customMessage = d.customMessage
  description : r.description = d.description

theorem RuleDraft.carries_toRule (d : RuleDraft) (n : Nat) (now : DateTime) :
    (d.toRule n now).Carries d :=
  ⟨rfl, rfl, rfl, rfl, rfl, rfl, rfl, rfl⟩

namespace RuleTable

variable {D : RuleDatabase} {t : RuleTable} {d : RuleDraft} {ds handed : List RuleDraft}
variable {now : DateTime}

/-! ## One rule of an import -/

/-- An import into the table that has gone through the rules `handed` turns
the next one away: it is counted as failed, and nothing more waits to be
committed. -/
def TurnsAway (t : RuleTable) (D : RuleDatabase) (now : DateTime) (handed : List RuleDraft)
    (d : RuleDraft) : Prop :=
  ∃ m m' s, (handed.foldlM (RuleSession.importRule now) ⟨0, 0, []⟩).run.run
      { committed := t, database := D } = (.ok m, s) ∧
    (RuleSession.importRule now m d).run.run s = (.ok m', s) ∧
    m'.failed = m.failed + 1 ∧ m'.imported = m.imported

theorem complaint?_eq_none_iff :
    D.complaint? t d = none ↔ D.unasked d.tool d.ruleId = none ∧ d.key ∉ t.keys := by
  rw [RuleDraft.key, ← isTaken_iff, RuleDatabase.complaint?, RuleDatabase.isTaken]
  cases D.unasked d.tool d.ruleId <;> simp

/-- **The rules before the import decide alone**, if the database can be
asked about the rule. -/
theorem turnsAway_iff :
    t.TurnsAway D now handed d ↔ D.unasked d.tool d.ruleId ≠ none ∨ d.key ∈ t.keys := by
  have hloop := RuleSession.run_importRule now handed ⟨0, 0, []⟩ { committed := t, database := D }
  have hnone : D.complaint? t d ≠ none ↔ D.unasked d.tool d.ruleId ≠ none ∨ d.key ∈ t.keys := by
    rw [Ne, complaint?_eq_none_iff, not_and_or, not_not]
  rw [← hnone]
  constructor
  · rintro ⟨m, m', s, hrun, hstep, -, himported⟩ hcomplaint
    -- the loop leaves the committed rules as they are, so its last step looks at `t`
    obtain rfl : s = _ := (Prod.mk.inj (hrun.symm.trans hloop)).2
    rw [RuleSession.run_importRule_of_no_complaint m hcomplaint] at hstep
    have hm' := Except.ok.inj (Prod.mk.inj hstep).1
    rw [← hm'] at himported
    exact absurd himported (Nat.succ_ne_self m.imported)
  · intro hcomplaint
    obtain ⟨reason, hreason⟩ := Option.ne_none_iff_exists'.1 hcomplaint
    exact ⟨_, _, _, hloop, RuleSession.run_importRule_of_complaint _ hreason, rfl, rfl⟩

/-! ## All rules of an import -/

theorem forall₂_carries (ds : List RuleDraft) (n : Nat) (now : DateTime) :
    List.Forall₂ Rule.Carries ((ds.zipIdx n).map fun p => p.1.toRule p.2 now) ds := by
  induction ds generalizing n with
  | nil => exact .nil
  | cons d ds ih => exact .cons (d.carries_toRule n now) (ih (n + 1))

theorem accepted_eq_filter (D : RuleDatabase) (t : RuleTable) (ds : List RuleDraft) :
    D.accepted t ds = ds.filter fun d => D.unasked d.tool d.ruleId = none ∧ d.key ∉ t.keys := by
  refine List.filter_congr fun d _ => ?_
  rw [Bool.eq_iff_iff, Option.isNone_iff_eq_none, complaint?_eq_none_iff, decide_eq_true_eq]

/-- Every rule is taken in or complained about. -/
theorem length_accepted_add (D : RuleDatabase) (t : RuleTable) (ds : List RuleDraft) :
    (D.accepted t ds).length + (D.complaints t ds).length = ds.length := by
  induction ds with
  | nil => rfl
  | cons d ds ih =>
    simp only [RuleDatabase.accepted, RuleDatabase.complaints] at ih ⊢
    cases hcomplaint : D.complaint? t d <;> simp [hcomplaint] <;> omega

/-- The import of `ds` is accounted for: each of them is counted once, and
the rows that are new carry the rules `taken`, in order. -/
structure Accounts (ds taken : List RuleDraft) (m : ImportSummary) (rows : RuleTable) : Prop where
  counted : m.imported + m.failed = ds.length
  imported : rows.length = m.imported
  carried : List.Forall₂ Rule.Carries rows taken

/-- **An import is accounted for, or stores nothing.** It fails if the
database refuses one of the rules that it took in, with that refusal. -/
theorem import_cases (D : RuleDatabase) (t : RuleTable) (ds : List RuleDraft) (now : DateTime) :
    (∃ m rows, RuleSession.serveOn D (RuleSession.importRules ds now) t = (.ok m, t ++ rows) ∧
      Accounts ds (D.accepted t ds) m rows) ∨
    ∃ e, RuleSession.serveOn D (RuleSession.importRules ds now) t = (.error e, t) ∧
      ∃ d ∈ D.accepted t ds, ∃ n, D.unstored (d.toRule n now) = some e := by
  rw [RuleSession.serveOn_importRules, addAll_eq]
  cases hrefused : (t.newRows (D.accepted t ds) now).findSome? D.unstored with
  | none =>
    exact Or.inl ⟨_, _, rfl, length_accepted_add D t ds, length_newRows,
      forall₂_carries _ _ now⟩
  | some e =>
    obtain ⟨r, hr, he⟩ := List.exists_of_findSome?_eq_some hrefused
    obtain ⟨⟨d, n⟩, hd, rfl⟩ := List.mem_map.1 hr
    exact Or.inr ⟨e, rfl, d, List.fst_mem_of_mem_zipIdx hd, n, he⟩

end RuleTable

/-- The database can be asked about a rule, and stores it whatever its
number and its time. -/
structure RuleDatabase.Takes (D : RuleDatabase) (d : RuleDraft) : Prop where
  asked : D.unasked d.tool d.ruleId = none
  stored : ∀ n now, D.unstored (d.toRule n now) = none

namespace RuleTable

end RuleTable

/-! ## A database with widths -/

/-- The texts of a rule fit their columns, and none has the character zero. -/
structure RuleDraft.FitsColumns (d : RuleDraft) : Prop where
  name : d.name.length ≤ 255
  language : d.language.length ≤ 50
  tool : d.tool.length ≤ 50
  ruleId : d.ruleId.length ≤ 100
  severityOverride : ∀ s ∈ d.severityOverride, s.length ≤ 20
  sent : ∀ s ∈ [d.name, d.language, d.tool, d.ruleId] ++ d.severityOverride.toList ++
    d.customMessage.toList ++ d.description.toList, Char.ofNat 0 ∉ s.toList

theorem RuleDraft.FitsColumns.takes {d : RuleDraft} (h : d.FitsColumns) :
    RuleDatabase.bounded.Takes d := by
  have hsent : ∀ s ∈ [d.name, d.language, d.tool, d.ruleId] ++ d.severityOverride.toList ++
      d.customMessage.toList ++ d.description.toList, RuleDatabase.unsent s = none := by
    intro s hs
    simpa [RuleDatabase.unsent] using h.sent s hs
  have hshort {width : Nat} {s : String} (hle : s.length ≤ width) :
      RuleDatabase.overlong width s = none := by
    simp [RuleDatabase.overlong, Nat.not_lt.2 hle]
  constructor
  · simp only [RuleDatabase.bounded, List.findSome?_eq_none_iff]
    intro s hs
    obtain rfl | rfl := List.mem_pair.1 hs
    · exact hsent _ (by simp)
    · exact hsent _ (by simp)
  · intro n now
    simp only [RuleDatabase.bounded, RuleDraft.toRule, Option.or_eq_none_iff,
      List.findSome?_eq_none_iff]
    constructor
    · intro s hs
      exact hsent s (by simpa using hs)
    · intro c hc
      simp only [List.cons_append, List.nil_append, List.mem_cons, List.mem_map, Option.mem_toList] at hc
      rcases hc with rfl | rfl | rfl | rfl | ⟨s, hs, rfl⟩
      · exact hshort h.name
      · exact hshort h.language
      · exact hshort h.tool
      · exact hshort h.ruleId
      · exact hshort (h.severityOverride s hs)

namespace RuleTable

/-- A rule of a tool with a name of so many letters. -/
def named (n : Nat) (ruleId : String) : RuleDraft where
  name := String.ofList (List.replicate n 'n')
  language := "go"
  tool := "gosec"
  ruleId := ruleId

theorem fitsColumns_named {n : Nat} (hn : n ≤ 255) {ruleId : String} (hlength : ruleId.length ≤ 100)
    (hsent : Char.ofNat 0 ∉ ruleId.toList) : (named n ruleId).FitsColumns := by
  have hname : Char.ofNat 0 ∉ List.replicate n 'n' := by
    rw [List.mem_replicate]
    exact fun h => absurd h.2 (by decide)
  have hgo : "go".length ≤ 50 := by decide
  have hgosec : "gosec".length ≤ 50 := by decide
  refine ⟨?_, hgo, hgosec, hlength, by simp [named], ?_⟩
  · simpa [named] using hn
  · simp [named, hsent, hname]

end RuleTable

end SecureReview
