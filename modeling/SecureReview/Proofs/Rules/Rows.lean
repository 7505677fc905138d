import SecureReview.Proofs.Rules.Session
/-!
# Where rules come from

A rule in the table was there before, or is one with changes, or was made
of a draft that the call stored (`stored`). So a property that changes keep
holds of all rules along a history exactly if it holds of what the calls
store (`forall_mem_after_iff`, `forall_mem_afterAll`). Being **of a known
language and tool** is such a property. A rule that is created is checked
for it, and a rule that is imported is not (`rules_known_iff`).
-/

namespace SecureReview

/-- The rule is of a known language and tool. -/
def Rule.IsKnown (r : Rule) : Prop :=
  r.language ∈ RuleTable.languages ∧ r.tool ∈ RuleTable.tools

/-- The draft is of a known language and tool. -/
def RuleDraft.IsKnown (d : RuleDraft) : Prop :=
  d.language ∈ RuleTable.languages ∧ d.tool ∈ RuleTable.tools

instance (r : Rule) : Decidable r.IsKnown :=
  inferInstanceAs (Decidable (_ ∧ _))

namespace RuleTable

variable {t : RuleTable} {d : RuleDraft} {ds : List RuleDraft} {now : DateTime} {call : RuleCall}
variable {calls : List RuleCall} {P : Rule → Prop} {Q : RuleDraft → Prop}

/-! ## Rules that are added -/

theorem forall_mem_addAll (hdraft : ∀ d n now, P (d.toRule n now) ↔ Q d) :
    (∀ r ∈ t.addAll ds now, P r) ↔ (∀ r ∈ t, P r) ∧ ∀ d ∈ ds, Q d := by
  have hds : (∀ d ∈ ds, Q d) ↔ ∀ p ∈ ds.zipIdx t.nextId, Q p.1 := by
    conv_lhs => rw [← List.zipIdx_map_fst t.nextId ds]
    exact List.forall_mem_map
  rw [addAll_eq, newRows, List.forall_mem_append, hds, List.forall_mem_map]
  simp only [hdraft]

/-! ## One call -/

/-- The drafts of which a call makes rules. -/
def stored (t : RuleTable) : RuleCall → List RuleDraft
  | .create d _ => if (t.vet d).isOk then [d] else []
  | .importRules ds _ => t.fresh ds
  | _ => []

theorem after_create : t.after (.create d now) = t.addAll (t.stored (.create d now)) now := by
  rw [after, create, stored]
  cases t.vet d <;> rfl

/-- **One call.** A property that its changes keep holds afterwards exactly
if it holds of what the call stores. -/
theorem forall_mem_after_iff (hdraft : ∀ d n now, P (d.toRule n now) ↔ Q d)
    (hchange : ∀ id c now, call = .update id c now → ∀ r r', c.apply now r = .ok r' → P r → P r')
    (ht : ∀ r ∈ t, P r) : (∀ r ∈ t.after call, P r) ↔ ∀ d ∈ t.stored call, Q d := by
  cases call with
  | create d now =>
    rw [after_create, forall_mem_addAll hdraft]
    exact and_iff_right ht
  | importRules ds now =>
    have hafter : t.after (.importRules ds now) = t.addAll (t.fresh ds) now := rfl
    rw [hafter, forall_mem_addAll hdraft]
    exact and_iff_right ht
  | update id c now =>
    refine iff_of_true ?_ (by simp [stored])
    rw [after]
    split
    · next r' t' h =>
      obtain ⟨r, hr, h⟩ := Run.except_bind_eq_ok.1 h
      obtain ⟨r₁, hr₁, h⟩ := Run.except_bind_eq_ok.1 h
      obtain ⟨rfl, rfl⟩ := Prod.mk.inj (Except.ok.inj h)
      have hmade : P r₁ := hchange id c now rfl r r₁ hr₁ (ht r (mem_of_get hr))
      rw [List.forall_mem_map]
      intro x hx
      split
      · exact hmade
      · exact ht x hx
    · exact ht
  | delete id =>
    refine iff_of_true ?_ (by simp [stored])
    rw [after]
    split
    · next t' h => exact fun r hr => ht r ((delete_eq_ok h).subset hr)
    · exact ht

/-! ## Histories of calls -/

theorem afterAll_concat : t.afterAll (calls ++ [call]) = (t.afterAll calls).after call := by
  rw [afterAll, List.foldl_append]
  rfl

/-- **A history of calls.** A property that all changes in it keep holds at
the end if it holds at the start and of everything that is stored. -/
theorem forall_mem_afterAll (hdraft : ∀ d n now, P (d.toRule n now) ↔ Q d)
    (hchange : ∀ id c now, RuleCall.update id c now ∈ calls →
      ∀ r r', c.apply now r = .ok r' → P r → P r')
    (hstored : ∀ done call rest, calls = done ++ call :: rest →
      ∀ d ∈ (t.afterAll done).stored call, Q d)
    (ht : ∀ r ∈ t, P r) : ∀ r ∈ t.afterAll calls, P r := by
  induction calls generalizing t with
  | nil => exact ht
  | cons call calls ih =>
    have hafter : ∀ r ∈ t.after call, P r := by
      refine (forall_mem_after_iff hdraft (fun id c now hcall => ?_) ht).2 (hstored [] call calls rfl)
      exact hchange id c now (by simp [hcall])
    refine ih (fun id c now hmem => hchange id c now (List.mem_cons_of_mem call hmem)) ?_ hafter
    intro done next rest hcalls
    exact hstored (call :: done) next rest (by rw [hcalls, List.cons_append])

/-! ## Known languages and tools -/

theorem isKnown_toRule (d : RuleDraft) (n : Nat) (now : DateTime) :
    (d.toRule n now).IsKnown ↔ d.IsKnown :=
  Iff.rfl

theorem isKnown_apply {c : RuleChanges} {r r' : Rule} (h : c.apply now r = .ok r') (hr : r.IsKnown) :
    r'.IsKnown := by
  rw [RuleChanges.apply_eq] at h
  split at h
  · cases h
  · obtain rfl := Except.ok.inj h
    exact hr

/-- What a creation stores has been checked. -/
theorem isKnown_of_created {d' : RuleDraft} (h : d' ∈ t.stored (.create d now)) : d'.IsKnown := by
  rw [stored] at h
  cases hvet : t.vet d with
  | error e => simp [hvet, Except.isOk, Except.toBool] at h
  | ok u =>
    obtain rfl : d' = d := by simpa [hvet, Except.isOk, Except.toBool] using h
    obtain ⟨hlanguage, htool, -⟩ := vet_eq_ok.1 hvet
    exact ⟨hlanguage, htool⟩

/-- A change that would empty the name is not committed. -/
theorem served_emptied {id : Int} {c : RuleChanges} (h : c.name = some none) :
    t.served (.update id c now) = t := by
  rw [served]
  cases hr : t.get id with
  | error e => rw [RuleSession.serve_update_error hr]
  | ok r => rw [RuleSession.serve_update_emptied hr h]

/-- **When all rules are of known languages and tools.** Along a history of
calls on an empty table they are so at every point exactly if every import
in it stores such rules only. The texts of a rule are never null, as a
change that would empty the name is not committed. -/
theorem rules_known_iff (calls : List RuleCall) :
    ((∀ done rest, calls = done ++ rest → ∀ r ∈ servedAll [] done, r.IsKnown) ↔
      ∀ done ds now rest, calls = done ++ .importRules ds now :: rest →
        ∀ d ∈ (servedAll [] done).fresh ds, d.IsKnown) ∧
    (∀ r ∈ servedAll [] calls, ∀ k ∈ ["name", "language", "tool", "rule_id"],
      ∃ s, r.toJson.get? k = some (.str s)) ∧
    (∀ done id c now rest, calls = done ++ .update id c now :: rest → c.name = some none →
      servedAll [] (done ++ [.update id c now]) = servedAll [] done) := by
  refine ⟨?_, ?_, ?_⟩
  · simp only [servedAll_nil]
    constructor
    · intro h done ds now rest hcalls
      have hbefore := h done (.importRules ds now :: rest) hcalls
      have hafter := h (done ++ [.importRules ds now]) rest (by rw [hcalls, List.append_assoc]; rfl)
      rw [afterAll_concat] at hafter
      exact (forall_mem_after_iff isKnown_toRule (fun _ _ _ hcall => by cases hcall) hbefore).1 hafter
    · intro h done rest hcalls
      -- of what is stored on the way only imports have not been checked
      refine forall_mem_afterAll isKnown_toRule (fun _ _ _ _ _ _ => isKnown_apply) ?_ (by simp)
      intro done' call rest' hdone d hd
      cases call with
      | create d' now => exact isKnown_of_created hd
      | importRules ds now =>
        exact h done' ds now (rest' ++ rest) (by rw [hcalls, hdone, List.append_assoc]; rfl) d hd
      | update id c now => cases hd
      | delete id => cases hd
  · intro r _ k hk
    simp only [List.mem_cons, List.not_mem_nil, or_false] at hk
    rcases hk with rfl | rfl | rfl | rfl
    · exact ⟨r.name, rfl⟩
    · exact ⟨r.language, rfl⟩
    · exact ⟨r.tool, rfl⟩
    · exact ⟨r.ruleId, rfl⟩
  · intro done id c now _ _ hname
    rw [servedAll, List.foldl_append]
    exact served_emptied hname

/-- **A rule of an unknown language.** One import stores it. -/
theorem importRules_stores_unknown_language :
    ¬ ∀ r ∈ servedAll [] [.importRules
      [{ name := "a", language := "cobol", tool := "bandit", ruleId := "B101" }]
      { year := 2024, month := 1, day := 15, hour := 12 }], r.IsKnown := by
  decide

end RuleTable

end SecureReview
