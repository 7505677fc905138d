import Mathlib.Data.List.Nodup
import SecureReview.Proofs.World.Run
import SecureReview.Rules.Table
/-!
# The keys of rules

A tool should have one rule of a name. Tables are changed by four kinds
of calls, and `call_cases` says what one call can do: drop rules, change
rules but not their keys, or add rules whose keys are all new. **Only the
last can spoil it**, and only where the rules that are added repeat a key
among themselves, since an import does not look at what it adds
(`keys_nodup_after_iff`). `keys_unique_iff` carries this through whole
histories of calls.
-/

namespace SecureReview

/-- What no two rules should share: the tool, and its name for the rule. -/
def Rule.key (r : Rule) : String × String :=
  (r.tool, r.ruleId)

/-- The key that a rule will have. -/
def RuleDraft.key (d : RuleDraft) : String × String :=
  (d.tool, d.ruleId)

/-- A call that changes the table. -/
inductive RuleCall where
  | create (d : RuleDraft) (now : DateTime)
  | update (id : Int) (c : RuleChanges) (now : DateTime)
  | delete (id : Int)
  | importRules (ds : List RuleDraft) (now : DateTime)

namespace RuleTable

variable {t t' : RuleTable} {d : RuleDraft} {ds : List RuleDraft} {r r' : Rule} {now : DateTime}
variable {id : Int} {c : RuleChanges} {call : RuleCall}

/-- The keys of a table, in order. -/
def keys (t : RuleTable) : List (String × String) :=
  t.map Rule.key

/-- The numbers of a table, in order. -/
def ids (t : RuleTable) : List Nat :=
  t.map Rule.id

/-- The drafts whose keys a table does not have. -/
def fresh (t : RuleTable) (ds : List RuleDraft) : List RuleDraft :=
  ds.filter (fun d => !t.isTaken d.tool d.ruleId)

/-- Keep rules at the end, one after the other. -/
def addAll (t : RuleTable) (ds : List RuleDraft) (now : DateTime) : RuleTable :=
  ds.foldl (fun t d => t.add d now) t

/-- The table after a call. A call that fails changes nothing. -/
def after (t : RuleTable) : RuleCall → RuleTable
  | .create d now =>
    match t.create d now with
    | .ok (_, t') => t'
    | .error _ => t
  | .update id c now =>
    match t.update id c now with
    | .ok (_, t') => t'
    | .error _ => t
  | .delete id =>
    match t.delete id with
    | .ok t' => t'
    | .error _ => t
  | .importRules ds now => (t.importRules ds now).2

/-- The table after some calls. -/
def afterAll (t : RuleTable) (calls : List RuleCall) : RuleTable :=
  calls.foldl after t

/-! ## Adding rules -/

theorem isTaken_iff {tool ruleId : String} : t.isTaken tool ruleId = true ↔ (tool, ruleId) ∈ t.keys := by
  simp only [isTaken, keys, List.any_eq_true, Bool.and_eq_true, beq_iff_eq, List.mem_map, Rule.key,
    Prod.mk.injEq]

theorem key_not_mem_of_mem_fresh (h : d ∈ t.fresh ds) : d.key ∉ t.keys := by
  obtain ⟨-, htaken⟩ := List.mem_filter.1 h
  intro hmem
  rw [isTaken_iff.2 hmem] at htaken
  cases htaken

/-- The next number is larger than all there are. -/
theorem lt_nextId (h : r ∈ t) : r.id < t.nextId := by
  have hmax : ∀ (t : RuleTable) (n : Nat), n ≤ t.foldl (fun n r => max n r.id) n ∧
      ∀ r ∈ t, r.id ≤ t.foldl (fun n r => max n r.id) n := by
    intro t
    induction t with
    | nil => exact fun n => ⟨Nat.le_refl n, fun r hr => by cases hr⟩
    | cons x t ih =>
      intro n
      obtain ⟨hn, ht⟩ := ih (max n x.id)
      rw [List.foldl_cons]
      refine ⟨by omega, fun r hr => ?_⟩
      obtain rfl | hr := List.mem_cons.1 hr
      · omega
      · exact ht r hr
  exact Nat.lt_succ_of_le ((hmax t 0).2 r h)

theorem keys_addAll : (t.addAll ds now).keys = t.keys ++ ds.map RuleDraft.key := by
  induction ds generalizing t with
  | nil => simp [addAll]
  | cons d ds ih =>
    have hadd : (t.add d now).keys = t.keys ++ [d.key] := by
      simp [add, keys, RuleDraft.toRule, Rule.key, RuleDraft.key]
    rw [addAll, List.foldl_cons, ← addAll, ih, hadd, List.map_cons, List.append_assoc]
    rfl

/-- Rules that are added get numbers of their own. -/
theorem ids_nodup_addAll (h : t.ids.Nodup) : (t.addAll ds now).ids.Nodup := by
  induction ds generalizing t with
  | nil => exact h
  | cons d ds ih =>
    rw [addAll, List.foldl_cons, ← addAll]
    refine ih ?_
    have hadd : (t.add d now).ids = t.ids ++ [t.nextId] := by
      simp [add, ids, RuleDraft.toRule]
    rw [hadd, List.nodup_append]
    refine ⟨h, by simp, fun a ha b hb => ?_⟩
    obtain ⟨r, hr, rfl⟩ := List.mem_map.1 ha
    obtain rfl := List.mem_singleton.1 hb
    have := lt_nextId hr
    omega

/-! ## Changing and dropping rules -/

theorem mem_of_get (h : t.get id = .ok r) : r ∈ t := by
  unfold get at h
  split at h
  · next hfind =>
    obtain rfl := Except.ok.inj h
    exact List.mem_of_find?_eq_some hfind
  · cases h

/-- A changed rule keeps its number and its key. -/
theorem apply_eq_ok (h : c.apply now r = .ok r') : r'.id = r.id ∧ r'.key = r.key := by
  unfold RuleChanges.apply at h
  split at h
  · cases h
  · obtain rfl := Except.ok.inj h
    exact ⟨rfl, rfl⟩

/-- **A change of a rule touches no key and no number.** The rules that it
replaces are all one, as their numbers are distinct. -/
theorem update_eq_ok (hids : t.ids.Nodup) (h : t.update id c now = .ok (r', t')) :
    t'.keys = t.keys ∧ t'.ids = t.ids := by
  obtain ⟨r, hr, h⟩ := Run.except_bind_eq_ok.1 h
  obtain ⟨r₁, hr₁, h⟩ := Run.except_bind_eq_ok.1 h
  obtain ⟨rfl, rfl⟩ := Prod.mk.inj (Except.ok.inj h)
  obtain ⟨hid, hkey⟩ := apply_eq_ok hr₁
  have hsame : ∀ x ∈ t, (x.id == r₁.id) = true → x = r := by
    intro x hx hxid
    refine List.inj_on_of_nodup_map hids hx (mem_of_get hr) ?_
    rw [← hid]
    exact eq_of_beq hxid
  have hmap : ∀ {α : Type} (f : Rule → α), f r₁ = f r →
      (t.map fun x => if x.id == r₁.id then r₁ else x).map f = t.map f := by
    intro α f hf
    rw [List.map_map]
    refine List.map_congr_left fun x hx => ?_
    by_cases hxid : (x.id == r₁.id) = true
    · rw [Function.comp, if_pos hxid, hf, hsame x hx hxid]
    · rw [Function.comp, if_neg hxid]
  exact ⟨hmap Rule.key hkey, hmap Rule.id hid⟩

theorem delete_eq_ok (h : t.delete id = .ok t') : t'.Sublist t := by
  obtain ⟨r, -, h⟩ := Run.except_bind_eq_ok.1 h
  obtain rfl := Except.ok.inj h
  exact List.filter_sublist

theorem vet_eq_ok :
    t.vet d = .ok () ↔ d.language ∈ languages ∧ d.tool ∈ tools ∧ d.key ∉ t.keys := by
  have htaken : d.key ∉ t.keys ↔ ¬ t.isTaken d.tool d.ruleId = true := not_congr isTaken_iff.symm
  rw [htaken]
  unfold vet
  split_ifs with hlanguage htool htaken <;> simp_all

theorem create_eq_ok (h : t.create d now = .ok (r, t')) : d.key ∉ t.keys ∧ t' = t.addAll [d] now := by
  obtain ⟨_, hvet, h⟩ := Run.except_bind_eq_ok.1 h
  obtain ⟨-, rfl⟩ := Prod.mk.inj (Except.ok.inj h)
  exact ⟨(vet_eq_ok.1 hvet).2.2, rfl⟩

/-! ## One call -/

/-- An import repeats a key that is new: it hands in two rules with one
key, and the table has no such rule. -/
def RepeatsNewKey (t : RuleTable) : RuleCall → Prop
  | .importRules ds _ => ¬ ((t.fresh ds).map RuleDraft.key).Nodup
  | _ => False

/-- **All that a call can do.** It drops rules, or changes neither keys nor
numbers, or adds rules with new keys. -/
theorem call_cases (hids : t.ids.Nodup) :
    ((t.after call).Sublist t ∧ ¬ t.RepeatsNewKey call) ∨
    ((t.after call).keys = t.keys ∧ (t.after call).ids = t.ids ∧ ¬ t.RepeatsNewKey call) ∨
    ∃ ds now, t.after call = t.addAll ds now ∧ (∀ d ∈ ds, d.key ∉ t.keys) ∧
      (t.RepeatsNewKey call ↔ ¬ (ds.map RuleDraft.key).Nodup) := by
  cases call with
  | create d now =>
    rw [after]
    split
    · next r t' h =>
      obtain ⟨hnew, rfl⟩ := create_eq_ok h
      refine Or.inr (Or.inr ⟨[d], now, rfl, fun d' hd' => ?_, ?_⟩)
      · rwa [List.mem_singleton.1 hd']
      · simp [RepeatsNewKey]
    · exact Or.inl ⟨List.Sublist.refl t, fun h => h⟩
  | update id c now =>
    rw [after]
    split
    · next r t' h =>
      obtain ⟨hkeys, hids'⟩ := update_eq_ok hids h
      exact Or.inr (Or.inl ⟨hkeys, hids', fun h => h⟩)
    · exact Or.inl ⟨List.Sublist.refl t, fun h => h⟩
  | delete id =>
    rw [after]
    split
    · next t' h => exact Or.inl ⟨delete_eq_ok h, fun h => h⟩
    · exact Or.inl ⟨List.Sublist.refl t, fun h => h⟩
  | importRules ds now =>
    exact Or.inr (Or.inr ⟨t.fresh ds, now, rfl, fun d hd => key_not_mem_of_mem_fresh hd, Iff.rfl⟩)

/-- A call keeps the numbers of rules distinct. -/
theorem ids_nodup_after (hids : t.ids.Nodup) : (t.after call).ids.Nodup := by
  obtain ⟨hsub, -⟩ | ⟨-, hsame, -⟩ | ⟨ds, now, hadd, -, -⟩ := call_cases hids
  · exact hids.sublist (hsub.map Rule.id)
  · rwa [hsame]
  · rw [hadd]
    exact ids_nodup_addAll hids

/-- **A call keeps keys unique exactly if it repeats no new one.** -/
theorem keys_nodup_after_iff (hids : t.ids.Nodup) (hkeys : t.keys.Nodup) :
    (t.after call).keys.Nodup ↔ ¬ t.RepeatsNewKey call := by
  obtain ⟨hsub, hno⟩ | ⟨hsame, -, hno⟩ | ⟨ds, now, hadd, hnew, hrepeats⟩ := call_cases hids
  · exact ⟨fun _ => hno, fun _ => hkeys.sublist (hsub.map Rule.key)⟩
  · exact ⟨fun _ => hno, fun _ => hsame ▸ hkeys⟩
  · rw [hadd, keys_addAll, hrepeats, not_not, List.nodup_append]
    refine ⟨fun h => h.2.1, fun h => ⟨hkeys, h, fun a ha b hb hab => ?_⟩⟩
    obtain ⟨d, hd, rfl⟩ := List.mem_map.1 hb
    exact hnew d hd (hab ▸ ha)

/-! ## Histories of calls -/

theorem ids_nodup_afterAll {calls : List RuleCall} (hids : t.ids.Nodup) :
    (t.afterAll calls).ids.Nodup := by
  induction calls generalizing t with
  | nil => exact hids
  | cons call calls ih => exact ih (ids_nodup_after hids)

/-- A history in which no call repeats a new key keeps keys unique. -/
theorem keys_nodup_afterAll {calls : List RuleCall} (hids : t.ids.Nodup) (hkeys : t.keys.Nodup)
    (h : ∀ done call rest, calls = done ++ call :: rest →
      ¬ (t.afterAll done).RepeatsNewKey call) : (t.afterAll calls).keys.Nodup := by
  induction calls generalizing t with
  | nil => exact hkeys
  | cons call calls ih =>
    have hcall := h [] call calls rfl
    refine ih (ids_nodup_after hids) ((keys_nodup_after_iff hids hkeys).2 hcall) ?_
    intro done next rest hcalls
    exact h (call :: done) next rest (by rw [hcalls, List.cons_append])

/-- A call that hands in no key twice repeats none. -/
theorem not_repeatsNewKey (h : (ds.map RuleDraft.key).Nodup) :
    ¬ t.RepeatsNewKey (.importRules ds now) :=
  not_not.2 (h.sublist (List.filter_sublist.map RuleDraft.key))

/-- **When the keys of rules are unique.** Along a history of calls on an
empty table they are so at every point exactly if no import in it repeats
a key that is new at the time. It is enough that no import hands in a key
twice. -/
theorem keys_unique_iff (calls : List RuleCall) :
    ((∀ done rest, calls = done ++ rest → (afterAll [] done).keys.Nodup) ↔
      ∀ done call rest, calls = done ++ call :: rest →
        ¬ (afterAll [] done).RepeatsNewKey call) ∧
    ((∀ ds now, RuleCall.importRules ds now ∈ calls → (ds.map RuleDraft.key).Nodup) →
      (afterAll [] calls).keys.Nodup) := by
  have hids : (ids []).Nodup := List.nodup_nil
  have hkeys : (keys []).Nodup := List.nodup_nil
  refine ⟨⟨fun h done call rest hcalls => ?_, fun h done rest hcalls => ?_⟩, fun h => ?_⟩
  · have hbefore := h done (call :: rest) hcalls
    have hafter := h (done ++ [call]) rest (by rw [hcalls, List.append_assoc]; rfl)
    rw [afterAll, List.foldl_append] at hafter
    exact (keys_nodup_after_iff (ids_nodup_afterAll hids) hbefore).1 hafter
  · refine keys_nodup_afterAll hids hkeys fun done' call rest' hdone => ?_
    exact h done' call (rest' ++ rest) (by rw [hcalls, hdone, List.append_assoc]; rfl)
  · refine keys_nodup_afterAll hids hkeys fun done call rest hcalls => ?_
    cases call with
    | importRules ds now => exact not_repeatsNewKey (h ds now (by simp [hcalls]))
    | _ => exact fun h => h

/-- **Two rules with one key.** One import hands in both. -/
theorem importRules_repeats_key :
    ¬ (afterAll [] [.importRules
      [{ name := "a", language := "python", tool := "bandit", ruleId := "B101" },
       { name := "b", language := "python", tool := "bandit", ruleId := "B101" }]
      { year := 2024, month := 1, day := 15, hour := 12 }]).keys.Nodup := by
  decide

end RuleTable

end SecureReview
