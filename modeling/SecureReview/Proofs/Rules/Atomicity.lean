import SecureReview.Proofs.Rules.Session
import SecureReview.Proofs.Validation.Checked
/-!
# Calls on one rule are atomic and local

A call that creates, changes or deletes a rule either fails, and then the
committed rules are exactly what they were, or it succeeds, and then the
rules with other numbers are. This holds wherever it fails: before
anything was changed, or when the change is committed. A change of a rule
touches **the columns that were supplied, the time of the change, and no
other** (`Changed`).
-/

namespace SecureReview

variable {t : RuleTable} {d : RuleDraft} {r : Rule} {now : DateTime} {id : Int} {n : Nat}
variable {c : RuleChanges} {e : Failure} {k : String} {fs : Fields}

/-- How a call on a rule can fail: it is refused, or a constraint is
broken when it is committed. -/
inductive Failure.IsRefusal : Failure → Prop
  | invalid (detail : String) : IsRefusal (.refused 400 detail)
  | missing (detail : String) : IsRefusal (.refused 404 detail)
  | taken (detail : String) : IsRefusal (.refused 409 detail)
  | constraint : IsRefusal .integrity

/-! ## Columns that change -/

namespace RuleChanges

/-- One field, if it is supplied. -/
def entry {α : Type} (k : String) (toJson : α → Json) (o : Option α) : Fields :=
  (o.map fun v => (k, toJson v)).toList

/-- The fields that are supplied, with their values. -/
def supplied (c : RuleChanges) : Fields :=
  entry "name" Json.ofString? c.name ++
  entry "enabled" (fun b => (b.map Json.bool).getD .null) c.enabled ++
  entry "severity_override" Json.ofString? c.severityOverride ++
  entry "custom_message" Json.ofString? c.customMessage ++
  entry "description" Json.ofString? c.description

theorem get?_entry {α : Type} {l : String} {f : α → Json} {o : Option α} :
    Fields.get? (entry l f o) k = if k = l then o.map f else none := by
  cases o with
  | none => simp [entry]
  | some v => simp [entry, Fields.get?_cons]

/-- `r'` is the rule `r` with changes: a column that is supplied has the
supplied value, the time of the change is noted, and every other column
is as it was. -/
structure Changed (c : RuleChanges) (now : DateTime) (r r' : Rule) : Prop where
  columns : ∀ k, r'.toJson.get? k =
    (Fields.get? (c.supplied ++ [("updated_at", .str now.iso)]) k).or (r.toJson.get? k)
  createdAt : r'.createdAt = r.createdAt
  updatedAt : r'.updatedAt = now

theorem changed_made (h : c.name ≠ some none) : c.Changed now r (c.made now r) := by
  refine ⟨fun k => ?_, rfl, rfl⟩
  simp only [Rule.toJson, Rule.exported, Json.get?_obj, supplied, Fields.get?_append, get?_entry,
    List.cons_append, List.nil_append, Fields.get?_cons, Fields.get?_nil]
  by_cases hk : k ∈ ["name", "enabled", "severity_override", "custom_message", "description", "updated_at"]
  · simp only [List.mem_cons, List.not_mem_nil, or_false] at hk
    rcases hk with rfl | rfl | rfl | rfl | rfl | rfl
    · rcases hname : c.name with _ | _ | name
      · simp [made, hname]
      · exact absurd hname h
      · simp [made, hname, Json.ofString?]
    · cases henabled : c.enabled <;> simp [made, henabled, Rule.enabledJson]
    · cases hseverity : c.severityOverride <;> simp [made, hseverity]
    · cases hmessage : c.customMessage <;> simp [made, hmessage]
    · cases hdescription : c.description <;> simp [made, hdescription]
    · simp [made]
  · simp only [List.mem_cons, List.not_mem_nil, or_false, not_or] at hk
    simp [made, hk]

theorem has_of_change {α : Type} {kind : Json → Checked α} {o : Option (Option α)}
    (h : change fs k kind = .ok o) (ho : o ≠ none) : Fields.has fs k = true := by
  unfold change at h
  split at h
  · next hhas => exact hhas
  · exact absurd (Checked.ok.inj h).symm ho

theorem isSome_get?_entry {α : Type} {l : String} {f : α → Json} {o : Option α} :
    (Fields.get? (entry l f o) k).isSome = true ↔ k = l ∧ o ≠ none := by
  rw [get?_entry]
  split_ifs with hk
  · simp [hk, Option.isSome_iff_ne_none]
  · simp [hk]

/-- **Only fields of the request are supplied.** -/
theorem has_of_supplied (h : RuleChanges.read fs = .ok c)
    (hk : (Fields.get? c.supplied k).isSome = true) : Fields.has fs k = true := by
  have hcheck : RuleChanges.check fs = .ok c := Checked.get_eq_ok.1 h
  obtain ⟨_, description, hfour, hdescription, rfl⟩ := Checked.seq_eq_ok.1 hcheck
  obtain ⟨_, message, hthree, hmessage, rfl⟩ := Checked.seq_eq_ok.1 hfour
  obtain ⟨_, severity, htwo, hseverity, rfl⟩ := Checked.seq_eq_ok.1 hthree
  obtain ⟨_, enabled, hone, henabled, rfl⟩ := Checked.seq_eq_ok.1 htwo
  obtain ⟨name, hname, rfl⟩ := Checked.map_eq_ok.1 hone
  simp only [supplied, Fields.get?_append, Option.isSome_or, Bool.or_eq_true, isSome_get?_entry] at hk
  rcases hk with (((⟨rfl, ho⟩ | ⟨rfl, ho⟩) | ⟨rfl, ho⟩) | ⟨rfl, ho⟩) | ⟨rfl, ho⟩
  · exact has_of_change hname ho
  · exact has_of_change henabled ho
  · exact has_of_change hseverity ho
  · exact has_of_change hmessage ho
  · exact has_of_change hdescription ho

/-- **What the request does not name is as it was**, but for the time of
the change. -/
theorem Changed.get?_eq {r' : Rule} (h : c.Changed now r r') (hread : RuleChanges.read fs = .ok c)
    (hk : Fields.has fs k = false) (hupdated : k ≠ "updated_at") :
    r'.toJson.get? k = r.toJson.get? k := by
  have hnone : Fields.get? c.supplied k = none := by
    rw [← Option.not_isSome_iff_eq_none]
    intro hsome
    rw [has_of_supplied hread hsome] at hk
    cases hk
  rw [h.columns, Fields.get?_append, hnone, Fields.get?_cons, if_neg hupdated]
  rfl

end RuleChanges

/-! ## The other rules -/

namespace RuleTable

/-- The rules with another number, in order. -/
def others (t : RuleTable) (id : Int) : RuleTable :=
  t.filter fun r => (r.id : Int) != id

theorem others_add : (t.add d now).others t.nextId = t.others t.nextId := by
  simp [others, add, RuleDraft.toRule]

theorem others_changed {f : Rule → Rule} (hf : ∀ x, (f x).id = x.id) :
    (t.changed n f).others n = t.others n := by
  have hkept : ((fun x : Rule => (x.id : Int) != n) ∘ fun x => if x.id == n then f x else x) =
      fun x => (x.id : Int) != n := by
    funext x
    rw [Function.comp, apply_ite Rule.id, hf, ite_self]
  rw [others, changed, List.filter_map, hkept]
  -- of the rules that are left none has the number
  refine (List.map_congr_left fun x hx => ?_).trans (List.map_id _)
  have hne : (x.id : Int) ≠ n := by simpa using (List.mem_filter.1 hx).2
  have hnumber : ¬ (x.id == n) = true := by
    simp only [beq_iff_eq]
    omega
  rw [if_neg hnumber, id]

theorem others_filter : others (t.filter fun x => x.id != n) n = t.others n := by
  rw [others, List.filter_filter]
  refine List.filter_congr fun x _ => ?_
  by_cases hx : x.id = n <;> simp [hx]

theorem find?_filter : find? (t.filter fun x => x.id != n) n = none := by
  rw [find?, List.find?_eq_none]
  intro x hx
  have hne : x.id ≠ n := by simpa using (List.mem_filter.1 hx).2
  simp only [beq_iff_eq]
  omega

theorem isRefusal_of_vet (h : t.vet d = .error e) : e.IsRefusal := by
  unfold vet at h
  split_ifs at h
  · cases h
    exact .invalid _
  · cases h
    exact .invalid _
  · cases h
    exact .taken _

theorem isRefusal_of_get (h : t.get id = .error e) : e.IsRefusal := by
  unfold get at h
  split at h
  · cases h
  · cases h
    exact .missing _

end RuleTable

namespace RuleSession

/-- What a call that was served on the rules `t` gave and left: if it
failed, it was refused and left them as they were, and if it succeeded, it
left the rules with other numbers than that of its own as they were. -/
structure IsAtomic {α : Type} (t : RuleTable) (number : α → Int)
    (result : Except Failure α × RuleTable) : Prop where
  failed : ∀ e, result.1 = .error e → e.IsRefusal ∧ result.2 = t
  elsewhere : ∀ a, result.1 = .ok a → result.2.others (number a) = t.others (number a)

theorem isAtomic_error {α : Type} {number : α → Int} (he : e.IsRefusal) :
    IsAtomic t number (.error e, t) := by
  refine ⟨fun e' he' => ?_, fun a ha => ?_⟩
  · cases he'
    exact ⟨he, rfl⟩
  · cases ha

theorem isAtomic_ok {α : Type} {number : α → Int} {a : α} {t' : RuleTable}
    (h : t'.others (number a) = t.others (number a)) : IsAtomic t number (.ok a, t') := by
  refine ⟨fun e he => ?_, fun a' ha' => ?_⟩
  · cases he
  · cases ha'
    exact h

/-- **Calls on one rule are atomic and local.** On any committed rules,
whatever is asked for: a call that fails is refused or breaks a constraint,
and leaves them exactly as they were; a call that succeeds leaves all rules
with other numbers as they were. A rule that is created gets a number of
its own, a rule that is deleted is gone, and of a rule that is changed only
those columns are that were supplied, which the request has to name, and
the time of the change. -/
theorem calls_atomic_and_local (t : RuleTable) :
    (∀ d now, IsAtomic t (fun r => (r.id : Int)) (serve (create d now) t) ∧
      ∀ r, (serve (create d now) t).1 = .ok r →
        t.find? r.id = none ∧ (serve (create d now) t).2.find? r.id = some r) ∧
    (∀ id c now, IsAtomic t (fun _ => id) (serve (update id c now) t) ∧
      ∀ r', (serve (update id c now) t).1 = .ok r' →
        ∃ r, t.find? id = some r ∧ (serve (update id c now) t).2.find? id = some r' ∧
          c.Changed now r r' ∧ ∀ fs, RuleChanges.read fs = .ok c →
            ∀ k, Fields.has fs k = false → k ≠ "updated_at" → r'.toJson.get? k = r.toJson.get? k) ∧
    (∀ id, IsAtomic t (fun _ => id) (serve (delete id) t) ∧
      ∀ u, (serve (delete id) t).1 = .ok u → (serve (delete id) t).2.find? id = none) := by
  refine ⟨fun d now => ?_, fun id c now => ?_, fun id => ?_⟩
  -- a creation or a deletion can only fail before anything waits
  · cases hvet : t.vet d with
    | error e =>
      rw [serve_create_error hvet]
      refine ⟨isAtomic_error (RuleTable.isRefusal_of_vet hvet), fun r hr => ?_⟩
      cases hr
    | ok u =>
      rw [serve_create_ok hvet]
      refine ⟨isAtomic_ok RuleTable.others_add, fun r hr => ?_⟩
      cases hr
      exact ⟨RuleTable.find?_nextId, RuleTable.get_eq_ok.1 RuleTable.get_nextId_add⟩
  · cases hr : t.get id with
    | error e =>
      rw [serve_update_error hr]
      refine ⟨isAtomic_error (RuleTable.isRefusal_of_get hr), fun r hr => ?_⟩
      cases hr
    | ok r =>
      have hfind := RuleTable.get_eq_ok.1 hr
      have hid : (r.id : Int) = id := RuleTable.id_eq_of_find? hfind
      by_cases hname : c.name = some none
      -- the change waits already, and the commit fails
      · rw [serve_update_emptied hr hname]
        refine ⟨isAtomic_error .constraint, fun r hr => ?_⟩
        cases hr
      · rw [serve_update_ok hr hname]
        subst hid
        refine ⟨isAtomic_ok (RuleTable.others_changed fun x => RuleChanges.made_id), fun r' hr' => ?_⟩
        cases hr'
        have hchanged : c.Changed now r (c.made now r) := RuleChanges.changed_made hname
        refine ⟨r, hfind, RuleTable.get_eq_ok.1 (RuleTable.get_changed hr fun x => RuleChanges.made_id),
          hchanged, fun fs hread k => hchanged.get?_eq hread⟩
  · cases hr : t.get id with
    | error e =>
      rw [serve_delete_error hr]
      refine ⟨isAtomic_error (RuleTable.isRefusal_of_get hr), fun u hu => ?_⟩
      cases hu
    | ok r =>
      rw [serve_delete_ok hr]
      obtain rfl : (r.id : Int) = id := RuleTable.id_eq_of_find? (RuleTable.get_eq_ok.1 hr)
      exact ⟨isAtomic_ok RuleTable.others_filter, fun _ _ => RuleTable.find?_filter⟩

end RuleSession

end SecureReview
