import SecureReview.Proofs.Rules.Keys
import SecureReview.Proofs.World.Effect
import SecureReview.Rules.Session
/-!
# Calls that are served in sessions

What each call gives and what it leaves committed, whether it succeeds or
fails (`serve_create`, `serve_update`, `serve_delete`, `serve_importRules`).
A call ends at most once in a commit, and after it nothing can fail. So
**the committed rules are those of the calls on tables**, through any
history of calls (`servedAll_eq_afterAll`).
-/

namespace SecureReview

/-! ## Changes of one rule -/

namespace RuleChanges

variable {c : RuleChanges} {now : DateTime} {r : Rule}

/-- The rule with the changes, but for an emptied name. -/
def made (c : RuleChanges) (now : DateTime) (r : Rule) : Rule :=
  { r with
    name := (c.name.getD (some r.name)).getD r.name
    enabled := c.enabled.getD r.enabled
    severityOverride := c.severityOverride.getD r.severityOverride
    customMessage := c.customMessage.getD r.customMessage
    description := c.description.getD r.description
    updatedAt := now }

/-- **Changes fail exactly if they empty the name.** -/
theorem apply_eq : c.apply now r =
    if c.name = some none then .error .integrity else .ok (c.made now r) := by
  unfold apply made
  rcases c.name with _ | _ | name <;> simp

@[simp] theorem made_id : (c.made now r).id = r.id := rfl

end RuleChanges

namespace RuleTable

variable {t : RuleTable} {d : RuleDraft} {r : Rule} {now : DateTime} {id : Int} {f : Rule → Rule}

/-- The rules, with those of a number changed. -/
def changed (t : RuleTable) (n : Nat) (f : Rule → Rule) : RuleTable :=
  t.map fun r => if r.id == n then f r else r

/-- The drafts whose keys a table has. -/
def refused (t : RuleTable) (ds : List RuleDraft) : List RuleDraft :=
  ds.filter fun d => t.isTaken d.tool d.ruleId

theorem get_eq_ok : t.get id = .ok r ↔ t.find? id = some r := by
  unfold get
  cases t.find? id <;> simp

theorem id_eq_of_find? (h : t.find? id = some r) : (r.id : Int) = id := by
  simpa using List.find?_some h

/-- The next number is new. -/
theorem find?_nextId : t.find? t.nextId = none := by
  rw [find?, List.find?_eq_none]
  intro x hx
  have := lt_nextId hx
  simp only [beq_iff_eq]
  omega

theorem get_nextId_add : (t.add d now).get t.nextId = .ok (d.toRule t.nextId now) := by
  rw [get_eq_ok, find?, add, List.find?_append, ← find?, find?_nextId]
  simp [RuleDraft.toRule]

theorem get_changed (h : t.get id = .ok r) (hf : ∀ x, (f x).id = x.id) :
    (t.changed r.id f).get r.id = .ok (f r) := by
  have hid := id_eq_of_find? (get_eq_ok.1 h)
  have hsame : ((fun x : Rule => (x.id : Int) == (r.id : Int)) ∘ fun x => if x.id == r.id then f x else x) =
      fun x => (x.id : Int) == id := by
    funext x
    by_cases hx : x.id = r.id
    · simp [hx, hf, hid]
    · simp [hx, ← hid]
  rw [get_eq_ok, find?, changed, List.find?_map, hsame, ← find?, get_eq_ok.1 h]
  simp

end RuleTable

namespace RuleSession

variable {α : Type} {t t' : RuleTable} {s : RuleSession} {d : RuleDraft} {ds : List RuleDraft}
variable {r : Rule} {now : DateTime} {id : Int} {c : RuleChanges} {e : Failure} {D : RuleDatabase}

/-! ## Steps of a session -/

@[simp] theorem run_rules : rules.run.run s = (.ok s.committed, s) := rfl

theorem run_find {x : Except Failure Rule} (h : t.get id = x) :
    (find id).run.run { committed := t } = (x, { committed := t }) := by
  rw [find, Effect.run_bind_ok run_rules, Effect.run_ofExcept, h]

theorem run_commit_ok (h : s.waiting.foldlM (RuleStatement.execute s.database) s.committed = .ok t) :
    commit.run.run s = (.ok (), { s with committed := t, waiting := [] }) := by
  rw [commit, Effect.run_get_bind, Effect.run_ofExcept_bind_ok h]
  rfl

/-- **A commit that fails carries out nothing.** -/
theorem run_commit_error
    (h : s.waiting.foldlM (RuleStatement.execute s.database) s.committed = .error e) :
    commit.run.run s = (.error e, s) := by
  rw [commit, Effect.run_get_bind, Effect.run_ofExcept_bind_error h]

theorem run_save_ok {change : RuleStatement} (h : change.execute {} t = .ok t') :
    (save change).run.run { committed := t } = (.ok (), { committed := t' }) := by
  have hawait : (await change).run.run { committed := t } =
      (.ok (), { committed := t, waiting := [change] }) := rfl
  rw [save, Effect.run_bind_ok hawait]
  exact run_commit_ok (by simp [h])

theorem run_save_error {change : RuleStatement} (h : change.execute {} t = .error e) :
    (save change).run.run { committed := t } = (.error e, { committed := t, waiting := [change] }) := by
  have hawait : (await change).run.run { committed := t } =
      (.ok (), { committed := t, waiting := [change] }) := rfl
  rw [save, Effect.run_bind_ok hawait]
  exact run_commit_error (by simp [h])

/-! ## What calls give and leave -/

theorem serveOn_eq {call : Effect RuleSession α} {x : Except Failure α}
    (h : call.run.run { committed := t, database := D } = (x, s)) :
    serveOn D call t = (x, s.committed) := by
  rw [serveOn, h]

theorem serve_eq {call : Effect RuleSession α} {x : Except Failure α}
    (h : call.run.run { committed := t } = (x, s)) : serve call t = (x, s.committed) :=
  serveOn_eq h

/-- A database that refuses nothing does not come into it. -/
theorem vet_default (t : RuleTable) (d : RuleDraft) : RuleDatabase.vet {} t d = t.vet d := by
  unfold RuleDatabase.vet
  split <;> rfl

theorem serve_create_ok (h : t.vet d = .ok ()) :
    serve (create d now) t = (.ok (d.toRule t.nextId now), t.add d now) := by
  have hsave : (save (.insert d now)).run.run { committed := t } =
      (.ok (), { committed := t.add d now }) := run_save_ok rfl
  refine serve_eq (s := { committed := t.add d now }) ?_
  rw [create, Effect.run_bind_ok run_rules, Effect.run_get_bind,
    Effect.run_ofExcept_bind_ok ((vet_default t d).trans h), Effect.run_bind_ok hsave,
    run_find RuleTable.get_nextId_add]

theorem serve_create_error (h : t.vet d = .error e) : serve (create d now) t = (.error e, t) := by
  refine serve_eq (s := { committed := t }) ?_
  rw [create, Effect.run_bind_ok run_rules, Effect.run_get_bind,
    Effect.run_ofExcept_bind_error ((vet_default t d).trans h)]

/-- What becomes of a row, if nothing is refused. -/
theorem store_apply (c : RuleChanges) (now : DateTime) (r : Rule) :
    (do RuleDatabase.store {} (← c.apply now r)) =
      if c.name = some none then .error .integrity else .ok (c.made now r) := by
  rw [← RuleChanges.apply_eq]
  cases c.apply now r <;> rfl

theorem execute_change (h : c.name ≠ some none) (n : Nat) :
    (RuleStatement.change n c now).execute {} t = .ok (t.changed n (c.made now)) := by
  refine Run.except_mapM_eq_ok fun x _ => ?_
  rw [store_apply, if_neg h]
  split <;> rfl

theorem execute_change_emptied (h : c.name = some none) (hr : r ∈ t) :
    (RuleStatement.change r.id c now).execute {} t = .error .integrity := by
  refine Run.except_mapM_eq_error (fun x _ => ?_) ⟨r, hr, ?_⟩
  · rw [store_apply, if_pos h]
    split
    · exact Or.inr rfl
    · exact Or.inl ⟨x, rfl⟩
  · rw [store_apply, if_pos h, if_pos (beq_self_eq_true r.id)]

theorem serve_update_ok (hr : t.get id = .ok r) (h : c.name ≠ some none) :
    serve (update id c now) t = (.ok (c.made now r), t.changed r.id (c.made now)) := by
  have hsave : (save (.change r.id c now)).run.run { committed := t } =
      (.ok (), { committed := t.changed r.id (c.made now) }) := run_save_ok (execute_change h r.id)
  refine serve_eq (s := { committed := t.changed r.id (c.made now) }) ?_
  rw [update, Effect.run_bind_ok (run_find hr), Effect.run_bind_ok hsave,
    run_find (RuleTable.get_changed hr fun x => RuleChanges.made_id)]

/-- An emptied name breaks the constraint when it is committed. -/
theorem serve_update_emptied (hr : t.get id = .ok r) (h : c.name = some none) :
    serve (update id c now) t = (.error .integrity, t) := by
  have hsave : (save (.change r.id c now)).run.run { committed := t } = (.error .integrity,
      { committed := t, waiting := [.change r.id c now] }) :=
    run_save_error (execute_change_emptied h (RuleTable.mem_of_get hr))
  refine serve_eq (s := { committed := t, waiting := [.change r.id c now] }) ?_
  rw [update, Effect.run_bind_ok (run_find hr), Effect.run_bind_error hsave]

theorem serve_update_error (h : t.get id = .error e) : serve (update id c now) t = (.error e, t) := by
  exact serve_eq (s := { committed := t }) (Effect.run_bind_error (run_find h))

theorem serve_delete_ok (hr : t.get id = .ok r) :
    serve (delete id) t = (.ok (), t.filter fun x => x.id != r.id) := by
  refine serve_eq (s := { committed := t.filter fun x => x.id != r.id }) ?_
  rw [delete, Effect.run_bind_ok (run_find hr)]
  exact run_save_ok rfl

theorem serve_delete_error (h : t.get id = .error e) : serve (delete id) t = (.error e, t) := by
  exact serve_eq (s := { committed := t }) (Effect.run_bind_error (run_find h))

end RuleSession

/-! ## Imports -/

namespace RuleTable

variable {t : RuleTable} {d : RuleDraft} {ds : List RuleDraft} {now : DateTime}

theorem nextId_add : (t.add d now).nextId = t.nextId + 1 := by
  unfold nextId add
  rw [List.foldl_append]
  simp only [List.foldl_cons, List.foldl_nil, RuleDraft.toRule, nextId]
  omega

/-- The rows that rules get at the end of a table, under consecutive numbers. -/
def newRows (t : RuleTable) (ds : List RuleDraft) (now : DateTime) : RuleTable :=
  (ds.zipIdx t.nextId).map fun p => p.1.toRule p.2 now

theorem length_newRows : (t.newRows ds now).length = ds.length := by
  rw [newRows, List.length_map, List.length_zipIdx]

theorem newRows_cons :
    t.newRows (d :: ds) now = d.toRule t.nextId now :: (t.add d now).newRows ds now := by
  rw [newRows, newRows, nextId_add, List.zipIdx_cons, List.map_cons]

/-- **Rules are added at the end**, in order. -/
theorem addAll_eq : t.addAll ds now = t ++ t.newRows ds now := by
  induction ds generalizing t with
  | nil => exact (List.append_nil t).symm
  | cons d ds ih =>
    calc t.addAll (d :: ds) now = (t.add d now).addAll ds now := rfl
      _ = t.add d now ++ (t.add d now).newRows ds now := ih
      _ = t ++ t.newRows (d :: ds) now := by
        rw [newRows_cons, add, List.append_assoc, List.singleton_append]

end RuleTable

namespace RuleDatabase

variable {D : RuleDatabase} {t : RuleTable} {d : RuleDraft} {ds : List RuleDraft} {now : DateTime}

/-- Why an import turns a rule away. -/
def complaint? (D : RuleDatabase) (t : RuleTable) (d : RuleDraft) : Option String :=
  match D.isTaken t d with
  | .error e => some e.message
  | .ok taken => if taken then some (RuleTable.takenText d) else none

/-- The rules that an import takes in. -/
def accepted (D : RuleDatabase) (t : RuleTable) (ds : List RuleDraft) : List RuleDraft :=
  ds.filter fun d => (D.complaint? t d).isNone

/-- The reasons for which it turns others away. -/
def complaints (D : RuleDatabase) (t : RuleTable) (ds : List RuleDraft) : List String :=
  ds.filterMap (D.complaint? t)

/-- **Rows are inserted until one is refused**, and then none are. -/
theorem foldlM_insert (D : RuleDatabase) (now : DateTime) (ds : List RuleDraft) (t : RuleTable) :
    (ds.map (RuleStatement.insert · now)).foldlM (RuleStatement.execute D) t =
      match (t.newRows ds now).findSome? D.unstored with
      | some e => .error e
      | none => .ok (t.addAll ds now) := by
  induction ds generalizing t with
  | nil => rfl
  | cons d ds ih =>
    rw [RuleTable.newRows_cons, List.findSome?_cons, List.map_cons, List.foldlM_cons,
      RuleStatement.execute, store]
    cases D.unstored (d.toRule t.nextId now) with
    | some e => rfl
    | none => exact ih (t.add d now)

/-! ### A database that refuses nothing -/

theorem complaint?_default : complaint? {} t d =
    if t.isTaken d.tool d.ruleId then some (RuleTable.takenText d) else none :=
  rfl

theorem accepted_default : accepted {} t ds = t.fresh ds := by
  refine List.filter_congr fun d _ => ?_
  rw [complaint?_default]
  cases t.isTaken d.tool d.ruleId <;> rfl

theorem complaints_default : complaints {} t ds = (t.refused ds).map RuleTable.takenText := by
  induction ds with
  | nil => rfl
  | cons d ds ih =>
    simp only [complaints, RuleTable.refused] at ih ⊢
    cases htaken : t.isTaken d.tool d.ruleId <;> simp [complaint?_default, htaken, ih]

end RuleDatabase

namespace RuleSession

variable {t : RuleTable} {s : RuleSession} {d : RuleDraft} {ds : List RuleDraft} {now : DateTime}
variable {D : RuleDatabase} {reason : String}

/-- A rule that is turned away is counted as failed, and nothing waits. -/
theorem run_importRule_of_complaint (m : ImportSummary)
    (h : s.database.complaint? s.committed d = some reason) :
    (importRule now m d).run.run s = (.ok (m.failing reason), s) := by
  unfold RuleDatabase.complaint? at h
  rw [importRule, Effect.run_tryCatch, importNew, Effect.run_bind_ok run_rules, Effect.run_get_bind]
  cases htaken : s.database.isTaken s.committed d with
  | error e =>
    rw [htaken] at h
    obtain rfl := Option.some.inj h
    rw [Effect.run_ofExcept_bind_error rfl]
    rfl
  | ok taken =>
    cases taken with
    | false => simp [htaken] at h
    | true =>
      simp only [htaken, if_true, Option.some.injEq] at h
      rw [Effect.run_ofExcept_bind_ok rfl, if_pos rfl, ← h]
      rfl

/-- Any other rule waits to be committed. -/
theorem run_importRule_of_no_complaint (m : ImportSummary)
    (h : s.database.complaint? s.committed d = none) :
    (importRule now m d).run.run s =
      (.ok { m with imported := m.imported + 1 },
        { s with waiting := s.waiting ++ [.insert d now] }) := by
  unfold RuleDatabase.complaint? at h
  rw [importRule, Effect.run_tryCatch, importNew, Effect.run_bind_ok run_rules, Effect.run_get_bind]
  cases htaken : s.database.isTaken s.committed d with
  | error e => simp [htaken] at h
  | ok taken =>
    cases taken with
    | true => simp [htaken] at h
    | false =>
      rw [Effect.run_ofExcept_bind_ok rfl, if_neg Bool.false_ne_true]
      rfl

/-- **The loop of an import.** The rules without a complaint wait in order,
and the summary counts both kinds. What waits is not looked at, so the
committed rules and the database decide alone. -/
theorem run_importRule (now : DateTime) (ds : List RuleDraft) (m : ImportSummary) (s : RuleSession) :
    (ds.foldlM (importRule now) m).run.run s =
      (.ok ⟨m.imported + (s.database.accepted s.committed ds).length,
          m.failed + (s.database.complaints s.committed ds).length,
          m.errors ++ s.database.complaints s.committed ds⟩,
        { s with waiting := s.waiting ++ (s.database.accepted s.committed ds).map (.insert · now) }) := by
  -- the committed rules are the same at every step, so the statement holds of any session
  induction ds generalizing m s with
  | nil =>
    change (Except.ok m, s) = _
    simp [RuleDatabase.accepted, RuleDatabase.complaints]
  | cons d ds ih =>
    rw [List.foldlM_cons]
    cases hcomplaint : s.database.complaint? s.committed d with
    | some reason =>
      rw [Effect.run_bind_ok (run_importRule_of_complaint m hcomplaint), ih]
      simp [RuleDatabase.accepted, RuleDatabase.complaints, hcomplaint, ImportSummary.failing,
        Nat.add_assoc, Nat.add_comm 1]
    | none =>
      rw [Effect.run_bind_ok (run_importRule_of_no_complaint m hcomplaint), ih]
      simp [RuleDatabase.accepted, RuleDatabase.complaints, hcomplaint, Nat.add_assoc, Nat.add_comm 1]

/-- **What an import gives and leaves.** If the database refuses one of the
rows, that is what the import fails with, and nothing is stored. -/
theorem serveOn_importRules (D : RuleDatabase) (t : RuleTable) (ds : List RuleDraft) (now : DateTime) :
    serveOn D (importRules ds now) t =
      match (t.newRows (D.accepted t ds) now).findSome? D.unstored with
      | some e => (.error e, t)
      | none => (.ok ⟨(D.accepted t ds).length, (D.complaints t ds).length, (D.complaints t ds).take 10⟩,
          t.addAll (D.accepted t ds) now) := by
  have hloop := run_importRule now ds ⟨0, 0, []⟩ { committed := t, database := D }
  have hinsert := RuleDatabase.foldlM_insert D now (D.accepted t ds) t
  cases hrefused : (t.newRows (D.accepted t ds) now).findSome? D.unstored with
  | some e =>
    rw [hrefused] at hinsert
    refine serveOn_eq (s := ⟨t, (D.accepted t ds).map (.insert · now), D⟩) ?_
    rw [importRules, Effect.run_bind_ok hloop]
    exact Effect.run_bind_error (run_commit_error hinsert)
  | none =>
    rw [hrefused] at hinsert
    refine serveOn_eq (s := { committed := t.addAll (D.accepted t ds) now, database := D }) ?_
    rw [importRules, Effect.run_bind_ok hloop]
    refine (Effect.run_bind_ok (run_commit_ok hinsert)).trans ?_
    rw [Effect.run_pure]
    simp

theorem serve_importRules : serve (importRules ds now) t =
    (.ok (t.importRules ds now).1, (t.importRules ds now).2) := by
  have hstored (rows : List Rule) : rows.findSome? (RuleDatabase.unstored {}) = none := by
    rw [List.findSome?_eq_none_iff]
    exact fun _ _ => rfl
  rw [serve, serveOn_importRules, hstored, RuleDatabase.accepted_default, RuleDatabase.complaints_default,
    List.length_map]
  rfl

end RuleSession

/-! ## Histories of calls -/

namespace RuleTable

variable {t : RuleTable} {call : RuleCall}

/-- The committed rules after a call was served. -/
def served (t : RuleTable) : RuleCall → RuleTable
  | .create d now => (RuleSession.serve (RuleSession.create d now) t).2
  | .update id c now => (RuleSession.serve (RuleSession.update id c now) t).2
  | .delete id => (RuleSession.serve (RuleSession.delete id) t).2
  | .importRules ds now => (RuleSession.serve (RuleSession.importRules ds now) t).2

/-- The committed rules after calls were served, one after the other. -/
def servedAll (t : RuleTable) (calls : List RuleCall) : RuleTable :=
  calls.foldl served t

/-- The rule of a number is the only one that changes, as numbers are
distinct. -/
theorem changed_eq (hids : t.ids.Nodup) {r : Rule} (hr : r ∈ t) {f : Rule → Rule}
    (hf : (f r).id = r.id) :
    t.changed r.id f = t.map fun x => if x.id == (f r).id then f r else x := by
  refine List.map_congr_left fun x hx => ?_
  rw [hf]
  by_cases hxid : x.id = r.id
  · rw [List.inj_on_of_nodup_map hids hx hr hxid]
  · simp [hxid]

/-- **A call that is served commits what the call on the table gives**, and
a call that fails commits nothing. -/
theorem served_eq_after (hids : t.ids.Nodup) : t.served call = t.after call := by
  cases call with
  | create d now =>
    rw [served, after, create]
    cases hvet : t.vet d with
    | error e => rw [RuleSession.serve_create_error hvet]; rfl
    | ok u => rw [RuleSession.serve_create_ok hvet]; rfl
  | update id c now =>
    rw [served, after, update]
    cases hr : t.get id with
    | error e => rw [RuleSession.serve_update_error hr]; rfl
    | ok r =>
      by_cases hname : c.name = some none
      · rw [RuleSession.serve_update_emptied hr hname]
        simp [bind, Except.bind, RuleChanges.apply_eq, hname]
      · rw [RuleSession.serve_update_ok hr hname, changed_eq hids (mem_of_get hr) rfl]
        simp [bind, Except.bind, RuleChanges.apply_eq, hname, pure, Except.pure]
  | delete id =>
    rw [served, after, delete]
    cases hr : t.get id with
    | error e => rw [RuleSession.serve_delete_error hr]; rfl
    | ok r => rw [RuleSession.serve_delete_ok hr]; rfl
  | importRules ds now => rw [served, after, RuleSession.serve_importRules]

/-- **Histories of calls lead to the same rules**, on tables with distinct
numbers, the empty one among them. -/
theorem servedAll_eq_afterAll {calls : List RuleCall} (hids : t.ids.Nodup) :
    t.servedAll calls = t.afterAll calls := by
  induction calls generalizing t with
  | nil => rfl
  | cons call calls ih =>
    have hserved : t.served call = t.after call := served_eq_after hids
    calc t.servedAll (call :: calls) = (t.served call).servedAll calls := rfl
      _ = (t.after call).servedAll calls := by rw [hserved]
      _ = (t.after call).afterAll calls := ih (ids_nodup_after hids)

theorem servedAll_nil (calls : List RuleCall) : servedAll [] calls = afterAll [] calls :=
  servedAll_eq_afterAll List.nodup_nil

end RuleTable

end SecureReview
