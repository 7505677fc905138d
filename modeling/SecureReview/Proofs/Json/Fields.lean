import SecureReview.Json.Access
import SecureReview.Json.Loose
/-!
# Fields of objects

Setting a field changes that field and no other. A field can be asked for
in objects only (`getD_eq_ok`).
-/

namespace SecureReview

namespace Fields

variable {fs gs : Fields} {k k' : String} {v : Json}

@[simp] theorem get?_nil : get? [] k = none := rfl

theorem get?_cons : get? ((k', v) :: fs) k = if k = k' then some v else get? fs k := by
  by_cases h : k = k'
  · simp [get?, h]
  · rw [if_neg h, get?, get?, List.lookup_cons, beq_false_of_ne h]

theorem get?_append : get? (fs ++ gs) k = (get? fs k).or (get? gs k) :=
  List.lookup_append

theorem isSome_get?_iff : (get? fs k).isSome = true ↔ k ∈ fs.map Prod.fst := by
  induction fs with
  | nil => simp
  | cons e fs ih =>
    obtain ⟨l, u⟩ := e
    rw [get?_cons, List.map_cons, List.mem_cons]
    by_cases h : k = l
    · simp [h]
    · simp [h, ih]

@[simp] theorem get?_put_self : get? (put fs k v) k = some v := by
  induction fs with
  | nil => simp [put, get?_cons]
  | cons e fs ih =>
    obtain ⟨l, u⟩ := e
    by_cases h : l = k
    · simp [put, get?_cons, h]
    · simp [put, get?_cons, h, Ne.symm h, ih]

/-- **A field that is set leaves the others alone.** -/
theorem get?_put_of_ne (h : k' ≠ k) : get? (put fs k v) k' = get? fs k' := by
  induction fs with
  | nil => simp [put, get?_cons, h]
  | cons e fs ih =>
    obtain ⟨l, u⟩ := e
    by_cases hl : l = k
    · subst hl
      simp [put, get?_cons, h]
    · simp [put, get?_cons, hl, ih]

theorem put_of_not_mem (h : k ∉ fs.map Prod.fst) : put fs k v = fs ++ [(k, v)] := by
  induction fs with
  | nil => rfl
  | cons e fs ih =>
    obtain ⟨l, u⟩ := e
    rw [List.map_cons, List.mem_cons, not_or] at h
    have hl : (l == k) = false := by simpa using Ne.symm h.1
    rw [put, hl, ih h.2]
    rfl

theorem map_fst_put : (put fs k v).map Prod.fst =
    if k ∈ fs.map Prod.fst then fs.map Prod.fst else fs.map Prod.fst ++ [k] := by
  induction fs with
  | nil => simp [put]
  | cons e fs ih =>
    obtain ⟨l, u⟩ := e
    by_cases hl : l = k
    · simp [put, hl]
    · simp only [put, beq_iff_eq, hl, ↓reduceIte, List.map_cons, ih, List.mem_cons, Ne.symm hl, false_or]
      split <;> rfl

theorem nodup_put (h : (fs.map Prod.fst).Nodup) : ((put fs k v).map Prod.fst).Nodup := by
  rw [map_fst_put]
  split
  · exact h
  · next hk =>
    rw [List.nodup_append]
    refine ⟨h, by simp, ?_⟩
    intro l hl l' hl' heq
    rw [List.mem_singleton.1 hl'] at heq
    exact hk (heq ▸ hl)

theorem mem_of_mem_put {f : String × Json} (h : f ∈ put fs k v) : f = (k, v) ∨ f ∈ fs := by
  induction fs with
  | nil => simpa [put] using h
  | cons e fs ih =>
    rw [put] at h
    split at h
    · obtain h | h := List.mem_cons.1 h
      · exact Or.inl h
      · exact Or.inr (List.mem_cons_of_mem e h)
    · obtain rfl | h := List.mem_cons.1 h
      · exact Or.inr List.mem_cons_self
      · exact (ih h).imp_right (List.mem_cons_of_mem e)

/-- **Distinct new fields are added at the end**, in their order. -/
theorem putAll_of_nodup {news : Fields} (h : ((fs ++ news).map Prod.fst).Nodup) :
    putAll fs news = fs ++ news := by
  induction news generalizing fs with
  | nil => simp [putAll]
  | cons e news ih =>
    obtain ⟨l, u⟩ := e
    have hl : l ∉ fs.map Prod.fst := by
      rw [List.map_append, List.nodup_append] at h
      intro hmem
      exact h.2.2 l hmem l (by simp) rfl
    have hstep : putAll fs ((l, u) :: news) = putAll (put fs l u) news := rfl
    rw [hstep, put_of_not_mem hl, ih (by simpa using h), List.append_assoc]
    rfl

end Fields

namespace Json

variable {v x d : Json} {j k t : String}

@[simp] theorem get?_obj {fs : Fields} : (obj fs).get? k = Fields.get? fs k := rfl

theorem require_of_get? {x : Json} (h : v.get? k = some x) : v.require k = .ok x := by
  cases v with
  | obj fs => rw [require, show Fields.get? fs k = some x from h]
  | _ => cases h

@[simp] theorem getD_obj {fs : Fields} : (obj fs).getD k d = .ok ((Fields.get? fs k).getD d) := rfl

/-- The value is an object. -/
def IsRecord (v : Json) : Prop :=
  ∃ fs, v = .obj fs

theorem getD_eq_ok : v.getD k d = .ok x ↔ v.IsRecord ∧ x = v.partOr k d := by
  cases v with
  | obj fs =>
    have hobj : (obj fs).IsRecord := ⟨fs, rfl⟩
    simp [hobj, partOr, eq_comm]
  | _ => simp [getD, IsRecord]

theorem get_eq_ok : v.get k = .ok x ↔ v.IsRecord ∧ x = v.part k :=
  getD_eq_ok

/-- A record that is missing has no parts. -/
theorem part_partOr : (v.partOr k (.obj [])).part j = (v.part k).part j := by
  unfold partOr part
  cases v.get? k <;> rfl

theorem isRecord_of_part (h : v.part k = .str t) : v.IsRecord := by
  cases v with
  | obj fs => exact ⟨fs, rfl⟩
  | _ => cases h

theorem same_str : v.same (.str t) = true ↔ v = .str t := by
  cases v <;> simp [same]

end Json

end SecureReview
