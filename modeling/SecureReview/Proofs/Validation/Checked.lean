import SecureReview.Proofs.Json.Reading
import SecureReview.Validation.Validator
/-!
# Checks that succeed

A record is accepted when all its fields are: the inversions here take
an accepted record apart, one lemma for each way of putting checks
together and for each limit.

What is written and read by a validator is known only as far as the
validator keeps the rules of its operations (`Validator.Lawful`). The
validator of a run keeps them.
-/

namespace SecureReview

namespace Checked

variable {α β : Type} {x : Checked α} {a : α} {b : β} {fs : Fields} {k : String}
variable {check : Json → Checked α}

theorem seq_eq_ok {f : Checked (α → β)} : f <*> x = .ok b ↔ ∃ g a, f = .ok g ∧ x = .ok a ∧ g a = b := by
  change apply f x = .ok b ↔ _
  cases f <;> cases x <;> simp [apply]

theorem map_eq_ok {g : α → β} : g <$> x = .ok b ↔ ∃ a, x = .ok a ∧ g a = b := by
  change apply (.ok g) x = .ok b ↔ _
  cases x <;> simp [apply]

@[simp] theorem within_eq_ok {place : String} : x.within place = .ok a ↔ x = .ok a := by
  cases x <;> simp [within]

@[simp] theorem get_eq_ok {model : String} : x.get model = .ok a ↔ x = .ok a := by
  cases x <;> simp [get]

theorem andThen_eq_ok {f : α → Checked β} : x.andThen f = .ok b ↔ ∃ a, x = .ok a ∧ f a = .ok b := by
  cases x <;> simp [andThen]

theorem present_str (check : Json → Checked α) (s : String) :
    present check (.str s) = check (.str s) :=
  rfl

theorem of_present {v : Json} (h : present check v = .ok a) : check v = .ok a := by
  unfold present at h
  split at h
  · cases h
  · exact h

/-- A required field is there, and its value passes. -/
theorem required_eq_ok :
    required fs k check = .ok a ↔ ∃ v, Fields.get? fs k = some v ∧ present check v = .ok a := by
  cases h : Fields.get? fs k with
  | none => simp [required, h, complain]
  | some v => simp [required, h]

theorem required_of {v : Json} (h : Fields.get? fs k = some v) (hv : v ≠ .null) (ha : check v = .ok a) :
    required fs k check = .ok a := by
  refine required_eq_ok.2 ⟨v, h, ?_⟩
  unfold present
  split
  · exact absurd rfl hv
  · exact ha

theorem required_str {s : String} (h : Fields.get? fs k = some (.str s)) :
    required fs k string = .ok s :=
  required_eq_ok.2 ⟨_, h, rfl⟩

theorem optional_ofString? {o : Option String} (h : Fields.get? fs k = some (Json.ofString? o)) :
    optional fs k string = .ok o := by
  unfold optional
  rw [h]
  cases o <;> rfl

/-- An optional field is missing or null, or its value passes. -/
theorem optional_eq_ok {o : Option α} (h : optional fs k check = .ok o) :
    (o = none ∧ (Fields.get? fs k = none ∨ Fields.get? fs k = some .null)) ∨
      ∃ v a, Fields.get? fs k = some v ∧ check v = .ok a ∧ o = some a := by
  unfold optional at h
  split at h
  · next hv => exact Or.inl ⟨by simpa using h.symm, Or.inr hv⟩
  · next v _ hv =>
    obtain ⟨a, ha, rfl⟩ := map_eq_ok.1 (within_eq_ok.1 h)
    exact Or.inr ⟨v, a, hv, ha, rfl⟩
  · next hv => exact Or.inl ⟨by simpa using h.symm, Or.inl hv⟩

theorem optional_null (h : Fields.get? fs k = some .null) : optional fs k check = .ok none := by
  simp only [optional, h]

theorem optional_some {v : Json} (h : Fields.get? fs k = some v) (hv : v ≠ .null) (ha : check v = .ok a) :
    optional fs k check = .ok (some a) := by
  unfold optional
  split
  · next hnull => exact absurd (Option.some.inj (h.symm.trans hnull)) hv
  · next w _ hw =>
    obtain rfl := Option.some.inj (h.symm.trans hw)
    exact within_eq_ok.2 (map_eq_ok.2 ⟨a, ha, rfl⟩)
  · next hnone => cases h.symm.trans hnone

/-! ## Limits -/

theorem atLeast_eq_ok {n : Nat} {s t : String} : atLeast n s = .ok t ↔ n ≤ s.length ∧ s = t := by
  unfold atLeast
  split
  · next h => simp [complain, Nat.not_le.2 h]
  · next h => simp [Nat.not_lt.1 h]

theorem atMost_eq_ok {n : Nat} {s t : String} : atMost n s = .ok t ↔ s.length ≤ n ∧ s = t := by
  unfold atMost
  split
  · next h => simp [complain, Nat.not_le.2 h]
  · next h => simp [Nat.not_lt.1 h]

theorem unit_eq_ok {p q : Float} : unit p = .ok q ↔ (0.0 ≤ p ∧ p ≤ 1.0) ∧ p = q := by
  unfold unit
  by_cases hlow : 0.0 ≤ p <;> by_cases hhigh : p ≤ 1.0 <;> simp [complain, hlow, hhigh]

end Checked

/-! ## Lawful validators -/

/-- What a form of texts, numbers and lists of texts holds. -/
def Json.isEntry : Json → Bool
  | .null => true
  | .str _ => true
  | .float x => (Number.parts x matches .finite ..)
  | .arr xs => xs.all (· matches .str _)
  | _ => false

/-- **The rules of a validator's operations.** Writing gives JSON text for
the record, and a text that was written is read by what it stands for; a
value of the very kind is taken as it is, and the limits are kept. Which
values of other kinds are taken is left open, as are the text for a number
that is not finite and the reading of texts from elsewhere. -/
class Validator.Lawful [Validator] : Prop where
  parse_write {fs : Fields} : (fs.map Prod.fst).Nodup → (∀ f ∈ fs, f.2.isEntry = true) →
    Json.parseString (write (.obj fs)) = .ok (.obj fs)
  fields_of_parse {form : String} {gs fs : Fields} : (∀ f ∈ fs, f.2.isEntry = true) →
    Json.parseString (write (.obj gs)) = .ok (.obj fs) →
      fields form (some (write (.obj gs))) = .ok fs
  string_str (s : String) : string (.str s) = .ok s
  float_float (x : Float) : float (.float x) = .ok x
  member_str {α : Type} {members : List (String × α)} {s : String} {a : α} (shown : List String) :
    members.lookup s = some a → member members shown (.str s) = .ok a
  list_arr {α : Type} {check : Json → Checked α} {xs : List Json} {ys : List α} :
    List.Forall₂ (fun x y => x ≠ .null ∧ check x = .ok y) xs ys → list check (.arr xs) = .ok ys
  atLeast_eq_ok {n : ℕ} {s t : String} : atLeast n s = .ok t ↔ n ≤ s.length ∧ s = t
  atMost_eq_ok {n : ℕ} {s t : String} : atMost n s = .ok t ↔ s.length ≤ n ∧ s = t
  unit_eq_ok {p q : Float} : unit p = .ok q ↔ (0.0 ≤ p ∧ p ≤ 1.0) ∧ p = q
  required_of {α : Type} {fs : Fields} {k : String} {check : Json → Checked α} {v : Json} {a : α} :
    Fields.get? fs k = some v → v ≠ .null → check v = .ok a → required fs k check = .ok a
  of_required {α : Type} {fs : Fields} {k : String} {check : Json → Checked α} {a : α} :
    required fs k check = .ok a → ∃ v, Fields.get? fs k = some v ∧ check v = .ok a
  optional_null {α : Type} {fs : Fields} {k : String} {check : Json → Checked α} :
    Fields.get? fs k = some .null → optional fs k check = .ok none
  optional_some {α : Type} {fs : Fields} {k : String} {check : Json → Checked α} {v : Json} {a : α} :
    Fields.get? fs k = some v → v ≠ .null → check v = .ok a → optional fs k check = .ok (some a)
  of_optional {α : Type} {fs : Fields} {k : String} {check : Json → Checked α} {a : α} :
    optional fs k check = .ok (some a) → ∃ v, Fields.get? fs k = some v ∧ check v = .ok a

namespace Validator

theorem distinctKeys_of_isEntry {v : Json} (h : v.isEntry = true) : v.distinctKeys = true := by
  cases v with
  | arr xs =>
    refine Json.distinctKeysList_iff.2 fun x hx => ?_
    have hx := List.all_eq_true.1 h x hx
    cases x <;> first | rfl | cases hx
  | obj _ => cases h
  | _ => rfl

theorem distinctKeys_entries {fs : Fields} (hkeys : (fs.map Prod.fst).Nodup)
    (h : ∀ f ∈ fs, f.2.isEntry = true) : (Json.obj fs).distinctKeys = true :=
  Json.distinctKeys_obj.2 ⟨hkeys, fun f hf => distinctKeys_of_isEntry (h f hf)⟩

theorem items_of_forall₂ {α : Type} {check : Json → Checked α} {xs : List Json} {ys : List α}
    (h : List.Forall₂ (fun x y => x ≠ .null ∧ check x = .ok y) xs ys) (n : ℕ) :
    Checked.items (Checked.present check) n xs = .ok ys := by
  induction h generalizing n with
  | nil => rfl
  | @cons x y _ _ hxy _ ih =>
    have hpresent : Checked.present check x = .ok y := by
      rw [Checked.present.eq_2 check x hxy.1, hxy.2]
    rw [Checked.items, hpresent, ih (n + 1)]
    rfl

/-- The validator of a run, writing in the given layout. -/
@[reducible] def writing (l : Json.Layout) : Validator :=
  { coercing with write v := String.ofList (l.write 0 v) }

/-- A validator that reads as in a run is lawful in every layout. -/
theorem lawful_writing (l : Json.Layout) : @Lawful (writing l) :=
  letI := writing l
  { parse_write hkeys h := by
      change Json.parse (String.toList (String.ofList _)) = _
      rw [String.toList_ofList, Json.parse_write l 0 (distinctKeys_entries hkeys h)]
    fields_of_parse {form gs} _ _ hparse := by
      change Checked.fieldsOfText form (some (Validator.write (.obj gs))) = _
      rw [Checked.fieldsOfText, hparse]
      rfl
    string_str _ := rfl
    float_float _ := rfl
    member_str shown h := by
      change Checked.member _ shown _ = _
      simp only [Checked.member, h]
    list_arr h := items_of_forall₂ h 0
    atLeast_eq_ok := Checked.atLeast_eq_ok
    atMost_eq_ok := Checked.atMost_eq_ok
    unit_eq_ok := Checked.unit_eq_ok
    required_of := Checked.required_of
    of_required h := by
      obtain ⟨v, hv, ha⟩ := Checked.required_eq_ok.1 h
      exact ⟨v, hv, Checked.of_present ha⟩
    optional_null := Checked.optional_null
    optional_some := Checked.optional_some
    of_optional h := by
      obtain ⟨hnone, -⟩ | ⟨v, a, hv, ha, hsome⟩ := Checked.optional_eq_ok h
      · cases hnone
      · exact ⟨v, hv, Option.some.inj hsome ▸ ha⟩ }

theorem coercing_eq : coercing = writing .line := by
  have hwrite : Json.compact = fun v => String.ofList (Json.Layout.line.write 0 v) :=
    funext fun v => by rw [Json.Layout.write_line, Json.compact]
  rw [writing, ← hwrite]
  rfl

instance : Lawful := by
  rw [coercing_eq]
  exact lawful_writing .line

end Validator

end SecureReview
