import Mathlib.Data.List.Perm.Basic
import Mathlib.Tactic.Tauto
import SecureReview.Store.Basic
/-!
# Entries of a store

A store that can be reached carries out every operation. What is under a
key after one of them depends on the operation alone: a key that is set has
its new entry, a key that is removed has none, and **every other key is as
it was**.
-/

namespace SecureReview.Store

variable {α : Type} {s : Store} {es : List (String × α)} {a : α} {k l : String}

/-! ## Lists of entries -/

theorem lookup_cons (e : String × α) (es : List (String × α)) (k : String) :
    (e :: es).lookup k = if k = e.1 then some e.2 else es.lookup k := by
  by_cases h : k = e.1
  · rw [if_pos h, List.lookup_cons, beq_iff_eq.2 h]
  · rw [if_neg h, List.lookup_cons, beq_false_of_ne h]

@[simp] theorem lookup_put_self (k : String) (a : α) (es : List (String × α)) :
    (put k a es).lookup k = some a := by
  induction es with
  | nil => simp [put]
  | cons e es ih =>
    by_cases h : e.1 = k
    · simp [put, h]
    · simp [put, h, lookup_cons, Ne.symm h, ih]

/-- **Another key keeps its entry.** -/
theorem lookup_put_of_ne (h : l ≠ k) (a : α) (es : List (String × α)) :
    (put k a es).lookup l = es.lookup l := by
  induction es with
  | nil => simp [put, lookup_cons, h]
  | cons e es ih =>
    by_cases he : e.1 = k
    · simp [put, lookup_cons, he, h]
    · simp [put, lookup_cons, he, ih]

/-- Setting an entry adds its key, unless it is there. -/
theorem mem_map_fst_put : l ∈ (put k a es).map (·.1) ↔ l = k ∨ l ∈ es.map (·.1) := by
  induction es with
  | nil => simp [put]
  | cons e es ih =>
    by_cases h : e.1 = k
    · simp [put, h]
    · simp only [put, beq_iff_eq, h, if_false, List.map_cons, List.mem_cons, ih]
      tauto

theorem nodup_put (h : (es.map (·.1)).Nodup) : ((put k a es).map (·.1)).Nodup := by
  induction es with
  | nil => simp [put]
  | cons e es ih =>
    rw [List.map_cons, List.nodup_cons] at h
    by_cases he : e.1 = k
    · simpa [put, he] using h
    · simp only [put, beq_iff_eq, he, if_false, List.map_cons, List.nodup_cons, mem_map_fst_put,
        false_or]
      exact ⟨h.1, ih h.2⟩

/-- Where keys are not repeated, an entry is there if it is found. -/
theorem mem_iff_lookup (h : (es.map (·.1)).Nodup) : (k, a) ∈ es ↔ es.lookup k = some a := by
  induction es with
  | nil => simp
  | cons e es ih =>
    rw [List.map_cons, List.nodup_cons] at h
    rw [lookup_cons, List.mem_cons, ih h.2]
    by_cases hk : k = e.1
    · -- the rest does not have this key
      have hnone : es.lookup k ≠ some a := fun hsome =>
        h.1 (hk ▸ List.mem_map_of_mem ((ih h.2).2 hsome))
      rw [if_pos hk, Option.some.injEq]
      constructor
      · rintro (rfl | hsome)
        · rfl
        · exact absurd hsome hnone
      · rintro rfl
        exact Or.inl (by rw [hk])
    · rw [if_neg hk]
      refine ⟨fun h => h.resolve_left ?_, Or.inr⟩
      rintro rfl
      exact hk rfl

theorem lookup_filter (p : String → Bool) (es : List (String × α)) (k : String) :
    (es.filter fun e => p e.1).lookup k = if p k then es.lookup k else none := by
  induction es with
  | nil => simp
  | cons e es ih =>
    by_cases he : p e.1 = true
    · rw [List.filter_cons, if_pos he, lookup_cons, lookup_cons, ih]
      by_cases hk : k = e.1
      · simp [hk, he]
      · simp [hk]
    · rw [List.filter_cons, if_neg he, lookup_cons, ih]
      by_cases hk : k = e.1
      · simp [hk, he]
      · simp [hk]

/-! ## Patterns of keys -/

theorem has_single {c d : Char} : (single c).has d = true ↔ d = c := by
  simp only [single, CharSet.has, List.any_cons, List.any_nil, Bool.or_false, Bool.bne_false,
    Bool.and_eq_true, decide_eq_true_eq, ← Char.toNat_inj]
  omega

/-- A character of a pattern that stands for itself. -/
def IsPlain (c : Char) : Prop :=
  c ≠ '*' ∧ c ≠ '?' ∧ c ≠ '[' ∧ c ≠ '\\'

instance (c : Char) : Decidable (IsPlain c) :=
  inferInstanceAs (Decidable (_ ∧ _))

theorem keyParts_star (p : List Char) : keyParts ('*' :: p) = .any :: keyParts p := by
  simp [keyParts]

theorem keyParts_plain {c : Char} (hc : IsPlain c) (p : List Char) :
    keyParts (c :: p) = .one (single c) :: keyParts p := by
  obtain ⟨hstar, hmark, hbracket, hslash⟩ := hc
  simp [keyParts, hstar, hmark, hbracket, hslash]

theorem hasParts_one_cons {cs : CharSet} {ps : List KeyPart} {t : List Char} :
    hasParts (.one cs :: ps) t = true ↔ ∃ c u, t = c :: u ∧ cs.has c = true ∧ hasParts ps u = true := by
  cases t <;> simp [hasParts]

/-- **Any text in front** passes over any text. -/
theorem hasParts_any_cons {ps : List KeyPart} {t : List Char} :
    hasParts (.any :: ps) t = true ↔ ∃ a b, t = a ++ b ∧ hasParts ps b = true := by
  induction t with
  | nil => simp [hasParts]
  | cons c t ih =>
    rw [hasParts, Bool.or_eq_true, ih]
    constructor
    · rintro (h | ⟨a, b, rfl, h⟩)
      · exact ⟨[], c :: t, rfl, h⟩
      · exact ⟨c :: a, b, rfl, h⟩
    · rintro ⟨a, b, hsplit, h⟩
      cases a with
      | nil => exact Or.inl (hsplit ▸ h)
      | cons d a =>
        obtain ⟨rfl, rfl⟩ := List.cons.inj hsplit
        exact Or.inr ⟨a, b, rfl, h⟩

/-- **Each set of a pattern has a character of every text that it fits.** -/
theorem exists_mem_of_hasParts {ps : List KeyPart} {t : List Char} (h : hasParts ps t = true)
    {cs : CharSet} (hcs : .one cs ∈ ps) : ∃ c ∈ t, cs.has c = true := by
  induction ps generalizing t with
  | nil => cases hcs
  | cons part ps ih =>
    cases part with
    | any =>
      obtain ⟨a, b, rfl, hb⟩ := hasParts_any_cons.1 h
      obtain ⟨c, hc, hhas⟩ := ih hb (by simpa using hcs)
      exact ⟨c, List.mem_append_right a hc, hhas⟩
    | one cs' =>
      obtain ⟨c, u, rfl, hhas, hu⟩ := hasParts_one_cons.1 h
      obtain hcs | hcs := List.mem_cons.1 hcs
      · cases hcs
        exact ⟨c, List.mem_cons_self, hhas⟩
      · obtain ⟨d, hd, hhas⟩ := ih hu hcs
        exact ⟨d, List.mem_cons_of_mem c hd, hhas⟩

/-- Without brackets and backslashes, a character that is no wildcard is asked for. -/
theorem one_mem_keyParts {p q : List Char} (hp : ∀ c ∈ p, c ≠ '[' ∧ c ≠ '\\') {c : Char} (hc : c ∈ p)
    (hstar : c ≠ '*') (hmark : c ≠ '?') : .one (single c) ∈ keyParts (p ++ q) := by
  induction p with
  | nil => cases hc
  | cons d p ih =>
    obtain ⟨⟨hbracket, hslash⟩, hp⟩ := List.forall_mem_cons.1 hp
    obtain rfl | hc := List.mem_cons.1 hc
    · rw [List.cons_append, keyParts_plain ⟨hstar, hmark, hbracket, hslash⟩]
      exact List.mem_cons_self
    · -- a wildcard is passed over as a plain character is
      have hrest := ih hp hc
      rw [List.cons_append, keyParts]
      split_ifs <;> simp_all

/-- A plain text at the start of a pattern is passed over. -/
theorem fits_append_append {w : List Char} (hw : ∀ c ∈ w, IsPlain c) (p t : List Char) :
    fits (w ++ p) (w ++ t) = fits p t := by
  induction w with
  | nil => rfl
  | cons c w ih =>
    obtain ⟨hc, hw⟩ := List.forall_mem_cons.1 hw
    have hself : (single c).has c = true := has_single.2 rfl
    rw [← ih hw, List.cons_append, List.cons_append, fits, fits, keyParts_plain hc, hasParts, hself,
      Bool.true_and]

/-- **A plain text with a star at its end fits the keys that begin with it.** -/
theorem fits_append_star {w : List Char} (hw : ∀ c ∈ w, IsPlain c) (t : List Char) :
    fits (w ++ ['*']) t = true ↔ w <+: t := by
  induction w generalizing t with
  | nil =>
    refine iff_of_true ?_ List.nil_prefix
    rw [List.nil_append, fits, keyParts_star]
    exact hasParts_any_cons.2 ⟨t, [], (List.append_nil t).symm, by simp [keyParts, hasParts]⟩
  | cons c w ih =>
    obtain ⟨hc, hw⟩ := List.forall_mem_cons.1 hw
    have ih := ih hw
    rw [List.cons_append, fits, keyParts_plain hc, hasParts_one_cons]
    constructor
    · rintro ⟨d, u, rfl, hd, hu⟩
      exact List.cons_prefix_cons.2 ⟨(has_single.1 hd).symm, (ih u).1 hu⟩
    · rintro ⟨u, rfl⟩
      exact ⟨c, w ++ u, rfl, has_single.2 rfl, (ih _).2 (List.prefix_append w u)⟩

/-! ## Operations of a store that can be reached -/

theorem get_eq (h : s.isDown = false) (k : String) : s.get k = .ok (s.texts.lookup k) := by
  simp [get, reach, h, bind, Except.bind, pure, Except.pure]

theorem set_eq (h : s.isDown = false) (k : String) (ttl : Json) (text : String) :
    s.set k ttl text =
      .ok { s with texts := put k text s.texts, expiries := put k ttl s.expiries } := by
  simp [set, reach, h, bind, Except.bind, pure, Except.pure]

theorem delete_eq (h : s.isDown = false) (ks : List String) : s.delete ks =
    .ok { s with texts := s.texts.filter fun e => !ks.contains e.1,
                 expiries := s.expiries.filter fun e => !ks.contains e.1 } := by
  simp [delete, reach, h, bind, Except.bind, pure, Except.pure]

theorem keys_eq (h : s.isDown = false) (pattern : String) : s.keys pattern =
    .ok ((s.texts.map (·.1)).filter fun k => fits pattern.toList k.toList) := by
  simp [keys, reach, h, bind, Except.bind, pure, Except.pure]

/-! ## Sorted sets -/

/-- The members of the sorted set under a key, in no order. -/
def scored (s : Store) (k : String) : List (String × Num) :=
  (s.sorted.lookup k).getD []

theorem addSorted_eq (h : s.isDown = false) (k member : String) (score : Num) :
    s.addSorted k member score =
      .ok { s with sorted := put k (put member score (s.scored k)) s.sorted } := by
  simp [addSorted, scored, reach, h, bind, Except.bind, pure, Except.pure]

theorem expire_eq (h : s.isDown = false) (k : String) (ttl : Json) :
    s.expire k ttl = .ok { s with expiries := put k ttl s.expiries } := by
  simp [expire, reach, h, bind, Except.bind, pure, Except.pure]

/-- **A range of a sorted set** has the members with a score between the
bounds, each of them once. -/
theorem range_spec (h : s.isDown = false) (hkeys : ((s.scored k).map (·.1)).Nodup) (low high : Num) :
    ∃ found, s.range k low high = .ok found ∧ found.Nodup ∧ ∀ text, text ∈ found ↔
      ∃ score, (s.scored k).lookup text = some score ∧ low.le score = true ∧ score.le high = true := by
  have hperm : (s.members k).Perm (s.scored k) := List.mergeSort_perm _ _
  refine ⟨_, by simp [range, reach, h, bind, Except.bind, pure, Except.pure]; rfl, ?_, ?_⟩
  · have hnodup := (hperm.map (·.1)).nodup_iff.2 hkeys
    exact hnodup.sublist (List.filter_sublist.map _)
  · intro text
    simp only [List.mem_map, List.mem_filter, Bool.and_eq_true, hperm.mem_iff]
    constructor
    · rintro ⟨⟨text', score⟩, ⟨hmem, hle⟩, rfl⟩
      exact ⟨score, (mem_iff_lookup hkeys).1 hmem, hle⟩
    · rintro ⟨score, hlookup, hle⟩
      exact ⟨(text, score), ⟨(mem_iff_lookup hkeys).2 hlookup, hle⟩, rfl⟩

end SecureReview.Store
