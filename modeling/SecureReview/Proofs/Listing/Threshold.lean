import Mathlib.Data.List.Perm.Basic
import SecureReview.Proofs.Listing.ReadBack
/-!
# The gate as a threshold

Severities are graded, and a threshold is a grade. The gate ranks a severity
in small letters and the interchange format gives it a level in capitals, by
tables of their own. On severities that are plain ASCII texts the two agree:
each of them only asks **which grade the severity names, whatever its letter
case** (`reaches_iff`, `level_eq_error_iff`). So the gate fails a build
exactly if some finding has a grade from the threshold on, and at the
threshold `high` exactly if some result of the listing is an error.
-/

namespace SecureReview

/-! ## Letter case -/

namespace Text

variable {s : String}

/-- A text of plain ASCII characters. -/
def IsAscii (s : String) : Prop :=
  ∀ c ∈ s.toList, c.toNat < 128

theorem toList_toLower (s : String) : s.toLower.toList = s.toList.map Char.toLower :=
  String.toList_map

theorem toList_toUpper (s : String) : s.toUpper.toList = s.toList.map Char.toUpper :=
  String.toList_map

theorem lower_of_isAscii (h : IsAscii s) : lower s = s.toLower := by
  have hchars : ∀ c ∈ s.toList, lowerChar c = [c.toLower] := fun c hc => if_pos (h c hc)
  rw [lower, List.flatMap_congr hchars, ← List.map_eq_flatMap, ← String.toList_inj,
    String.toList_ofList, toList_toLower]

theorem upper_of_isAscii (h : IsAscii s) : upper s = s.toUpper := by
  have hchars : ∀ c ∈ s.toList, upperChar c = [c.toUpper] := fun c hc => if_pos (h c hc)
  rw [upper, List.flatMap_congr hchars, ← List.map_eq_flatMap, ← String.toList_inj,
    String.toList_ofList, toList_toUpper]

/-- Beyond ASCII letters keep their case. -/
theorem toUpper_of_le {c : Char} (h : 128 ≤ c.toNat) : c.toUpper = c ∧ c.toLower = c := by
  have hval : 128 ≤ c.val.toNat := h
  refine ⟨dif_neg ?_, dif_neg ?_⟩
  · rintro ⟨-, hz⟩
    have : c.val.toNat ≤ 122 := hz
    omega
  · rintro ⟨-, hz⟩
    have : c.val.toNat ≤ 90 := hz
    omega

theorem toLower_toUpper (c : Char) :
    c.toUpper.toLower = c.toLower ∧ c.toLower.toUpper = c.toUpper := by
  obtain h | h := Nat.lt_or_ge c.toNat 128
  · have hall : ∀ n < 128, (Char.ofNat n).toUpper.toLower = (Char.ofNat n).toLower ∧
        (Char.ofNat n).toLower.toUpper = (Char.ofNat n).toUpper := by decide
    rw [← Char.ofNat_toNat c]
    exact hall c.toNat h
  · simp only [toUpper_of_le h, and_self]

/-- **A text is a word in capitals** if it is the word in small letters. -/
theorem toUpper_eq_iff {capital small : String} (hcapital : small.toList.map Char.toUpper = capital.toList)
    (hsmall : capital.toList.map Char.toLower = small.toList) :
    s.toUpper = capital ↔ s.toLower = small := by
  rw [← String.toList_inj, ← String.toList_inj, toList_toUpper, toList_toLower]
  constructor
  · intro h
    rw [← hsmall, ← h, List.map_map]
    exact List.map_congr_left fun c _ => (toLower_toUpper c).1.symm
  · intro h
    rw [← hcapital, ← h, List.map_map]
    exact List.map_congr_left fun c _ => (toLower_toUpper c).2.symm

end Text

namespace Gate

/-! ## Grades -/

/-- The grades of a severity, which are also the thresholds of the gate. -/
inductive Grade where
  | low
  | medium
  | high
  | critical
  deriving DecidableEq

/-- A grade as it is written. -/
def Grade.name : Grade → String
  | .low => "low"
  | .medium => "medium"
  | .high => "high"
  | .critical => "critical"

/-- How high a grade is. -/
def Grade.rank : Grade → ℕ
  | .low => 1
  | .medium => 2
  | .high => 3
  | .critical => 4

instance : LE Grade :=
  ⟨fun g g' => g.rank ≤ g'.rank⟩

/-- The finding has the grade, in whichever letter case it is written. -/
def HasGrade (f : Json) (g : Grade) : Prop :=
  ∃ s, f.get? "severity" = some (.str s) ∧ s.toLower = g.name

/-- A record whose severity, if it has one, is a plain ASCII text. -/
structure Gradable (f : Json) : Prop where
  isRecord : f.IsRecord
  severity : ∀ v, f.get? "severity" = some v → ∃ s, v = .str s ∧ Text.IsAscii s

variable {f : Json} {fs fs' : List Json} {g g' : Grade}

theorem threshold_name (g : Grade) : threshold g.name = g.rank := by
  cases g <;> decide

theorem rank?_name (g : Grade) : rank? g.name = some g.rank := by
  cases g <;> decide

/-- Only the names of grades are ranked. -/
theorem eq_name_of_rank? {t : String} {n : ℕ} (h : rank? t = some n) :
    ∃ g : Grade, t = g.name ∧ n = g.rank := by
  obtain h | h | h | h := rank?_cases h
  · exact ⟨.low, h⟩
  · exact ⟨.medium, h⟩
  · exact ⟨.high, h⟩
  · exact ⟨.critical, h⟩

/-- A text ranks from a grade on if it names that grade or a higher one. -/
theorem rank_le_iff {t : String} : g.rank ≤ (rank? t).getD 0 ↔ ∃ g', g ≤ g' ∧ t = g'.name := by
  constructor
  · intro hle
    cases hrank : rank? t with
    | none =>
      -- what is not ranked counts as zero, below every grade
      have hpos := rank?_pos (rank?_name g)
      rw [hrank, Option.getD_none] at hle
      omega
    | some n =>
      obtain ⟨g', rfl, rfl⟩ := eq_name_of_rank? hrank
      rw [hrank, Option.getD_some] at hle
      exact ⟨g', hle, rfl⟩
  · rintro ⟨g', hle, rfl⟩
    rw [rank?_name, Option.getD_some]
    exact hle

/-! ## The gate -/

/-- **A finding reaches a threshold by its grade.** -/
theorem reaches_iff (h : Gradable f) : reaches g.name f = true ↔ ∃ g', g ≤ g' ∧ HasGrade f g' := by
  obtain ⟨fields, rfl⟩ := h.isRecord
  cases hget : Fields.get? fields "severity" with
  | none => simp [reaches, HasGrade, hget]
  | some v =>
    obtain ⟨s, rfl, hascii⟩ := h.severity v hget
    simp only [reaches, hget, decide_eq_true_eq, threshold_name, rank_le_iff, HasGrade,
      Json.get?_obj, Option.some.injEq, Json.str.injEq, exists_eq_left', Text.lower_of_isAscii hascii]

/-- A finding that can be graded has a rank. -/
theorem exists_findingRank (h : Gradable f) : ∃ n, findingRank f = .ok n := by
  obtain ⟨fields, rfl⟩ := h.isRecord
  simp only [findingRank, Json.getD_obj, bind, Except.bind]
  cases hget : Fields.get? fields "severity" with
  | none => exact ⟨_, rfl⟩
  | some v =>
    obtain ⟨s, rfl, -⟩ := h.severity v hget
    exact ⟨_, rfl⟩

/-- The gate decides where every finding can be graded. -/
theorem exists_exitCode (h : ∀ f ∈ fs, Gradable f) (failOn : String) :
    ∃ code, exitCode fs failOn = .ok code := by
  have hany : ∃ fails, (fs.anyM fun f => do
      return decide (threshold failOn ≤ (← findingRank f))) = .ok fails := by
    induction fs with
    | nil => exact ⟨false, rfl⟩
    | cons f fs ih =>
      obtain ⟨hf, hfs⟩ := List.forall_mem_cons.1 h
      obtain ⟨rank, hrank⟩ := exists_findingRank hf
      obtain ⟨fails, hfails⟩ := ih hfs
      rw [List.anyM_cons, hrank, hfails]
      by_cases hle : threshold failOn ≤ rank
      · exact ⟨true, by simp [hle, bind, Except.bind, pure, Except.pure]⟩
      · exact ⟨fails, by simp [hle, bind, Except.bind, pure, Except.pure]⟩
  obtain ⟨fails, hfails⟩ := hany
  rw [exitCode, hfails]
  split
  · exact ⟨0, rfl⟩
  · exact ⟨_, rfl⟩

theorem exitCode_of_gradable (h : ∀ f ∈ fs, Gradable f) (g : Grade) :
    exitCode fs g.name = .ok (if fs.any (reaches g.name) then 1 else 0) := by
  obtain ⟨code, hcode⟩ := exists_exitCode h g.name
  have hname : (g.name != "none") = true := by cases g <;> decide
  have heq := exitCode_eq fs g.name
  rw [hcode, hname, Bool.true_and] at heq
  rw [hcode, ← heq]
  rfl

/-- **The gate fails a build** if some finding has a grade from the threshold on. -/
theorem exitCode_eq_one_iff (h : ∀ f ∈ fs, Gradable f) (g : Grade) :
    exitCode fs g.name = .ok 1 ↔ ∃ f ∈ fs, ∃ g', g ≤ g' ∧ HasGrade f g' := by
  have hcode : exitCode fs g.name = .ok 1 ↔ fs.any (reaches g.name) = true := by
    rw [exitCode_of_gradable h]
    split_ifs with hany
    · simp [hany]
    · simp [hany]
  rw [hcode, List.any_eq_true]
  constructor
  · rintro ⟨f, hf, hreaches⟩
    exact ⟨f, hf, (reaches_iff (h f hf)).1 hreaches⟩
  · rintro ⟨f, hf, hgrade⟩
    exact ⟨f, hf, (reaches_iff (h f hf)).2 hgrade⟩

theorem exitCode_perm (h : ∀ f ∈ fs, Gradable f) (hperm : fs.Perm fs') (g : Grade) :
    exitCode fs' g.name = exitCode fs g.name := by
  have h' : ∀ f ∈ fs', Gradable f := fun f hf => h f (hperm.mem_iff.2 hf)
  rw [exitCode_of_gradable h, exitCode_of_gradable h', hperm.any_eq]

/-- More findings and a lower threshold do not let a build pass. -/
theorem exitCode_mono (h : ∀ f ∈ fs', Gradable f) (hsub : fs.Sublist fs') (hle : g' ≤ g)
    (hfails : exitCode fs g.name = .ok 1) : exitCode fs' g'.name = .ok 1 := by
  have hfs : ∀ f ∈ fs, Gradable f := fun f hf => h f (hsub.subset hf)
  obtain ⟨f, hf, grade, hgrade, hhas⟩ := (exitCode_eq_one_iff hfs g).1 hfails
  exact (exitCode_eq_one_iff h g').2 ⟨f, hsub.subset hf, grade, Nat.le_trans hle hgrade, hhas⟩

/-! ## The listing -/

open ListingFormat (sarifResult sarifListing sarifLevel_str levelNamed)

/-- **A severity is an error in the listing** if it names one of the two highest grades. -/
theorem levelNamed_eq_error_iff {s : String} (h : Text.IsAscii s) :
    levelNamed s = "error" ↔ ∃ g', Grade.high ≤ g' ∧ s.toLower = g'.name := by
  have hlevel : levelNamed s = "error" ↔ s.toUpper = "CRITICAL" ∨ s.toUpper = "HIGH" := by
    rw [levelNamed, Text.upper_of_isAscii h]
    split_ifs with herror hlow
    · simpa using herror
    · simp [hlow]
    · simpa using herror
  have hcritical : s.toUpper = "CRITICAL" ↔ s.toLower = "critical" :=
    Text.toUpper_eq_iff (by decide) (by decide)
  have hhigh : s.toUpper = "HIGH" ↔ s.toLower = "high" := Text.toUpper_eq_iff (by decide) (by decide)
  rw [hlevel, hcritical, hhigh]
  constructor
  · rintro (hcritical | hhigh)
    · exact ⟨.critical, by decide, hcritical⟩
    · exact ⟨.high, by decide, hhigh⟩
  · rintro ⟨g', hle, hname⟩
    cases g' with
    | low => exact absurd hle (by decide)
    | medium => exact absurd hle (by decide)
    | high => exact Or.inr hname
    | critical => exact Or.inl hname

/-- A finding has a result, which is an error by the grade of the finding. -/
theorem level_eq_error_iff (h : Gradable f) : ∃ r, sarifResult f = .ok r ∧
    (r.part "level" = .str "error" ↔ ∃ g', Grade.high ≤ g' ∧ HasGrade f g') := by
  have hpart (k : String) (d : Json) : f.getD k d = .ok (f.partOr k d) :=
    Json.getD_eq_ok.2 ⟨h.isRecord, rfl⟩
  have hseverity : ∃ s, f.partOr "severity" (.str "warning") = .str s ∧
      (levelNamed s = "error" ↔ ∃ g', Grade.high ≤ g' ∧ HasGrade f g') := by
    rw [Json.partOr]
    cases hget : f.get? "severity" with
    | none =>
      -- the two defaults differ, but neither is one of the two highest grades
      refine ⟨"warning", rfl, ?_⟩
      have hwarning : levelNamed "warning" ≠ "error" := by decide
      simp [hwarning, HasGrade, hget]
    | some v =>
      obtain ⟨s, rfl, hascii⟩ := h.severity v hget
      refine ⟨s, rfl, ?_⟩
      simp only [levelNamed_eq_error_iff hascii, HasGrade, hget, Option.some.injEq, Json.str.injEq,
        exists_eq_left']
  obtain ⟨s, hs, herror⟩ := hseverity
  simp only [sarifResult, hpart, hs, sarifLevel_str, bind, Except.bind]
  refine ⟨_, rfl, ?_⟩
  rw [← herror]
  exact Json.str.injEq _ _ ▸ Iff.rfl

/-- The listing of findings in the interchange format is of one run, with these results. Its text is
the value's, unless a whole number is too long to be written. -/
def ListsResults (fs results : List Json) : Prop :=
  ∃ v run : Json, sarifListing fs = .ok v ∧
    ListingFormat.sarif.render fs = ListingFormat.showing [v] v.pretty ∧
    v.part "runs" = .arr [run] ∧ run.part "results" = .arr results

/-- The listing has a result for each finding, and these are errors by the grades of the findings. -/
theorem exists_listsResults (h : ∀ f ∈ fs, Gradable f) :
    ∃ results, ListsResults fs results ∧ List.Forall₂ (fun f r => r.part "level" = .str "error" ↔
      ∃ g', Grade.high ≤ g' ∧ HasGrade f g') fs results := by
  obtain ⟨results, hresults, hlevels⟩ := Run.exists_except_mapM fun f hf => level_eq_error_iff (h f hf)
  refine ⟨results, ?_, hlevels⟩
  simp only [ListsResults, ListingFormat.render, sarifListing, hresults, bind, Except.bind]
  exact ⟨_, _, rfl, rfl, rfl, rfl⟩

/-- Where each member tells of its partner, some member does so if some partner does. -/
theorem exists_iff_of_forall₂ {α β : Type} {P : α → Prop} {Q : β → Prop} {as : List α} {bs : List β}
    (h : List.Forall₂ (fun a b => Q b ↔ P a) as bs) : (∃ b ∈ bs, Q b) ↔ ∃ a ∈ as, P a := by
  induction h with
  | nil => simp
  | cons hab _ ih => simp only [List.exists_mem_cons_iff, hab, ih]

/-- A finding of mixed letter case, and one without a severity. -/
def mixedCase : List Json :=
  [.obj [("rule_id", .str "B602"), ("severity", .str "HiGh")], .obj [("rule_id", .str "B101")]]

end Gate

end SecureReview
