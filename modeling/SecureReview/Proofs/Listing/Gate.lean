import Mathlib.Algebra.Group.Nat.Defs
import Mathlib.Data.List.Forall2
import SecureReview.Listing.Format
import SecureReview.Proofs.Json.Fields
import SecureReview.Proofs.World.Run
/-!
# Findings that fail a build

Whether a scan fails is decided finding by finding, by the severity: a
finding fails it if the format cannot list it, or if it reaches the threshold
of the gate. A severity that is not a text reaches **every** threshold,
because it cannot be ranked. Beside the severity only one thing keeps a
finding out of a listing: a whole number of too many digits in a part that is
shown (`fits`). `render_isOk` and `exitCode_eq` say so of the listing and of
the gate.
-/

namespace SecureReview

/-! ## Whole numbers that can be written -/

namespace Json

theorem areWritable_eq (xs : List Json) : areWritable xs = xs.all isWritable := by
  induction xs with
  | nil => rfl
  | cons x xs ih => rw [areWritable, List.all_cons, ih]

theorem haveWritable_eq (fs : Fields) : haveWritable fs = fs.all fun e => e.2.isWritable := by
  induction fs with
  | nil => rfl
  | cons e fs ih => rw [haveWritable, List.all_cons, ih]

@[simp] theorem isWritable_arr {xs : List Json} : (Json.arr xs).isWritable = xs.all isWritable := by
  rw [isWritable, areWritable_eq]

@[simp] theorem isWritable_obj {fs : Fields} :
    (Json.obj fs).isWritable = fs.all fun e => e.2.isWritable := by
  rw [isWritable, haveWritable_eq]

@[simp] theorem isWritable_str {s : String} : (Json.str s).isWritable = true := by
  rw [isWritable] <;> simp

/-- **A whole number can be written** below a power of ten. -/
theorem isWritable_int_iff {n : Int} :
    (Json.int n).isWritable = true ↔ n.natAbs < 10 ^ Text.maxDigits := by
  rw [isWritable, decide_eq_true_eq]
  exact Nat.length_toDigits_le_iff (by decide) (by decide)

end Json

namespace ListingFormat

variable {f : Json} {fs : List Json}

/-- The format can list a finding. Plain text looks the severity up in a table, the
interchange format has it in capitals. -/
def lists : ListingFormat → Json → Bool
  | .json, _ => true
  | .sarif, .obj fields =>
    match Fields.get? fields "severity" with
    | none => true
    | some (.str _) => true
    | some _ => false
  | .text, .obj fields =>
    match Fields.get? fields "severity" with
    | some (.arr _) => false
    | some (.obj _) => false
    | _ => true
  | _, _ => false

/-- The parts of a finding that the format shows. -/
def shows : ListingFormat → Json → List Json
  | .json, f => [f]
  | .sarif, f => ["rule_id", "description", "file", "line"].map f.part
  | .text, f => ["severity", "rule_id", "file", "line", "tool", "description"].map f.part

/-- What the format shows of a finding can be written. -/
def fits (format : ListingFormat) (f : Json) : Bool :=
  (format.shows f).all Json.isWritable

theorem showing_isOk {α : Type} (values : List Json) (text : α) :
    (showing values text).isOk = values.all Json.isWritable := by
  rw [showing]
  cases values.all Json.isWritable <;> rfl

/-- A text has a level, whichever it is. -/
theorem exists_sarifLevel (s : String) : ∃ level, sarifLevel (.str s) = .ok level := by
  simp only [sarifLevel, Json.uppered, Json.asString, Except.map, bind, Except.bind]
  split <;> exact ⟨_, rfl⟩

/-- A default that can be written changes nothing. -/
theorem isWritable_getD {d : Json} (hd : d.isWritable = true) (fields : Fields) (k : String) :
    ((Fields.get? fields k).getD d).isWritable = ((Json.obj fields).part k).isWritable := by
  rw [Json.part, Json.get?_obj]
  cases Fields.get? fields k with
  | none => exact hd
  | some v => rfl

theorem sarifResult_isOk (f : Json) : (sarifResult f).isOk = lists .sarif f := by
  cases f with
  | obj fields =>
    simp only [sarifResult, lists, Json.getD_obj, bind, Except.bind]
    cases Fields.get? fields "severity" with
    | none =>
      obtain ⟨level, hlevel⟩ := exists_sarifLevel "warning"
      rw [Option.getD_none, hlevel]
      rfl
    | some v =>
      cases v with
      | str s =>
        obtain ⟨level, hlevel⟩ := exists_sarifLevel s
        rw [Option.getD_some, hlevel]
        rfl
      | _ => rfl
  | _ => rfl

/-- A result can be written if what it shows of its finding can. -/
theorem isWritable_sarifResult {r : Json} (h : sarifResult f = .ok r) :
    r.isWritable = fits .sarif f := by
  cases f with
  | obj fields =>
    simp only [sarifResult, Json.getD_obj, bind, Except.bind] at h
    cases hlevel : sarifLevel ((Fields.get? fields "severity").getD (.str "warning")) with
    | error e => rw [hlevel] at h; cases h
    | ok level =>
      rw [hlevel] at h
      obtain rfl := Except.ok.inj h
      have hone : (Json.int 1).isWritable = true := rfl
      simp only [fits, shows, Json.isWritable_obj, Json.isWritable_arr, Json.isWritable_str,
        List.all_cons, List.all_nil, List.map_cons, List.map_nil, isWritable_getD hone,
        isWritable_getD Json.isWritable_str, Bool.true_and, Bool.and_true]
  | _ => cases h

theorem textEntry_isOk (n : Nat) (f : Json) :
    (textEntry n f).isOk = (lists .text f && fits .text f) := by
  cases f with
  | obj fields =>
    have hshown : ∀ text : List String, (showing
        [(Fields.get? fields "severity").getD (.str "UNKNOWN"),
          (Fields.get? fields "rule_id").getD (.str "unknown"),
          (Fields.get? fields "file").getD (.str "unknown"),
          (Fields.get? fields "line").getD (.str "?"),
          (Fields.get? fields "tool").getD (.str "unknown"),
          (Fields.get? fields "description").getD (.str "No description")] text).isOk =
        fits .text (.obj fields) := by
      intro text
      simp only [showing_isOk, fits, shows, List.all_cons, List.all_nil, List.map_cons,
        List.map_nil, isWritable_getD Json.isWritable_str]
    simp only [textEntry, lists, Json.getD_obj, Run.except_ok_bind]
    generalize fits .text (.obj fields) = fit at hshown ⊢
    cases hseverity : Fields.get? fields "severity" with
    | none =>
      rw [hseverity] at hshown
      exact hshown _
    | some v =>
      rw [hseverity] at hshown
      cases v with
      | arr xs => rfl
      | obj fs => rfl
      | _ => exact hshown _
  | _ => rfl

theorem textEntries_isOk (n : Nat) (fs : List Json) :
    (textEntries n fs).isOk = fs.all fun f => lists .text f && fits .text f := by
  induction fs generalizing n with
  | nil => rfl
  | cons f fs ih =>
    rw [List.all_cons, ← textEntry_isOk n f, ← ih (n + 1), textEntries]
    cases textEntry n f with
    | error e => rfl
    | ok lines => cases textEntries (n + 1) fs <;> rfl

/-- The results can be written if what they show of the findings can. -/
theorem all_isWritable_results {rs : List Json} (h : fs.mapM sarifResult = .ok rs) :
    rs.all Json.isWritable = fs.all (fits .sarif) := by
  induction fs generalizing rs with
  | nil =>
    obtain rfl := Except.ok.inj h
    rfl
  | cons f fs ih =>
    rw [List.mapM_cons] at h
    obtain ⟨r, hr, h⟩ := Run.except_bind_eq_ok.1 h
    obtain ⟨rs', hrs, h⟩ := Run.except_bind_eq_ok.1 h
    obtain rfl := Except.ok.inj h
    rw [List.all_cons, List.all_cons, isWritable_sarifResult hr, ih hrs]

theorem isWritable_sarifListing {v : Json} (h : sarifListing fs = .ok v) :
    v.isWritable = fs.all (fits .sarif) := by
  obtain ⟨rs, hrs, h⟩ := Run.except_bind_eq_ok.1 h
  obtain rfl := Except.ok.inj h
  simp [sarifDriver, all_isWritable_results hrs]

theorem sarifListing_isOk (fs : List Json) : (sarifListing fs).isOk = fs.all (lists .sarif) := by
  have hresults : (fs.mapM sarifResult).isOk = fs.all (lists .sarif) := by
    simp only [Run.except_mapM_isOk, sarifResult_isOk]
  rw [← hresults, sarifListing]
  cases fs.mapM sarifResult <;> rfl

/-- **A listing is made** if the format can list every finding and write what it shows of it. -/
theorem render_isOk (format : ListingFormat) (fs : List Json) :
    (format.render fs).isOk = (fs.all format.lists && fs.all format.fits) := by
  cases format with
  | json =>
    have hlists : fs.all (lists .json) = true := List.all_eq_true.2 fun _ _ => rfl
    have hfits : fits .json = Json.isWritable := funext fun f => Bool.and_true _
    rw [hlists, hfits, Bool.true_and]
    exact showing_isOk fs _
  | sarif =>
    rw [render, ← sarifListing_isOk]
    cases hlisting : sarifListing fs with
    | error e => rfl
    | ok v =>
      refine (showing_isOk [v] v.pretty).trans ?_
      simp [isWritable_sarifListing hlisting, Except.isOk, Except.toBool]
  | text =>
    have hboth : (fs.all fun f => lists .text f && fits .text f) =
        (fs.all (lists .text) && fs.all (fits .text)) := by
      rw [Bool.eq_iff_iff]
      simp only [List.all_eq_true, Bool.and_eq_true]
      exact forall₂_and
    rw [← hboth]
    cases fs with
    | nil => rfl
    | cons f fs =>
      rw [← textEntries_isOk 1, render, textListing]
      cases textEntries 1 (f :: fs) <;> rfl

end ListingFormat

namespace Gate

variable {failOn : String} {f : Json} {fs : List Json}

/-- A finding reaches a threshold, or cannot be ranked. -/
def reaches (failOn : String) : Json → Bool
  | .obj fields =>
    match Fields.get? fields "severity" with
    | none => false
    | some (.str s) => decide (threshold failOn ≤ (rank? (Text.lower s)).getD 0)
    | some _ => true
  | _ => true

/-- Only four texts are ranked. -/
theorem rank?_cases {severity : String} {n : Nat} (h : rank? severity = some n) :
    severity = "low" ∧ n = 1 ∨ severity = "medium" ∧ n = 2 ∨ severity = "high" ∧ n = 3 ∨
      severity = "critical" ∧ n = 4 := by
  obtain ⟨before, rest, hranks, -⟩ := List.lookup_eq_some_iff.1 h
  have hmem : (severity, n) ∈ [("low", 1), ("medium", 2), ("high", 3), ("critical", 4)] := by
    rw [hranks]
    simp
  simpa only [List.mem_cons, Prod.mk.injEq, List.not_mem_nil, or_false] using hmem

/-- Ranks begin at one. -/
theorem rank?_pos {severity : String} {n : Nat} (h : rank? severity = some n) : 0 < n := by
  have hcases := rank?_cases h
  omega

theorem threshold_pos (failOn : String) : 0 < threshold failOn := by
  unfold threshold
  cases h : rank? (Text.lower failOn) with
  | none => exact Nat.succ_pos 3
  | some n => exact rank?_pos h

/-- A finding reaches a threshold by its rank, if it has one. -/
theorem reaches_eq (failOn : String) (f : Json) : reaches failOn f =
    (findingRank f).toOption.all fun rank => decide (threshold failOn ≤ rank) := by
  cases f with
  | obj fields =>
    simp only [reaches, findingRank, Json.getD_obj, bind, Except.bind]
    cases Fields.get? fields "severity" with
    | none =>
      -- the empty text has no rank, and ranks below all thresholds
      have hrank : rank? (Text.lower "") = none := rfl
      have hpos := threshold_pos failOn
      simp [Json.lowered, Json.asString, Except.map, hrank, pure, Except.pure, Except.toOption]
      omega
    | some v => cases v <;> rfl
  | _ => rfl

/-- The findings are looked at one after the other, until one is decisive. -/
theorem anyM_reaches (failOn : String) (fs : List Json) :
    (fs.anyM fun f => do return decide (threshold failOn ≤ (← findingRank f))).toOption.getD true =
      fs.any (reaches failOn) := by
  induction fs with
  | nil => rfl
  | cons f fs ih =>
    rw [List.any_cons, ← ih, reaches_eq, List.anyM_cons]
    cases findingRank f with
    | error e =>
      -- the search breaks off here, which counts as a finding that fails
      rfl
    | ok rank =>
      by_cases hrank : threshold failOn ≤ rank
      · simp [hrank, bind, Except.bind, pure, Except.pure, Except.toOption]
      · simp [hrank, bind, Except.bind, pure, Except.pure, Except.toOption]

/-- **The gate fails a build** if a finding reaches the threshold. -/
theorem exitCode_eq (fs : List Json) (failOn : String) :
    (exitCode fs failOn).toOption.getD 1 =
      if failOn != "none" && fs.any (reaches failOn) then 1 else 0 := by
  by_cases hnone : failOn = "none"
  · simp [exitCode, hnone, Except.toOption]
  · rw [← anyM_reaches, exitCode, if_neg (by simpa using hnone), bne, beq_false_of_ne hnone,
      Bool.not_false, Bool.true_and]
    cases fs.anyM fun f => do return decide (threshold failOn ≤ (← findingRank f)) <;> rfl

/-! ## Listing and gate together -/

variable {format : ListingFormat} {f' : Json} {fs' : List Json}

/-- A finding fails a scan by itself: it cannot be listed, or it does not pass the gate. -/
def stops (format : ListingFormat) (failOn : String) (f : Json) : Bool :=
  !format.lists f || failOn != "none" && reaches failOn f

/-- Findings that agree in their severity. -/
def Alike (f f' : Json) : Prop :=
  f' = f ∨ ∃ fields fields', f = .obj fields ∧ f' = .obj fields' ∧
    Fields.get? fields' "severity" = Fields.get? fields "severity"

/-- **Only the severity of a finding matters.** -/
theorem Alike.stops_eq (h : Alike f f') : stops format failOn f' = stops format failOn f := by
  obtain rfl | ⟨fields, fields', rfl, rfl, hsame⟩ := h
  · rfl
  · cases format <;> simp only [stops, ListingFormat.lists, reaches, hsame]

theorem Alike.trans {f'' : Json} (h : Alike f f') (h' : Alike f' f'') : Alike f f'' := by
  obtain rfl | ⟨fields, fields', rfl, rfl, hsame⟩ := h
  · exact h'
  · obtain rfl | ⟨middle, fields'', hmiddle, rfl, hsame'⟩ := h'
    · exact Or.inr ⟨fields, fields', rfl, rfl, hsame⟩
    · cases hmiddle
      exact Or.inr ⟨fields, fields'', rfl, rfl, hsame'.trans hsame⟩

theorem alike_put (fields : Fields) {k : String} (hk : k ≠ "severity") (v : Json) :
    Alike (.obj fields) (.obj (Fields.put fields k v)) :=
  Or.inr ⟨fields, _, rfl, rfl, Fields.get?_put_of_ne (Ne.symm hk)⟩

theorem map_stops_of_alike (h : List.Forall₂ Alike fs fs') :
    fs'.map (stops format failOn) = fs.map (stops format failOn) := by
  induction h with
  | nil => rfl
  | cons hf _ ih => rw [List.map_cons, List.map_cons, hf.stops_eq, ih]

/-- Findings that are judged alike one by one are judged alike together. -/
theorem any_congr_of_map {judge : Json → Bool} (h : fs.map judge = fs'.map judge) :
    fs.any judge = fs'.any judge := by
  have hany : ∀ l : List Json, l.any judge = (l.map judge).any id := by
    intro l
    rw [List.any_map]
    rfl
  rw [hany, hany, h]

/-- Listing and gate together: no finding stops the scan, or one of them fails. -/
theorem any_stops (format : ListingFormat) (failOn : String) (fs : List Json) :
    fs.any (stops format failOn) =
      (!fs.all format.lists || failOn != "none" && fs.any (reaches failOn)) := by
  induction fs with
  | nil => simp
  | cons f fs ih =>
    rw [List.any_cons, List.all_cons, List.any_cons, ih, stops]
    cases format.lists f <;> cases fs.all format.lists <;> cases failOn != "none" <;>
      cases reaches failOn f <;> rfl

end Gate

end SecureReview
