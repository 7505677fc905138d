import SecureReview.Proofs.Json.Reading
import SecureReview.Proofs.Listing.Gate
import SecureReview.Proofs.World.Frame
/-!
# Listings read back

A machine-readable listing is a value with one item per line, and its text
is read as that value (`Json.parseString_pretty`). The plain form holds the
findings as they are. The interchange format has **one result for each
finding, in order**, and `Reports` says what a result tells of its finding.
A listing is made, and then reads back, exactly if no whole number that it
shows has too many digits (`listings_read_back`).
-/

namespace SecureReview

/-- A part of a value has no more repeated keys than the value. -/
theorem Json.distinctKeys_partOr {v d : Json} (hv : v.distinctKeys = true) (hd : d.distinctKeys = true)
    (k : String) : (v.partOr k d).distinctKeys = true := by
  cases v with
  | obj fs =>
    rw [Json.partOr, Json.get?_obj]
    cases hget : Fields.get? fs k with
    | none => exact hd
    | some x =>
      obtain ⟨before, rest, hfs, -⟩ := List.lookup_eq_some_iff.1 hget
      exact (Json.distinctKeys_obj.1 hv).2 (k, x) (by simp [hfs])
  | _ => exact hd

/-- A part of a value that can be written can be written. -/
theorem Json.isWritable_part {v : Json} (hv : v.isWritable = true) (k : String) :
    (v.part k).isWritable = true := by
  cases v with
  | obj fs =>
    rw [Json.part, Json.get?_obj]
    cases hget : Fields.get? fs k with
    | none => rfl
    | some x =>
      obtain ⟨before, rest, hfs, -⟩ := List.lookup_eq_some_iff.1 hget
      rw [Json.isWritable_obj, List.all_eq_true] at hv
      exact hv (k, x) (by simp [hfs])
  | _ => rfl

namespace ListingFormat

variable {f : Json} {fs : List Json}

/-- The listing of the findings is read as the value. -/
def ListsAs (format : ListingFormat) (fs : List Json) (v : Json) : Prop :=
  ∃ text, format.render fs = .ok text ∧ Json.parseString text = .ok v

theorem ListsAs.all_fits {format : ListingFormat} {v : Json} (h : ListsAs format fs v) :
    ∀ f ∈ fs, format.fits f = true := by
  obtain ⟨text, hrender, -⟩ := h
  have hok := render_isOk format fs
  rw [hrender, eq_comm] at hok
  exact List.all_eq_true.1 (Bool.and_eq_true_iff.1 hok).2

theorem fits_json_iff : ListingFormat.json.fits f = true ↔ f.isWritable = true := by
  simp [fits, shows]

/-- What can be written as a whole can be written in part. -/
theorem fits_sarif_of_isWritable (h : f.isWritable = true) : ListingFormat.sarif.fits f = true := by
  simp [fits, shows, Json.isWritable_part h]

/-- A finding: an object that repeats no key and whose severity, if it has
one, is a text. -/
structure Listable (f : Json) : Prop where
  isRecord : f.IsRecord
  distinct : f.distinctKeys = true
  severity : ∀ v, f.get? "severity" = some v → ∃ s, v = .str s

/-- The level that a severity has in the interchange format, whatever its
letter case. -/
def levelNamed (s : String) : String :=
  if Text.upper s ∈ ["CRITICAL", "HIGH"] then "error"
  else if Text.upper s = "LOW" then "note"
  else "warning"

/-- What a result of the interchange format tells of its finding. A part
that the finding does not have is replaced by a default. -/
structure Reports (f r : Json) : Prop where
  rule : r.part "ruleId" = f.partOr "rule_id" (.str "unknown")
  level : ∃ s, f.partOr "severity" (.str "warning") = .str s ∧ r.part "level" = .str (levelNamed s)
  text : (r.part "message").part "text" = f.partOr "description" (.str "Security issue found")
  place : ∃ place, r.part "locations" = .arr [.obj [("physicalLocation", place)]] ∧
    (place.part "artifactLocation").part "uri" = f.partOr "file" (.str "unknown") ∧
    (place.part "region").part "startLine" = f.partOr "line" (.int 1)

theorem sarifLevel_str (s : String) : sarifLevel (.str s) = .ok (levelNamed s) := by
  simp only [sarifLevel, Json.uppered, Json.asString, Except.map, bind, Except.bind, levelNamed,
    List.mem_cons, List.not_mem_nil, or_false]
  split
  · next h => rw [if_pos (Or.inl h)]; rfl
  · next h => rw [if_pos (Or.inr h)]; rfl
  · next h => rw [h]; rfl
  · next hcritical hhigh hlow => rw [if_neg (not_or.2 ⟨hcritical, hhigh⟩), if_neg hlow]; rfl

theorem Listable.exists_severity (h : Listable f) :
    ∃ s, f.partOr "severity" (.str "warning") = .str s := by
  rw [Json.partOr]
  cases hget : f.get? "severity" with
  | none => exact ⟨"warning", rfl⟩
  | some v =>
    obtain ⟨s, rfl⟩ := h.severity v hget
    exact ⟨s, rfl⟩

/-- **A finding has a result that reports it.** -/
theorem exists_sarifResult (h : Listable f) :
    ∃ r, sarifResult f = .ok r ∧ r.distinctKeys = true ∧ Reports f r := by
  obtain ⟨s, hs⟩ := h.exists_severity
  have hpart (k : String) (d : Json) : f.getD k d = .ok (f.partOr k d) :=
    Json.getD_eq_ok.2 ⟨h.isRecord, rfl⟩
  have htext (k t : String) : (f.partOr k (.str t)).distinctKeys = true :=
    Json.distinctKeys_partOr h.distinct rfl k
  have hline : (f.partOr "line" (.int 1)).distinctKeys = true :=
    Json.distinctKeys_partOr h.distinct rfl "line"
  simp only [sarifResult, hpart, hs, sarifLevel_str, bind, Except.bind]
  refine ⟨_, rfl, ?_, ⟨rfl, ⟨s, hs, rfl⟩, rfl, ⟨_, rfl, rfl, rfl⟩⟩⟩
  simp [Json.distinctKeys, Json.distinctKeysList, Json.distinctKeysFields, htext, hline]

/-- The results tell of the findings, one for each and in order. -/
theorem exists_sarifListing (h : ∀ f ∈ fs, Listable f) :
    ∃ v run results, sarifListing fs = .ok v ∧ v.distinctKeys = true ∧
      v.part "runs" = .arr [run] ∧ run.part "results" = .arr results ∧ List.Forall₂ Reports fs results := by
  obtain ⟨results, hresults, hall⟩ := Run.exists_except_mapM fun f hf => exists_sarifResult (h f hf)
  obtain ⟨hdistinct, hreports⟩ := (List.forall₂_and_left results fs).1 hall.flip
  have hlist := Json.distinctKeysList_iff.2 hdistinct
  simp only [sarifListing, hresults, bind, Except.bind]
  refine ⟨_, _, results, rfl, ?_, rfl, rfl, hreports.flip⟩
  simp [Json.distinctKeys, Json.distinctKeysList, Json.distinctKeysFields, hlist, sarifDriver]

theorem listsAs_json (h : ∀ f ∈ fs, Listable f) (hwritable : ∀ f ∈ fs, f.isWritable = true) :
    ListsAs .json fs (jsonListing fs) := by
  have hdistinct : (jsonListing fs).distinctKeys = true := by
    have hfs : Json.distinctKeysList fs = true :=
      Json.distinctKeysList_iff.2 fun f hf => (h f hf).distinct
    simp [jsonListing, Json.nat, Json.distinctKeys, Json.distinctKeysFields, hfs]
  exact ⟨_, if_pos (List.all_eq_true.2 hwritable), Json.parseString_pretty hdistinct⟩

theorem listsAs_sarif {v : Json} (hlisting : sarifListing fs = .ok v) (hdistinct : v.distinctKeys = true)
    (hfits : ∀ f ∈ fs, ListingFormat.sarif.fits f = true) : ListsAs .sarif fs v := by
  have hwritable : v.isWritable = true :=
    (isWritable_sarifListing hlisting).trans (List.all_eq_true.2 hfits)
  have hrender : ListingFormat.sarif.render fs = showing [v] v.pretty := by
    rw [render, hlisting]
    rfl
  exact ⟨v.pretty, by simp [hrender, showing, hwritable], Json.parseString_pretty hdistinct⟩

/-- **Machine-readable listings read back** exactly if what they show can be
written. The plain form then gives the count and the findings, the
interchange format one run with one result for each finding, in order; it
shows less, and so can be made wherever the plain form can. -/
theorem listings_read_back (fs : List Json) (h : ∀ f ∈ fs, Listable f) :
    ((∃ v, ListsAs .json fs v ∧ v.part "total_findings" = Json.nat fs.length ∧
      v.part "findings" = .arr fs) ↔ ∀ f ∈ fs, f.isWritable = true) ∧
    ((∃ v run results, ListsAs .sarif fs v ∧ v.part "runs" = .arr [run] ∧
      run.part "results" = .arr results ∧ List.Forall₂ Reports fs results) ↔
        ∀ f ∈ fs, ListingFormat.sarif.fits f = true) ∧
    ∀ f : Json, f.isWritable = true → ListingFormat.sarif.fits f = true := by
  refine ⟨⟨?_, ?_⟩, ⟨?_, ?_⟩, fun f => fits_sarif_of_isWritable⟩
  · rintro ⟨v, hlists, -⟩ f hf
    exact fits_json_iff.1 (hlists.all_fits f hf)
  · intro hwritable
    exact ⟨jsonListing fs, listsAs_json h hwritable, rfl, rfl⟩
  · rintro ⟨v, run, results, hlists, -⟩
    exact hlists.all_fits
  · intro hfits
    obtain ⟨v, run, results, hlisting, hdistinct, hruns, hresults, hall⟩ := exists_sarifListing h
    exact ⟨v, run, results, listsAs_sarif hlisting hdistinct hfits, hruns, hresults, hall⟩

/-- A finding with empty and nested containers, and with characters that
have to be escaped. -/
def nestedFinding : Json :=
  .obj [("rule_id", .str "B\"105\\"), ("severity", .str "high"), ("line", .int (-3)),
    ("context", .obj [("lines", .arr []), ("notes", .arr [.obj [], .null, .str "tab\t🔴"])])]

theorem listings_read_back_nested : (Listable nestedFinding ∧ Listable (.obj [])) ∧
    nestedFinding.isWritable = true ∧
    (∃ v, ListsAs .json [nestedFinding, .obj []] v ∧ v.part "total_findings" = Json.nat 2 ∧
      v.part "findings" = .arr [nestedFinding, .obj []]) ∧
    ∃ v run results, ListsAs .sarif [nestedFinding, .obj []] v ∧ v.part "runs" = .arr [run] ∧
      run.part "results" = .arr results ∧ List.Forall₂ Reports [nestedFinding, .obj []] results := by
  have hnested : Listable nestedFinding := by
    refine ⟨⟨_, rfl⟩, by decide, ?_⟩
    intro v hv
    exact ⟨"high", (Option.some.inj hv).symm⟩
  have hempty : Listable (.obj []) := by
    refine ⟨⟨_, rfl⟩, rfl, ?_⟩
    intro v hv
    cases hv
  have hwritable : ∀ f ∈ [nestedFinding, .obj []], f.isWritable = true := by decide
  obtain ⟨hjson, hsarif, hless⟩ :=
    listings_read_back [nestedFinding, .obj []] (by simp [hnested, hempty])
  exact ⟨⟨hnested, hempty⟩, by decide, hjson.2 hwritable,
    hsarif.2 fun f hf => hless f (hwritable f hf)⟩

/-- The least number that has too many digits. -/
def overlong : Json :=
  .int (10 ^ Text.maxDigits : ℕ)

theorem not_isWritable_overlong : ¬ overlong.isWritable = true := by
  rw [overlong, Json.isWritable_int_iff, Int.natAbs_natCast]
  exact lt_irrefl _

/-- A finding whose context ends at the line with that number. -/
def farContext : Json :=
  .obj [("rule_id", .str "B303"), ("context", .obj [("context_end_line", overlong)])]

/-- A finding in that line. -/
def farLine : Json :=
  .obj [("rule_id", .str "B303"), ("line", overlong)]

/-- **A line number can be too long for a listing**, which is then not made. -/
theorem far_lines_not_listed :
    (Listable farContext ∧ ¬ ∃ v, ListsAs .json [farContext] v) ∧
      (Listable farLine ∧ ¬ ∃ v, ListsAs .sarif [farLine] v) := by
  have hlistable {k : String} {v : Json} (hk : k ≠ "severity" ∧ k ≠ "rule_id")
      (hv : v.distinctKeys = true) : Listable (.obj [("rule_id", .str "B303"), (k, v)]) := by
    refine ⟨⟨_, rfl⟩, ?_, ?_⟩
    · simp [Json.distinctKeys, Json.distinctKeysFields, hv, hk.2.symm]
    · intro x hx
      simp [Fields.get?_cons, hk.1.symm] at hx
  refine ⟨⟨hlistable (by decide) rfl, ?_⟩, hlistable (by decide) rfl, ?_⟩
  · rintro ⟨v, hlists⟩
    have hfits := fits_json_iff.1 (hlists.all_fits farContext (by simp))
    simp only [farContext, Json.isWritable_obj, List.all_cons, List.all_nil, Bool.and_true,
      Bool.and_eq_true] at hfits
    exact not_isWritable_overlong hfits.2
  · rintro ⟨v, hlists⟩
    have hfits := hlists.all_fits farLine (by simp)
    rw [fits, List.all_eq_true] at hfits
    have hshown : overlong ∈ ListingFormat.sarif.shows farLine := by
      simp [shows, farLine, Json.part, Fields.get?_cons]
    exact not_isWritable_overlong (hfits overlong hshown)

end ListingFormat

end SecureReview
