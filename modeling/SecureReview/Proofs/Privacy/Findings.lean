import SecureReview.Proofs.Json.Fields
import SecureReview.Proofs.Privacy.Sanitized
/-!
# Sanitized findings

A finding is redacted field by field. `redactAt_cases` says what the
redaction of one field can do, and from it follow what becomes of a
context (`sanitizeContext_scrubs`) and of a finding
(`sanitizeFinding_scrubs`): their code is scrubbed, no path gets
through, and **every other field is as it was**.
-/

namespace SecureReview

variable {w w' : World}

/-- No answer of the recogniser reports anything. -/
def World.quiet (w : World) : Bool :=
  w.personal.all PersonalReply.isSilent

theorem World.hushed_of_quiet (h : w.quiet = true) : w.hushed = true := by
  unfold World.quiet at h
  unfold World.hushed
  cases hp : w.personal with
  | nil => rfl
  | cons a as =>
    rw [hp, List.all_cons, Bool.and_eq_true] at h
    exact h.1

/-- A recogniser that has been asked is as quiet as before. -/
theorem World.quiet_of_tail (h : w.quiet = true) (hw' : w'.personal = w.personal.tail) :
    w'.quiet = true := by
  unfold World.quiet at h ⊢
  rw [List.all_eq_true] at h ⊢
  rw [hw']
  exact fun a ha => h a (List.mem_of_mem_tail ha)

namespace Privacy

open SecretKind

variable {v v' : Json} {k k' field : String} {log : List String} {counts : Json → Bool}
variable {f : Json → Run (Json × List String)} {r r' : RedactedFields}

/-! ## Texts -/

/-- The text with its secrets replaced. -/
def scrubbed (s : String) : String :=
  String.ofList (known.foldl (fun t k => k.scrub t) s.toList)

/-- The value with its secrets replaced, which only a text has. -/
def scrubbedValue : Json → Json
  | .str s => .str (scrubbed s)
  | v => v

theorem isClean_scrubbed_iff {s : String} :
    isClean (scrubbed s).toList = true ↔ ¬ UncoversAddress (beforeAddresses s.toList) := by
  rw [scrubbed, String.toList_ofList, ← redactSecrets_text "", isClean_redactSecrets_iff]

/-- A value that counts as absent has no secrets. -/
theorem scrubbedValue_of_not_truthy (h : v.truthy = false) : scrubbedValue v = v := by
  cases v with
  | str s =>
    obtain rfl : s = "" := by simpa [Json.truthy] using h
    have hclean : redactSecrets "" [] = ⟨[], []⟩ :=
      (redactSecrets_eq_self_iff "").2 (by decide)
    have htext : (redactSecrets "" []).text = [] := by rw [hclean]
    rw [redactSecrets_text] at htext
    rw [scrubbedValue, scrubbed, String.toList_empty, htext]
  | _ => rfl

/-- **What sanitizing a value gives.** Only a text gives anything. -/
theorem sanitizeText_of_quiet (hw : w.quiet = true)
    (h : (sanitizeText v field).run.run w = (.ok (v', log), w')) :
    v' = scrubbedValue v ∧ w'.quiet = true := by
  cases v with
  | str s =>
    obtain ⟨w₁, hrun, hw₁⟩ := sanitizeText_of_hushed s field (World.hushed_of_quiet hw)
    rw [hrun, Prod.mk.injEq, Except.ok.injEq, Prod.mk.injEq] at h
    obtain ⟨⟨rfl, -⟩, rfl⟩ := h
    rw [redactSecrets_text]
    exact ⟨rfl, World.quiet_of_tail hw hw₁⟩
  | _ => cases h

theorem quiet_of_sanitizeTexts {vs : List Json} {x : List Json × List String}
    (hw : w.quiet = true) (h : (sanitizeTexts field vs).run.run w = (.ok x, w')) :
    w'.quiet = true := by
  induction vs generalizing w x with
  | nil =>
    obtain ⟨-, rfl⟩ := Prod.mk.inj h
    exact hw
  | cons v vs ih =>
    obtain ⟨⟨u, log⟩, w₁, hv, h⟩ := Run.bind_eq_ok.1 h
    obtain ⟨⟨us, logs⟩, w₂, hvs, h⟩ := Run.bind_eq_ok.1 h
    obtain ⟨-, rfl⟩ := Prod.mk.inj h
    exact ih (sanitizeText_of_quiet hw hv).2 hvs

theorem quiet_of_sanitizeImports (hw : w.quiet = true)
    (h : (sanitizeImports v).run.run w = (.ok (v', log), w')) : w'.quiet = true := by
  obtain ⟨items, w₁, hitems, h⟩ := Run.bind_eq_ok.1 h
  obtain ⟨⟨us, logs⟩, w₂, hvs, h⟩ := Run.bind_eq_ok.1 h
  obtain ⟨-, rfl⟩ := Prod.mk.inj h
  rw [Run.run_ofExcept] at hitems
  obtain ⟨-, rfl⟩ := Prod.mk.inj hitems
  exact quiet_of_sanitizeTexts hw hvs

/-! ## Fields -/

/-- Redacting a field that is missing, or whose value does not count,
does nothing; otherwise its value is set to what the redaction gives. -/
theorem redactAt_cases (h : (redactAt k counts f r).run.run w = (.ok r', w')) :
    ((∀ v, Fields.get? r.fields k = some v → counts v = false) ∧ r' = r ∧ w' = w) ∨
      ∃ v v' log, Fields.get? r.fields k = some v ∧ counts v = true ∧
        (f v).run.run w = (.ok (v', log), w') ∧ r' = ⟨Fields.put r.fields k v', r.log ++ log⟩ := by
  unfold redactAt at h
  split at h
  · next hnone =>
    obtain ⟨hr, hw⟩ := Prod.mk.inj h
    refine Or.inl ⟨fun v hv => ?_, (Except.ok.inj hr).symm, hw.symm⟩
    rw [hnone] at hv
    cases hv
  · next v hv =>
    split at h
    · next hcounts =>
      obtain ⟨⟨v', log⟩, w₁, hf, h⟩ := Run.bind_eq_ok.1 h
      obtain ⟨hr, rfl⟩ := Prod.mk.inj h
      exact Or.inr ⟨v, v', log, hv, hcounts, hf, (Except.ok.inj hr).symm⟩
    · next hcounts =>
      obtain ⟨hr, hw⟩ := Prod.mk.inj h
      refine Or.inl ⟨fun u hu => ?_, (Except.ok.inj hr).symm, hw.symm⟩
      obtain rfl := Option.some.inj (hv.symm.trans hu)
      exact Bool.eq_false_iff.2 hcounts

/-- **Redacting a field leaves the others alone.** -/
theorem get?_of_redactAt (h : (redactAt k counts f r).run.run w = (.ok r', w')) (hk : k' ≠ k) :
    Fields.get? r'.fields k' = Fields.get? r.fields k' := by
  obtain ⟨-, rfl, -⟩ | ⟨v, v', log, -, -, -, rfl⟩ := redactAt_cases h
  · rfl
  · exact Fields.get?_put_of_ne hk

/-- A field that is sanitized as a text is scrubbed, and so is, as it has
no secrets, one that counts as absent. -/
theorem get?_of_redactAt_sanitizeText (hw : w.quiet = true)
    (hcounts : ∀ v, counts v = false → v.truthy = false)
    (h : (redactAt k counts (sanitizeText · field) r).run.run w = (.ok r', w')) :
    Fields.get? r'.fields k = (Fields.get? r.fields k).map scrubbedValue ∧ w'.quiet = true := by
  obtain ⟨habsent, rfl, rfl⟩ | ⟨v, v', log, hv, -, hrun, rfl⟩ := redactAt_cases h
  · refine ⟨?_, hw⟩
    cases hv : Fields.get? r'.fields k with
    | none => rfl
    | some v => rw [Option.map_some, scrubbedValue_of_not_truthy (hcounts v (habsent v hv))]
  · obtain ⟨rfl, hw'⟩ := sanitizeText_of_quiet hw hrun
    exact ⟨by rw [Fields.get?_put_self, hv, Option.map_some], hw'⟩

/-- **No path gets through.** -/
theorem redactPath_eq_ok (h : (redactPath r).run.run w = (.ok r', w')) :
    Fields.get? r.fields "file" = none ∧ r' = r ∧ w' = w := by
  obtain ⟨habsent, hr, hw⟩ | ⟨v, v', log, -, -, hrun, -⟩ := redactAt_cases h
  · refine ⟨?_, hr, hw⟩
    cases hv : Fields.get? r.fields "file" with
    | none => rfl
    | some v => cases habsent v hv
  · cases v with
    | str s =>
      rw [sanitizePath_str] at hrun
      cases hrun
    | _ => cases hrun

/-! ## Records -/

/-- `v'` is `v` with the field `key` scrubbed, and apart from the field
`other` nothing else is changed. There is no path. -/
structure Scrubs (key other : String) (v v' : Json) : Prop where
  scrub : v'.get? key = (v.get? key).map scrubbedValue
  keep : ∀ k, k ≠ key → k ≠ other → v'.get? k = v.get? k
  path : v'.get? "file" = none

/-- A value without fields stays as it is. -/
theorem Scrubs.refl (key other : String) (h : ∀ k, v.get? k = none) : Scrubs key other v v :=
  ⟨by rw [h, Option.map_none], fun _ _ _ => rfl, h "file"⟩

/-- A record is an object, or a list that stays as it is. -/
theorem redactRecord_cases {names : List String} {f : RedactedFields → Run RedactedFields}
    (h : (redactRecord names f v).run.run w = (.ok (v', log), w')) :
    (∃ fs r, v = .obj fs ∧ v' = .obj r.fields ∧ (f ⟨fs, []⟩).run.run w = (.ok r, w')) ∨
      ∃ vs, v = .arr vs ∧ v' = .arr vs ∧ w' = w := by
  cases v with
  | obj fs =>
    rw [redactRecord] at h
    obtain ⟨r, w₁, hf, h⟩ := Run.bind_eq_ok.1 h
    obtain ⟨hr, rfl⟩ := Prod.mk.inj h
    obtain ⟨hobj, -⟩ := Prod.mk.inj (Except.ok.inj hr)
    exact Or.inl ⟨fs, r, rfl, hobj.symm, hf⟩
  | arr vs =>
    rw [redactRecord] at h
    split at h
    · cases h
    · obtain ⟨hr, hw⟩ := Prod.mk.inj h
      obtain ⟨harr, -⟩ := Prod.mk.inj (Except.ok.inj hr)
      exact Or.inr ⟨vs, rfl, harr.symm, hw.symm⟩
  | _ => cases h

/-- **What becomes of a context.** -/
theorem sanitizeContext_scrubs (hw : w.quiet = true)
    (h : (sanitizeContext v).run.run w = (.ok (v', log), w')) :
    Scrubs "context_code" "imports" v v' ∧ w'.quiet = true := by
  obtain ⟨fs, r, rfl, rfl, hfs⟩ | ⟨vs, rfl, rfl, rfl⟩ := redactRecord_cases h
  · obtain ⟨r₁, w₁, hcode, h⟩ := Run.bind_eq_ok.1 hfs
    obtain ⟨r₂, w₂, himports, h⟩ := Run.bind_eq_ok.1 h
    obtain ⟨hpath, rfl, rfl⟩ := redactPath_eq_ok h
    obtain ⟨hscrubbed, hw₁⟩ := get?_of_redactAt_sanitizeText hw (fun _ h => by cases h) hcode
    refine ⟨⟨?_, fun k hk hother => ?_, hpath⟩, ?_⟩
    · exact (get?_of_redactAt himports (by decide)).trans hscrubbed
    · exact (get?_of_redactAt himports hother).trans (get?_of_redactAt hcode hk)
    · obtain ⟨-, -, rfl⟩ | ⟨v, v', log, -, -, hrun, -⟩ := redactAt_cases himports
      · exact hw₁
      · exact quiet_of_sanitizeImports hw₁ hrun
  · exact ⟨.refl _ _ fun _ => rfl, hw⟩

/-- The context of a finding, empty if there is none. -/
def contextOf (finding : Json) : Json :=
  (finding.get? "context").getD (.obj [])

theorem get?_of_not_truthy (h : v.truthy = false) : v.get? k = none := by
  cases v with
  | obj fs =>
    obtain rfl : fs = [] := by simpa [Json.truthy] using h
    rfl
  | _ => rfl

/-- **What becomes of a finding.** -/
theorem sanitizeFinding_scrubs (hw : w.quiet = true)
    (h : (sanitizeFinding v).run.run w = (.ok (v', log), w')) :
    Scrubs "code" "context" v v' ∧
      Scrubs "context_code" "imports" (contextOf v) (contextOf v') := by
  obtain ⟨fs, r, rfl, rfl, hfs⟩ | ⟨vs, rfl, rfl, rfl⟩ := redactRecord_cases h
  · obtain ⟨r₁, w₁, hcode, h⟩ := Run.bind_eq_ok.1 hfs
    obtain ⟨r₂, w₂, hcontext, h⟩ := Run.bind_eq_ok.1 h
    obtain ⟨hpath, rfl, rfl⟩ := redactPath_eq_ok h
    obtain ⟨hscrubbed, hw₁⟩ := get?_of_redactAt_sanitizeText hw (fun _ h => h) hcode
    have hsame : Fields.get? r₁.fields "context" = Fields.get? fs "context" :=
      get?_of_redactAt hcode (by decide)
    refine ⟨⟨?_, fun k hk hother => ?_, hpath⟩, ?_⟩
    · exact (get?_of_redactAt hcontext (by decide)).trans hscrubbed
    · exact (get?_of_redactAt hcontext hother).trans (get?_of_redactAt hcode hk)
    · simp only [contextOf, Json.get?_obj]
      rw [← hsame]
      obtain ⟨habsent, rfl, -⟩ | ⟨v, v', log, hv, -, hrun, rfl⟩ := redactAt_cases hcontext
      · -- a context that is not redacted has no fields to redact
        refine .refl _ _ fun k => ?_
        cases hv : Fields.get? r.fields "context" with
        | none => rfl
        | some v => exact get?_of_not_truthy (habsent v hv)
      · rw [Fields.get?_put_self, hv]
        exact (sanitizeContext_scrubs hw₁ hrun).1
  · exact ⟨.refl _ _ fun _ => rfl, .refl _ _ fun _ => rfl⟩

end Privacy

end SecureReview
