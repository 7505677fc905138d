import SecureReview.Proofs.Context.Extraction
import SecureReview.Proofs.Json.Fields
import SecureReview.Proofs.Scan.Findings
/-!
# Contexts are added to findings

A scan adds to each finding of its tools the context of its line. There is
one for every line, and looking for it touches neither files nor commands.
So **each finding gets its context** and keeps its fields (`exists_enrich`),
and a scan of a language has the findings of its tools, which decide what
the next tools find (`exists_gaining`).
-/

namespace SecureReview

namespace Scan

/-- A finding got a context, or stays as it is. -/
def Enriches (f f' : Json) : Prop :=
  f' = f ∨ ∃ fields context, f = .obj fields ∧ f' = .obj (Fields.put fields "context" context)

/-- A finding got one more field, the context of its line. -/
def GainsContext (f f' : Json) : Prop :=
  ∃ fields context, f = .obj fields ∧ "context" ∉ fields.map Prod.fst ∧
    f' = .obj (fields ++ [("context", context)]) ∧ context.get? "target_line" = f.get? "line"

theorem GainsContext.enriches {f f' : Json} (h : GainsContext f f') : Enriches f f' := by
  obtain ⟨fields, context, rfl, hroom, rfl, -⟩ := h
  exact Or.inr ⟨fields, context, rfl, by rw [Fields.put_of_not_mem hroom]⟩

theorem keeps_enrich {γ : Type} {part : World → γ} (hparse : Run.Keeps part Run.parseSource)
    (language : String) (f : Json) : Run.Keeps part (Toolbox.enrich {} language f) := by
  unfold Toolbox.enrich
  refine (Run.keeps_ofExcept _).bind fun path => (Run.keeps_ofExcept _).bind fun line => ?_
  refine Run.Keeps.tryCatch ?_ fun e => Run.keeps_pure _
  exact (Context.keeps_extract hparse path line language _).map _

/-- **A finding gets its context**, and nothing else happens. -/
theorem exists_enrich (language : String) {f : Json} (hf : IsFinding f) (w : World) :
    ∃ f' w', (Toolbox.enrich {} language f).run.run w = (.ok f', w') ∧ GainsContext f f' ∧
      w'.surroundings = w.surroundings := by
  obtain ⟨path, hpath⟩ := hf.exists_field (show "file" ∈ findingFields by decide)
  obtain ⟨line, hline⟩ := hf.exists_field (show "line" ∈ findingFields by decide)
  obtain ⟨context, w', hextract, htarget⟩ :=
    Context.exists_extract path line language Context.defaultAround w
  obtain ⟨fields, hfields, hroom, hgains⟩ := hf.withContext_eq context
  have hrun : (Toolbox.enrich {} language f).run.run w = (.ok (withContext f context), w') := by
    rw [Toolbox.enrich, Json.require_of_get? hpath, Run.run_bind_ok Run.run_ofExcept,
      Json.require_of_get? hline, Run.run_bind_ok Run.run_ofExcept, Run.run_tryCatch,
      Run.map_eq_ok.2 ⟨context, hextract, rfl⟩]
  refine ⟨_, w', hrun, ⟨fields, context, hfields, hroom, hgains, htarget.trans hline.symm⟩, ?_⟩
  simpa [hrun] using keeps_enrich Run.keeps_parseSource language f w

/-- **Scanning a language** touches nothing but what commands and parsing touch. -/
theorem keeps_scanLanguage {γ : Type} {part : World → γ} (hparse : Run.Keeps part Run.parseSource)
    (hcommand : ∀ (w : World) (c : Command), part (w.afterCommand c) = part w)
    (path language : String) : Run.Keeps part (Toolbox.scanLanguage {} path language) := by
  unfold Toolbox.scanLanguage
  split
  · exact fun _ => rfl
  · next s h =>
    refine Run.Keeps.bind (fun w => ?_) fun found =>
      Run.keeps_mapM (keeps_enrich hparse language) found
    have hrun : (s.scan path).run.run w = _ := run_scan h path w
    exact (congrArg (fun r => part r.2) hrun).trans (keeps_afterTools hcommand path s.tools w)

/-- **The findings of a language** are those of its tools, each with its context. -/
theorem exists_gaining {language : String} {s : Scanner} (h : scannerFor? language = some s)
    (path : String) (w : World) :
    ∃ fs w', (Toolbox.scanLanguage {} path language).run.run w = (.ok fs, w') ∧
      List.Forall₂ GainsContext (foundBy s.tools w.processes) fs ∧
      w'.surroundings = (afterTools path s.tools w).surroundings := by
  obtain ⟨fs, w', hrun, hgains, hkept⟩ := Run.exists_mapM World.surroundings
    (fun f hf => exists_enrich language (isFinding_of_mem_foundBy s.tools w.processes f hf))
    (afterTools path s.tools w)
  refine ⟨fs, w', ?_, hgains, hkept⟩
  rw [Toolbox.scanLanguage, h]
  exact (Run.run_bind_ok (run_scan h path w)).trans hrun

theorem exists_scanLanguage {language : String} {s : Scanner} (h : scannerFor? language = some s)
    (path : String) (w : World) :
    ∃ fs w', (Toolbox.scanLanguage {} path language).run.run w = (.ok fs, w') ∧
      List.Forall₂ Enriches (foundBy s.tools w.processes) fs ∧
      w'.surroundings = (afterTools path s.tools w).surroundings := by
  obtain ⟨fs, w', hrun, hgains, hkept⟩ := exists_gaining h path w
  exact ⟨fs, w', hrun, hgains.imp fun _ _ => GainsContext.enriches, hkept⟩

end Scan

end SecureReview
