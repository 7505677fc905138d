import SecureReview.Proofs.Scan.Contexts
import SecureReview.Proofs.World.Host
import SecureReview.Privacy.Redaction
import SecureReview.Verify.Verifier
/-!
# Stages that keep to themselves

Between the listing of a pull request and the report on it, a review
scans, redacts and verifies. A tool, the recogniser and the model have
their own places in the world, and what stands **aside** of these places
is kept by all three stages (`Aside.scanRepository`,
`Aside.sanitizeFinding`, `Aside.verify`). So none of them asks anything of
the repository host or changes what it will answer.
-/

namespace SecureReview

/-- The part of the world stands aside of what tools, parsing, the recogniser and the model touch. -/
structure Aside {γ : Type} (part : World → γ) : Prop where
  command (w : World) (c : Command) : part (w.afterCommand c) = part w
  trees (w : World) (trees : List (Except String Node)) : part { w with trees := trees } = part w
  personal (w : World) (replies : List PersonalReply) (calls : List PersonalCall) :
    part { w with personal := replies, trace := { w.trace with personalCalls := calls } } = part w
  model (w : World) (replies : List ModelReply) (requests : List ModelRequest) :
    part { w with replies := replies, trace := { w.trace with modelRequests := requests } } = part w

theorem aside_hostSide : Aside World.hostSide where
  command _ _ := rfl
  trees _ _ := rfl
  personal _ _ _ := rfl
  model _ _ _ := rfl

namespace Aside

variable {γ : Type} {part : World → γ} (h : Aside part)

include h

/-! ## Single requests -/

theorem parseSource : Run.Keeps part Run.parseSource := by
  intro w
  have hworld : (Run.parseSource.run.run w).2 = { w with trees := w.trees.tail } := by
    obtain ⟨_, _, _, _, _, trees, _, _, _, _, _, _, _, _⟩ := w
    rcases trees with _ | ⟨_ | _, trees⟩ <;> rfl
  rw [hworld]
  exact h.trees w _

theorem analyze (text : String) : Run.Keeps part (Run.analyze text) := by
  intro w
  have hworld : ((Run.analyze text).run.run w).2 =
      { w with
        personal := w.personal.tail
        trace := { w.trace with personalCalls := w.trace.personalCalls ++ [.analyze text] } } := by
    obtain ⟨_, _, _, _, _, _, personal, _, _, _, _, _, _, _⟩ := w
    rcases personal with _ | ⟨_ | _, replies⟩ <;> rfl
  rw [hworld]
  exact h.personal w _ _

theorem ask (q : ModelRequest) : Run.Keeps part (Run.ask q) := by
  intro w
  have hworld : ((Run.ask q).run.run w).2 =
      { w with
        replies := w.replies.tail
        trace := { w.trace with modelRequests := w.trace.modelRequests ++ [q] } } := by
    obtain ⟨_, _, _, _, replies, _, _, _, _, _, _, _, _, _⟩ := w
    rcases replies with _ | ⟨_ | _, replies⟩ <;> rfl
  rw [hworld]
  exact h.model w _ _

/-! ## Scans -/

/-- **Scanning a repository** touches nothing that stands aside. -/
theorem scanRepository (path : String) :
    Run.Keeps part (Scan.Toolbox.scanRepository {} path) := by
  refine Run.keeps_mapM (fun language => ?_) Scan.repositoryLanguages
  refine Run.Keeps.bind (Run.Keeps.tryCatch ?_ fun _ => Run.keeps_pure _) Run.keeps_runK
  have hscan := Scan.keeps_scanLanguage h.parseSource h.command path language
  exact hscan.bind fun fs => Run.keeps_pure _

end Aside

/-! ## Redaction -/

namespace Privacy

section Records

variable {γ : Type} {part : World → γ}

theorem keeps_redactAt {f : Json → Run (Json × List String)} (h : ∀ v, Run.Keeps part (f v))
    (k : String) (counts : Json → Bool) (r : RedactedFields) :
    Run.Keeps part (redactAt k counts f r) := by
  unfold redactAt
  split
  · exact Run.keeps_pure _
  · split
    · exact (h _).bind fun _ => Run.keeps_pure _
    · exact Run.keeps_pure _

theorem keeps_redactPath (r : RedactedFields) : Run.Keeps part (redactPath r) :=
  keeps_redactAt (fun _ => (Run.keeps_ofExcept _).bind fun _ => Run.keeps_pure _) _ _ r

theorem keeps_redactRecord {f : RedactedFields → Run RedactedFields}
    (h : ∀ r, Run.Keeps part (f r)) (names : List String) (v : Json) :
    Run.Keeps part (redactRecord names f v) := by
  unfold redactRecord
  split
  · exact (h _).bind fun _ => Run.keeps_pure _
  · split
    · exact fun _ => rfl
    · exact Run.keeps_pure _
  · exact fun _ => rfl

end Records

end Privacy

namespace Aside

variable {γ : Type} {part : World → γ} (h : Aside part)

include h

theorem redactPersonal (field : String) (r : Privacy.Redacted) :
    Run.Keeps part (Privacy.redactPersonal field r) := by
  refine Run.Keeps.bind (Run.Keeps.tryCatch ?_ fun _ => Run.keeps_pure _) Run.keeps_runK
  refine (h.analyze _).bind fun ⟨spans, anonymized⟩ => ?_
  dsimp only
  split
  · exact Run.keeps_pure _
  · exact Run.Keeps.bind (fun w => h.personal w w.personal _) fun _ => Run.keeps_pure _

theorem sanitizeText (v : Json) (field : String) : Run.Keeps part (Privacy.sanitizeText v field) :=
  (Run.keeps_ofExcept _).bind fun _ =>
    (h.redactPersonal field _).bind fun _ => Run.keeps_pure _

theorem sanitizeTexts (field : String) (vs : List Json) :
    Run.Keeps part (Privacy.sanitizeTexts field vs) := by
  induction vs with
  | nil => exact Run.keeps_pure _
  | cons v vs ih =>
    exact (h.sanitizeText v field).bind fun _ => ih.bind fun _ => Run.keeps_pure _

theorem sanitizeImports (v : Json) : Run.Keeps part (Privacy.sanitizeImports v) :=
  (Run.keeps_ofExcept _).bind fun items =>
    (h.sanitizeTexts "import" items).bind fun _ => Run.keeps_pure _

theorem sanitizeContext (v : Json) : Run.Keeps part (Privacy.sanitizeContext v) :=
  Privacy.keeps_redactRecord (fun _ =>
    (Privacy.keeps_redactAt (h.sanitizeText · _) _ _ _).bind fun _ =>
      (Privacy.keeps_redactAt h.sanitizeImports _ _ _).bind fun _ => Privacy.keeps_redactPath _) _ v

/-- **Redacting a finding** touches nothing that stands aside. -/
theorem sanitizeFinding (v : Json) : Run.Keeps part (Privacy.sanitizeFinding v) :=
  Privacy.keeps_redactRecord (fun _ =>
    (Privacy.keeps_redactAt (h.sanitizeText · _) _ _ _).bind fun _ =>
      (Privacy.keeps_redactAt h.sanitizeContext _ _ _).bind fun _ => Privacy.keeps_redactPath _) _ v

/-! ## Verdicts -/

theorem complete (p : Provider) (messages temperature maxTokens : Json) :
    Run.Keeps part (p.complete messages temperature maxTokens true) := by
  unfold Provider.complete
  split
  · refine (h.ask _).bind fun _ => ?_
    exact (Run.keeps_ofExcept _).bind fun _ => Run.keeps_ofExcept _
  · refine (Run.keeps_ofExcept _).bind fun _ => ?_
    exact (h.ask _).bind fun _ => Run.keeps_ofExcept _
  · refine (Run.keeps_ofExcept _).bind fun _ => ?_
    exact (h.ask _).bind fun _ => Run.keeps_ofExcept _

/-- **Verifying a finding** touches nothing that stands aside. -/
theorem verify (v : Verifier) (finding : Json) (withExamples : Bool) :
    Run.Keeps part (v.verify finding withExamples) := by
  have hask : Run.Keeps part (v.ask finding withExamples) :=
    (Run.keeps_ofExcept _).bind fun _ => (Run.keeps_ofExcept _).bind fun _ =>
      (h.complete v.provider _ _ _).bind fun _ => Run.keeps_ofExcept _
  unfold Verifier.verify
  exact hask.tryCatch fun e => Run.keeps_ofExcept _

end Aside

/-! ## The host is not spoken to -/

theorem Scan.hostSide_scanRepository (path : String) :
    Run.Keeps World.hostSide (Toolbox.scanRepository {} path) :=
  aside_hostSide.scanRepository path

theorem Privacy.hostSide_sanitizeFinding (v : Json) :
    Run.Keeps World.hostSide (sanitizeFinding v) :=
  aside_hostSide.sanitizeFinding v

theorem Verifier.hostSide_verify (v : Verifier) (finding : Json) (withExamples : Bool) :
    Run.Keeps World.hostSide (v.verify finding withExamples) :=
  aside_hostSide.verify v finding withExamples

end SecureReview
