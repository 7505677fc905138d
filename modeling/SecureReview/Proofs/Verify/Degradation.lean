import SecureReview.Proofs.Verify.Provider
import SecureReview.Proofs.Verify.Request
/-!
# Verdicts when something goes wrong

A verifier that fails to get a verdict gives an undecided one, with the
text of the failure as its reasoning. But a verdict takes reasons of at
most 500 characters, also from the verifier itself, and 34 of them are
spent on saying that it failed. So a failure that has more than 466 to
say **is not caught** (`verify_returns_iff`).
-/

namespace SecureReview

namespace Verdict

/-- What is said of reasons that go on too long. -/
def reasoningTooLong : Failure :=
  .unfit ⟨form, [⟨["reasoning"], "ensure this value has at most 500 characters",
    "value_error.any_str.max_length; limit_value=500"⟩]⟩

/-- The verdict that nothing is certain, with the reason as it is. -/
def uncertain (reason : String) : Verdict :=
  { decision := .uncertain, confidence := 0.0, reasoning := reason }

/-- Of the three fields of an undecided verdict only the reason can be
refused. -/
theorem undecided_eq_reasoning {reason : String} :
    undecided reason = (uncertain <$> (readReasoning (.str reason)).within "reasoning").get form := by
  have hreason : Validator.required [("decision", .str Decision.uncertain.text),
      ("confidence", .float 0.0), ("reasoning", .str reason)] "reasoning" readReasoning =
        (readReasoning (.str reason)).within "reasoning" := rfl
  rw [undecided, check, hreason]
  cases (readReasoning (.str reason)).within "reasoning" <;> rfl

/-- **A reason that is long enough** is accepted up to 500 characters. -/
theorem undecided_eq (reason : String) (h : 10 ≤ reason.length) : undecided reason =
    if reason.length ≤ 500 then .ok (uncertain reason) else .error reasoningTooLong := by
  have hlow : Checked.atLeast 10 reason = .ok reason := if_neg (by omega)
  have hread : readReasoning (.str reason) = Checked.atMost 500 reason := by
    change (Checked.atLeast 10 reason).andThen (Checked.atMost 500) = _
    rw [hlow, Checked.andThen]
  rw [undecided_eq_reasoning, hread, Checked.atMost]
  by_cases hlong : reason.length ≤ 500
  · rw [if_pos hlong, if_neg (by omega)]
    rfl
  · rw [if_neg hlong, if_pos (by omega)]
    rfl

end Verdict

namespace Verifier

variable {v : Verifier} {finding : Json} {withExamples : Bool} {w w' : World} {d : Verdict}
variable {e : Failure}

/-- The reason given after a failure. -/
def failedReason (e : Failure) : String :=
  "Verification failed due to error: " ++ e.message

theorem length_failedReason : (failedReason e).length = 34 + e.message.length := by
  have hprologue : "Verification failed due to error: ".length = 34 := by decide
  unfold failedReason
  generalize e.message = text
  rw [String.length_append, hprologue]

/-- A verdict that is asked for comes from a reply that is one. -/
theorem offersVerdict_of_ask (h : (v.ask finding withExamples).run.run w = (.ok d, w')) :
    w.offersVerdict = true := by
  obtain ⟨r, w₁, hr, h₁⟩ := Run.bind_eq_ok.1 h
  obtain ⟨prompt, w₂, hprompt, h₂⟩ := Run.bind_eq_ok.1 h₁
  obtain ⟨c, w₃, hc, h₃⟩ := Run.bind_eq_ok.1 h₂
  obtain ⟨-, rfl⟩ := Run.ofExcept_eq_ok.1 hr
  obtain ⟨-, rfl⟩ := Run.ofExcept_eq_ok.1 hprompt
  exact Provider.offersVerdict_of_complete hc (Run.ofExcept_eq_ok.1 h₃).1

/-- A fault of the model is the failure to get a verdict. -/
theorem ask_of_fault (v : Verifier) (withExamples : Bool) {r : VerdictRequest} {fault : String}
    {rest : List ModelReply} (hr : VerdictRequest.ofFinding finding = .ok r)
    (hw : w.replies = .fault fault :: rest) :
    ∃ w', (v.ask finding withExamples).run.run w = (.error (.broken fault), w') := by
  obtain ⟨w', hc⟩ := Provider.complete_of_fault hw
  refine ⟨w', ?_⟩
  rw [ask, hr, Run.run_bind_ok Run.run_ofExcept, VerdictRequest.prompt_eq,
    Run.run_bind_ok Run.run_ofExcept, Run.run_bind_error hc]

/-- A failure becomes a verdict if its message is short enough. -/
theorem verify_of_error (h : (v.ask finding withExamples).run.run w = (.error e, w')) :
    (v.verify finding withExamples).run.run w =
      (if e.message.length ≤ 466 then .ok (Verdict.uncertain (failedReason e))
        else .error Verdict.reasoningTooLong, w') := by
  have hlength := length_failedReason (e := e)
  have hundecided := Verdict.undecided_eq (failedReason e) (by omega)
  have hcaught : (v.verify finding withExamples).run.run w =
      (Verdict.undecided (failedReason e), w') := by
    rw [verify, Run.run_tryCatch, h]
    exact Run.run_ofExcept
  rw [hcaught, hundecided]
  by_cases hshort : e.message.length ≤ 466
  · rw [if_pos hshort, if_pos (by omega)]
  · rw [if_neg hshort, if_neg (by omega)]

/-- **All that a verifier can do**: it gives the verdict that it got, or
it got none and says so, or it has too much to say. -/
theorem verify_cases (v : Verifier) (finding : Json) (withExamples : Bool) (w : World) :
    (∃ d w', (v.ask finding withExamples).run.run w = (.ok d, w') ∧
      (v.verify finding withExamples).run.run w = (.ok d, w')) ∨
    (∃ e w', (v.ask finding withExamples).run.run w = (.error e, w') ∧ e.message.length ≤ 466 ∧
      (v.verify finding withExamples).run.run w = (.ok (Verdict.uncertain (failedReason e)), w')) ∨
    ∃ e w', (v.ask finding withExamples).run.run w = (.error e, w') ∧ 466 < e.message.length ∧
      (v.verify finding withExamples).run.run w = (.error Verdict.reasoningTooLong, w') := by
  obtain ⟨x, w', hask⟩ : ∃ x w', (v.ask finding withExamples).run.run w = (x, w') := ⟨_, _, rfl⟩
  cases x with
  | ok d =>
    refine Or.inl ⟨d, w', hask, ?_⟩
    rw [verify, Run.run_tryCatch, hask]
  | error e =>
    have hverify := verify_of_error hask
    by_cases hshort : e.message.length ≤ 466
    · rw [if_pos hshort] at hverify
      exact Or.inr (Or.inl ⟨e, w', hask, hshort, hverify⟩)
    · rw [if_neg hshort] at hverify
      exact Or.inr (Or.inr ⟨e, w', hask, by omega, hverify⟩)

/-- A failure that is caught, or is not. -/
theorem returns_iff_of_error (h : (v.ask finding withExamples).run.run w = (.error e, w')) :
    (∃ d w', (v.verify finding withExamples).run.run w = (.ok d, w')) ↔
      e.message.length ≤ 466 := by
  rw [verify_of_error h]
  by_cases hshort : e.message.length ≤ 466
  · rw [if_pos hshort]
    exact ⟨fun _ => hshort, fun _ => ⟨_, w', rfl⟩⟩
  · rw [if_neg hshort]
    refine ⟨fun ⟨d, w₁, hd⟩ => ?_, fun h => absurd h hshort⟩
    cases hd

/-- **When a verifier degrades to an undecided verdict.** It returns a
verdict exactly when the failure to get one, if there is a failure, says
what went wrong in at most 466 characters; where the model itself fails,
these are the characters of its fault. Otherwise it fails, over the
length of its own reasons. And what it returns when the model does not
reply with a verdict is that nothing is certain. -/
theorem verify_returns_iff (v : Verifier) (finding : Json) (withExamples : Bool) (w : World) :
    ((∃ d w', (v.verify finding withExamples).run.run w = (.ok d, w')) ↔
      ∀ e w', (v.ask finding withExamples).run.run w = (.error e, w') → e.message.length ≤ 466) ∧
    (∀ r fault rest, VerdictRequest.ofFinding finding = .ok r → w.replies = .fault fault :: rest →
      ((∃ d w', (v.verify finding withExamples).run.run w = (.ok d, w')) ↔ fault.length ≤ 466)) ∧
    (∀ e w', (v.verify finding withExamples).run.run w = (.error e, w') →
      e = Verdict.reasoningTooLong) ∧
    (w.offersVerdict = false → ∀ d w', (v.verify finding withExamples).run.run w = (.ok d, w') →
      d.decision = .uncertain ∧ d.confidence = 0.0) := by
  refine ⟨?_, fun r fault rest hr hw => ?_, ?_, ?_⟩
  · obtain ⟨d, w', hask, hverify⟩ | ⟨e, w', hask, -, -⟩ | ⟨e, w', hask, -, -⟩ :=
      verify_cases v finding withExamples w
    · rw [hask]
      refine ⟨fun _ e w₁ he => ?_, fun _ => ⟨d, w', hverify⟩⟩
      cases he
    all_goals
      rw [returns_iff_of_error hask, hask]
      constructor
      · intro hshort e' w₁ he
        obtain ⟨he, -⟩ := Prod.mk.inj he
        rwa [← Except.error.inj he]
      · intro hshort
        exact hshort e w' rfl
  · obtain ⟨w', hask⟩ := ask_of_fault v withExamples hr hw
    exact returns_iff_of_error hask
  · intro e w' he
    obtain ⟨d, w', -, hverify⟩ | ⟨e, w', -, -, hverify⟩ | ⟨e, w', -, -, hverify⟩ :=
      verify_cases v finding withExamples w
    all_goals
      rw [hverify] at he
      cases he
    rfl
  · intro hnone d w' hd
    obtain ⟨d, w', hask, -⟩ | ⟨e, w', -, -, hverify⟩ | ⟨e, w', -, -, hverify⟩ :=
      verify_cases v finding withExamples w
    · rw [offersVerdict_of_ask hask] at hnone
      cases hnone
    · rw [hverify] at hd
      cases hd
      exact ⟨rfl, rfl⟩
    · rw [hverify] at hd
      cases hd

/-- **A fault that is not caught.** A finding without fields gives a
request, and the model fails with 467 characters. -/
theorem verify_fails_on_long_fault :
    ∃ w', (verify ⟨⟨.openai, "key", "gpt-4o"⟩, 0.1, 2000⟩ (.obj []) true).run.run
        { replies := [.fault (String.ofList (List.replicate 467 'x'))] } =
      (.error Verdict.reasoningTooLong, w') := by
  have hr : VerdictRequest.ofFinding (.obj []) = .ok _ := rfl
  obtain ⟨w', hask⟩ := ask_of_fault ⟨⟨.openai, "key", "gpt-4o"⟩, 0.1, 2000⟩ true
    (w := { replies := [.fault (String.ofList (List.replicate 467 'x'))] }) hr rfl
  have hlong : ¬ (String.ofList (List.replicate 467 'x')).length ≤ 466 := by
    rw [String.length_ofList, List.length_replicate]
    omega
  refine ⟨w', ?_⟩
  rw [verify_of_error hask]
  exact congrArg (·, w') (if_neg hlong)

end Verifier

end SecureReview
