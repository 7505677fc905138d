import SecureReview.Proofs.Verify.Degradation
import SecureReview.Proofs.Verify.Vendors
/-!
# Where verdicts come from

A verifier returns the verdict that it got from a provider, or one that
says what went wrong. The first was read, perhaps twice, and the second is
checked like any other, so **both are legal** (`verify_returns_legal`).
Reading a verdict in normal form gives it back (`parse_print`), so the
second reading changes nothing: what is returned is the verdict in the
reply, and a reply without one decides nothing.
-/

namespace SecureReview

variable {w w' : World} {d : Verdict}

/-- The verdict that the next reply of the model is, if it is one. -/
def World.offered? (w : World) : Option Verdict :=
  w.replies.head?.bind ModelReply.verdict?

namespace Verdict

/-- The verifier's own reasons are checked like those of a model. -/
theorem legal_uncertain {reason : String} (hleast : 10 ≤ reason.length)
    (hmost : reason.length ≤ 500) : (uncertain reason).Legal := by
  have hundecided := undecided_eq reason hleast
  rw [if_pos hmost] at hundecided
  exact legal_of_check (Checked.get_eq_ok.1 hundecided)

end Verdict

namespace Verifier

variable {v : Verifier} {finding : Json} {withExamples : Bool}

/-- The reason given after a failure says that there was one. -/
theorem prefix_failedReason (e : Failure) :
    "Verification failed due to error: ".toList <+: (failedReason e).toList := by
  unfold failedReason
  rewrite [String.toList_append]
  exact List.prefix_append _ _

/-- The verdict comes from a reply: the provider answered what was shown of
the finding, the answer was read as the verdict, and the reply of the model
is that verdict itself. -/
def Replied (v : Verifier) (finding : Json) (withExamples : Bool) (w w' : World) (d : Verdict) :
    Prop :=
  ∃ prompt answer, shown finding withExamples = .ok prompt ∧
    (v.provider.complete (conversation prompt) (.float v.temperature) (.int v.maxTokens) true).run.run
      w = (.ok answer, w') ∧
    Verdict.parse (some answer.content) = .ok d ∧ w.offered? = some d

theorem replied_of_ask (h : (v.ask finding withExamples).run.run w = (.ok d, w')) :
    v.Replied finding withExamples w w' d := by
  obtain ⟨r, w₁, hread, h⟩ := Run.bind_eq_ok.1 h
  obtain ⟨hr, rfl⟩ := Run.ofExcept_eq_ok.1 hread
  obtain ⟨prompt, w₂, hread, h⟩ := Run.bind_eq_ok.1 h
  obtain ⟨hprompt, rfl⟩ := Run.ofExcept_eq_ok.1 hread
  obtain ⟨answer, w₃, hcomplete, h⟩ := Run.bind_eq_ok.1 h
  obtain ⟨hparse, rfl⟩ := Run.ofExcept_eq_ok.1 h
  have hshown : shown finding withExamples = .ok prompt :=
    Run.except_bind_eq_ok.2 ⟨r, hr, hprompt⟩
  obtain ⟨text, sent, received, rest, hw, hnormal⟩ := Provider.reply_of_complete hcomplete
  have htext := Provider.parse_eq_of_normalVerdict hnormal hparse
  refine ⟨prompt, answer, hshown, hcomplete, hparse, ?_⟩
  rw [World.offered?, hw, List.head?_cons, Option.bind_some, ModelReply.verdict?, htext]
  rfl

/-- **Every verdict that is returned is legal**, for every finding, vendor
and reply. It comes from a reply that is this verdict, or it is undecided
with no confidence and says what failed. So a reply that is no verdict
decides nothing. -/
theorem verify_returns_legal (v : Verifier) (finding : Json) (withExamples : Bool) (w w' : World)
    (d : Verdict) (h : (v.verify finding withExamples).run.run w = (.ok d, w')) :
    d.Legal ∧
    (v.Replied finding withExamples w w' d ∨
      d.decision = .uncertain ∧ d.confidence = 0.0 ∧
        "Verification failed due to error: ".toList <+: d.reasoning.toList) ∧
    (w.offered? = none → d.decision ≠ .truePositive ∧ d.decision ≠ .falsePositive) := by
  obtain ⟨d', w₁, hask, hverify⟩ | ⟨e, w₁, -, hshort, hverify⟩ | ⟨e, w₁, -, -, hverify⟩ :=
    verify_cases v finding withExamples w
  · rw [h] at hverify
    cases hverify
    obtain ⟨prompt, answer, hshown, hcomplete, hparse, hoffered⟩ := replied_of_ask hask
    refine ⟨Verdict.legal_of_parse hparse,
      Or.inl ⟨prompt, answer, hshown, hcomplete, hparse, hoffered⟩, fun hnone => ?_⟩
    rw [hoffered] at hnone
    cases hnone
  · rw [h] at hverify
    cases hverify
    have hlength := length_failedReason (e := e)
    refine ⟨Verdict.legal_uncertain (by omega) (by omega), Or.inr ⟨rfl, rfl, ?_⟩, fun _ => ?_⟩
    · exact prefix_failedReason e
    · constructor
      · intro hdecision
        cases hdecision
      · intro hdecision
        cases hdecision
  · rw [h] at hverify
    cases hverify

/-- A verdict at its limits: full confidence, and reasons as short as they
may be. -/
def certain : Verdict :=
  { decision := .truePositive, confidence := 1.0, reasoning := "0123456789" }

theorem legal_certain : certain.Legal where
  confidence := by decide +kernel
  reasoning := by decide +kernel
  exploitability t ht := by cases ht
  remediation t ht := by cases ht
  falsePositiveReason t ht := by cases ht

/-- A decided verdict comes from the reply, also where the provider hands on
its normal form. -/
theorem verify_returns_certain : ∃ w',
    (verify ⟨⟨.anthropic, "key", "claude-3-opus-20240229"⟩, 0.1, 2000⟩ (.obj []) false).run.run
        { replies := [.content (some certain.print) 10 20] } = (.ok certain, w') ∧
      certain.Legal ∧
      Replied ⟨⟨.anthropic, "key", "claude-3-opus-20240229"⟩, 0.1, 2000⟩ (.obj []) false
        { replies := [.content (some certain.print) 10 20] } w' certain := by
  have hparse := Verdict.parse_print legal_certain
  have hjudged : judged (.obj []) false certain.print = .ok certain := by
    refine Run.except_bind_eq_ok.2 ⟨_, rfl, ?_⟩
    rw [Provider.normalVerdict, if_pos rfl, hparse]
    exact hparse
  have hcounts : FewTokens ⟨⟨.anthropic, "key", "claude-3-opus-20240229"⟩, 0.1, 2000⟩ (.obj []) false
      certain.print 10 20 := by
    intro prompt content _ _
    simp only [Provider.usage]
    omega
  obtain ⟨w', hask⟩ := ask_of_reply ⟨⟨.anthropic, "key", "claude-3-opus-20240229"⟩, 0.1, 2000⟩
    (w := { replies := [.content (some certain.print) 10 20] }) rfl hcounts
  rw [hjudged] at hask
  have hverify := verify_of_ask hask
  obtain ⟨hlegal, hreplied | ⟨huncertain, -⟩, -⟩ := verify_returns_legal _ _ _ _ _ _ hverify
  · exact ⟨w', hverify, hlegal, hreplied⟩
  · cases huncertain

end Verifier

end SecureReview
