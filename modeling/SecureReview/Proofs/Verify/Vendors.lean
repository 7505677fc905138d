import SecureReview.Proofs.Number.Arithmetic
import SecureReview.Proofs.Verify.Provider
import SecureReview.Proofs.Verify.Request
/-!
# Vendors are interchangeable

One vendor refuses a reply that is no verdict, the other two hand it on
and have it refused when it is read. The counts of tokens are told by
two vendors and estimated for the third, and they enter the price. What
becomes of a reply is the same for all of them (`ask_of_reply`): it is
read as a verdict, and the verdict is read once more in normal form. So
**the verdict on a finding does not depend on the vendor**
(`verify_eq_of_same_reply`), and neither does the failure to get one.
-/

namespace SecureReview

/-! ## Prices -/

/-- Counts of tokens have a double. -/
theorem Number.exists_ofInt? {n : Int} (h : n.natAbs < 2 ^ 64) : ∃ x, ofInt? n = some x := by
  obtain ⟨b, hb, hbits⟩ := nearestBits_spec n.natAbs Nat.one_pos
  have hle : (n.natAbs : ℚ) / (1 : ℕ) ≤ 2 ^ 64 := by
    rw [Nat.cast_one, div_one]
    exact_mod_cast h.le
  refine ⟨signed (n < 0) b, ?_⟩
  rw [ofInt?, ofQuotient, hbits, if_pos (hb.finite hle)]
  rfl

namespace Provider

variable {p : Provider} {sent received : Int} {prompt s : String} {rest : List ModelReply}
variable {w : World} {temperature maxTokens : Json}

/-- One side of a conversation has a price. -/
theorem exists_sidePrice (h : sent.natAbs < 2 ^ 64) (perThousand : Float) :
    ∃ x, sidePrice (.int sent) perThousand = .ok (.float x) := by
  obtain ⟨x, hx⟩ := Number.exists_ofInt? h
  obtain ⟨y, hy⟩ := @Number.exists_ofInt? 1000 (by decide)
  refine ⟨x * perThousand / y, ?_⟩
  have hsent : (Num.int sent).toFloat = .ok x := by rw [Num.toFloat, hx]
  have hthousand : (Num.int 1000).toFloat = .ok y := by rw [Num.toFloat, hy]
  have hmul : (Num.int sent).mul (.float perThousand) = .ok (.float (x * perThousand)) := by
    simp only [Num.mul, Num.combine, hsent]
    rfl
  have hdiv (z : Float) : (Num.float z).div (.int 1000) = .ok (.float (z / y)) := by
    simp only [Num.div, hthousand]
    rfl
  rw [sidePrice, hmul]
  exact hdiv _

/-- **A text always makes a completion**, whatever the provider, if the
tokens can be counted. -/
theorem exists_completion (p : Provider) (text : String) (hsent : sent.natAbs < 2 ^ 64)
    (hreceived : received.natAbs < 2 ^ 64) :
    ∃ c, p.completion (some text) sent received = .ok c ∧ c.content = text := by
  obtain ⟨x, hx⟩ := exists_sidePrice hsent p.price.1
  obtain ⟨y, hy⟩ := exists_sidePrice hreceived p.price.2
  have hcost : p.cost (.int sent) (.int received) = .ok (.float (x + y)) := by
    rw [cost, hx, hy]
    rfl
  refine ⟨⟨text, p.model, p.vendor.name, sent + received, x + y⟩, ?_, rfl⟩
  rw [completion, hcost]
  rfl

/-! ## Replies -/

/-- The tokens of the conversation about a finding and of its answer, as
a provider counts them: as it is told, or as it estimates them. -/
def usage (p : Provider) (prompt content : String) (sent received : Int) : Int × Int :=
  match p.vendor with
  | .google =>
    (((VerdictPrompt.system.length / 4 : Nat) : Int) + (prompt.length / 4 : Nat),
      (content.length / 4 : Nat))
  | _ => (sent, received)

/-- Ask for an answer and read it. -/
def consult (p : Provider) (prompt : String) (temperature maxTokens : Json) : Run Verdict := do
  let answer ← p.complete (Verifier.conversation prompt) temperature maxTokens true
  Run.ofExcept (Verdict.parse (some answer.content))

/-- A reply has a normal form, if only itself. -/
theorem exists_normalVerdict (s : String) : ∃ content, normalVerdict true (some s) = some content := by
  rw [normalVerdict, if_pos rfl]
  split
  · exact ⟨_, rfl⟩
  · exact ⟨_, rfl⟩

/-- The reply in normal form is all that is read of an answer. -/
theorem run_consult_of_complete {c : Completion} {w' : World}
    (h : (p.complete (Verifier.conversation prompt) temperature maxTokens true).run.run w =
      (.ok c, w')) :
    (p.consult prompt temperature maxTokens).run.run w = (Verdict.parse (some c.content), w') := by
  rw [consult, Run.run_bind_ok h, Run.run_ofExcept]

/-- The vendor that insists on a verdict. A reply that is none is refused
for the reason that the others find later. -/
theorem run_consult_openai (hvendor : p.vendor = .openai)
    (hw : w.replies = .content (some s) sent received :: rest)
    (hsent : sent.natAbs < 2 ^ 53) (hreceived : received.natAbs < 2 ^ 53) :
    ∃ w', (p.consult prompt temperature maxTokens).run.run w =
      (Verdict.parse (normalVerdict true (some s)), w') := by
  obtain ⟨w', hask⟩ := Run.ask_of_content (q := .openai true p.model
    (Verifier.conversation prompt) temperature maxTokens) hw
  refine ⟨w', ?_⟩
  cases hparse : Verdict.parse (some s) with
  | ok d =>
    obtain ⟨c, hc, hcontent⟩ :=
      exists_completion p d.print (hsent.trans (by decide)) (hreceived.trans (by decide))
    have hcomplete : (p.complete (Verifier.conversation prompt) temperature maxTokens true).run.run w =
        (.ok c, w') := by
      simp only [complete, hvendor, completeOpenai]
      rw [Run.run_bind_ok hask]
      simp only [if_true, hparse]
      rw [Run.run_bind_ok Run.run_ofExcept, Run.run_bind_ok Run.run_pure, hc, Run.run_ofExcept]
    rw [run_consult_of_complete hcomplete, hcontent, normalVerdict, if_pos rfl, hparse]
  | error e =>
    have hcomplete : (p.complete (Verifier.conversation prompt) temperature maxTokens true).run.run w =
        (.error e, w') := by
      simp only [complete, hvendor, completeOpenai]
      rw [Run.run_bind_ok hask]
      simp only [if_true, hparse]
      rw [Run.run_bind_error Run.run_ofExcept]
    rw [consult, Run.run_bind_error hcomplete, normalVerdict, if_pos rfl, hparse]
    exact congrArg (·, w') hparse.symm

/-- The vendor that sends the system message apart. -/
theorem run_consult_anthropic (hvendor : p.vendor = .anthropic)
    (hw : w.replies = .content (some s) sent received :: rest)
    (hsent : sent.natAbs < 2 ^ 53) (hreceived : received.natAbs < 2 ^ 53) :
    ∃ w', (p.consult prompt temperature maxTokens).run.run w =
      (Verdict.parse (normalVerdict true (some s)), w') := by
  obtain ⟨content, hnormal⟩ := exists_normalVerdict s
  obtain ⟨c, hc, hcontent⟩ :=
    exists_completion p content (hsent.trans (by decide)) (hreceived.trans (by decide))
  obtain ⟨w', hask⟩ := Run.ask_of_content (q := .anthropic p.model maxTokens temperature
    (if (Json.str VerdictPrompt.system).truthy then .str VerdictPrompt.system else .str "")
    (.arr [.obj [("role", .str "user"), ("content", .str prompt)]])) hw
  have hcomplete : (p.complete (Verifier.conversation prompt) temperature maxTokens true).run.run w =
      (.ok c, w') := by
    simp only [complete, hvendor, completeAnthropic]
    refine (Run.run_bind_ok Run.run_ofExcept).trans ((Run.run_bind_ok hask).trans ?_)
    rw [hnormal, hc, Run.run_ofExcept]
  exact ⟨w', by rw [run_consult_of_complete hcomplete, hcontent, hnormal]⟩

/-- The vendor that does not count: both sides are estimated, for any
system message. -/
theorem exists_completeGoogle {system content : String}
    (hw : w.replies = .content (some s) sent received :: rest)
    (hnormal : normalVerdict true (some s) = some content)
    (hsent : (((system.length / 4 : Nat) : Int) + (prompt.length / 4 : Nat)).natAbs < 2 ^ 53)
    (hreceived : ((content.length / 4 : Nat) : Int).natAbs < 2 ^ 53) :
    ∃ c w', (p.completeGoogle (.arr [
        .obj [("role", .str "system"), ("content", .str system)],
        .obj [("role", .str "user"), ("content", .str prompt)]]) temperature maxTokens true).run.run w =
      (.ok c, w') ∧ c.content = content := by
  obtain ⟨c, hc, hcontent⟩ :=
    exists_completion p content (hsent.trans (by decide)) (hreceived.trans (by decide))
  obtain ⟨w', hask⟩ := Run.ask_of_content (q := .google (.arr
    [.obj [("role", .str "user"), ("parts", .arr [.str system])],
      .obj [("role", .str "user"), ("parts", .arr [.str prompt])]]) temperature maxTokens) hw
  refine ⟨c, w', ?_, hcontent⟩
  rw [← Int.zero_add ((system.length / 4 : Nat) : Int)] at hc
  refine (Run.run_bind_ok Run.run_ofExcept).trans ((Run.run_bind_ok hask).trans ?_)
  dsimp only
  rw [hnormal, Run.run_ofExcept]
  exact congrArg (·, w') hc

theorem run_consult_google (hvendor : p.vendor = .google)
    (hw : w.replies = .content (some s) sent received :: rest)
    (hcounts : ∀ content, normalVerdict true (some s) = some content →
      (p.usage prompt content sent received).1.natAbs < 2 ^ 53 ∧
        (p.usage prompt content sent received).2.natAbs < 2 ^ 53) :
    ∃ w', (p.consult prompt temperature maxTokens).run.run w =
      (Verdict.parse (normalVerdict true (some s)), w') := by
  obtain ⟨content, hnormal⟩ := exists_normalVerdict s
  obtain ⟨hsent, hreceived⟩ := hcounts content hnormal
  simp only [usage, hvendor] at hsent hreceived
  obtain ⟨c, w', hgoogle, hcontent⟩ := exists_completeGoogle hw hnormal hsent hreceived
  have hcomplete : (p.complete (Verifier.conversation prompt) temperature maxTokens true).run.run w =
      (.ok c, w') := by
    simp only [complete, hvendor, Verifier.conversation]
    exact hgoogle
  exact ⟨w', by rw [run_consult_of_complete hcomplete, hcontent, hnormal]⟩

/-- **What becomes of a reply**, whoever the vendor is: it is brought to
normal form if it is a verdict, and then it is read. -/
theorem run_consult (p : Provider) (temperature maxTokens : Json)
    (hw : w.replies = .content (some s) sent received :: rest)
    (hcounts : ∀ content, normalVerdict true (some s) = some content →
      (p.usage prompt content sent received).1.natAbs < 2 ^ 53 ∧
        (p.usage prompt content sent received).2.natAbs < 2 ^ 53) :
    ∃ w', (p.consult prompt temperature maxTokens).run.run w =
      (Verdict.parse (normalVerdict true (some s)), w') := by
  obtain ⟨content, hnormal⟩ := exists_normalVerdict s
  obtain ⟨hsent, hreceived⟩ := hcounts content hnormal
  cases hvendor : p.vendor with
  | openai =>
    simp only [usage, hvendor] at hsent hreceived
    exact run_consult_openai hvendor hw hsent hreceived
  | anthropic =>
    simp only [usage, hvendor] at hsent hreceived
    exact run_consult_anthropic hvendor hw hsent hreceived
  | google => exact run_consult_google hvendor hw hcounts

end Provider

/-! ## Verdicts -/

namespace Verifier

variable {finding : Json} {withExamples : Bool} {s : String} {sent received sent' received' : Int}
variable {rest rest' : List ModelReply} {w w' : World}

/-- The text about a finding that is put before a model. -/
def shown (finding : Json) (withExamples : Bool) : Except Failure String := do
  (← VerdictRequest.ofFinding finding).prompt withExamples

/-- The provider counts fewer than 2⁵³ tokens on either side when it
hands on the reply to what is shown of a finding. -/
def FewTokens (v : Verifier) (finding : Json) (withExamples : Bool) (s : String)
    (sent received : Int) : Prop :=
  ∀ prompt content, shown finding withExamples = .ok prompt →
    Provider.normalVerdict true (some s) = some content →
      (v.provider.usage prompt content sent received).1.natAbs < 2 ^ 53 ∧
        (v.provider.usage prompt content sent received).2.natAbs < 2 ^ 53

/-- What a reply amounts to, without any provider. -/
def judged (finding : Json) (withExamples : Bool) (s : String) : Except Failure Verdict := do
  let _ ← shown finding withExamples
  Verdict.parse (Provider.normalVerdict true (some s))

/-- Asking for a verdict gives what the reply amounts to. -/
theorem ask_of_reply (v : Verifier) (hw : w.replies = .content (some s) sent received :: rest)
    (hcounts : v.FewTokens finding withExamples s sent received) :
    ∃ w', (v.ask finding withExamples).run.run w = (judged finding withExamples s, w') := by
  unfold ask
  cases hrequest : VerdictRequest.ofFinding finding with
  | error e =>
    refine ⟨w, ?_⟩
    rw [Run.run_bind_error Run.run_ofExcept, judged, shown, hrequest]
    rfl
  | ok r =>
    have hshown : shown finding withExamples = r.prompt withExamples := by
      rw [shown, hrequest]
      rfl
    rw [VerdictRequest.prompt_eq] at hshown
    obtain ⟨w', hconsult⟩ := Provider.run_consult v.provider (.float v.temperature) (.int v.maxTokens)
      hw fun content hcontent => hcounts _ content hshown hcontent
    refine ⟨w', ?_⟩
    rw [Run.run_bind_ok Run.run_ofExcept, VerdictRequest.prompt_eq, Run.run_bind_ok Run.run_ofExcept,
      judged, hshown]
    exact hconsult

/-- The outcome when asking has come to this. -/
def recovered : Except Failure Verdict → Except Failure Verdict
  | .ok d => .ok d
  | .error e => Verdict.undecided s!"Verification failed due to error: {e.message}"

theorem verify_of_ask {v : Verifier} {x : Except Failure Verdict}
    (h : (v.ask finding withExamples).run.run w = (x, w')) :
    (v.verify finding withExamples).run.run w = (recovered x, w') := by
  rw [verify, Run.run_tryCatch, h]
  cases x with
  | ok d => rfl
  | error e => exact Run.run_ofExcept

/-- **The verdict does not depend on the vendor.** Two verifiers, with
any providers, models and settings, whose models reply with one text,
come to one outcome on a finding: the same verdict, or the same
failure. -/
theorem verify_eq_of_same_reply (v v' : Verifier)
    (hw : w.replies = .content (some s) sent received :: rest)
    (hw' : w'.replies = .content (some s) sent' received' :: rest')
    (hcounts : v.FewTokens finding withExamples s sent received)
    (hcounts' : v'.FewTokens finding withExamples s sent' received') :
    ((v.verify finding withExamples).run.run w).1 =
      ((v'.verify finding withExamples).run.run w').1 := by
  obtain ⟨w₁, hask⟩ := ask_of_reply v hw hcounts
  obtain ⟨w₂, hask'⟩ := ask_of_reply v' hw' hcounts'
  rw [verify_of_ask hask, verify_of_ask hask']

/-- A text has no more characters than bytes. -/
theorem length_le_utf8ByteSize (s : String) : s.length ≤ s.utf8ByteSize := by
  obtain ⟨l, rfl⟩ : ∃ l, s = String.ofList l := ⟨s.toList, String.ofList_toList.symm⟩
  rw [String.length_ofList]
  induction l with
  | nil => exact Nat.zero_le _
  | cons c l ih =>
    have := c.utf8Size_pos
    simp only [String.ofList_cons, String.utf8ByteSize_append, String.utf8ByteSize_singleton,
      List.length_cons]
    omega

/-- A reply that is no verdict, to a vendor that insists on one and to a
vendor that estimates: the first counts one token less than 2⁵³ on
either side, the second a quarter of the characters. -/
theorem verify_eq_on_plain_text :
    (∃ prompt, shown (.obj []) false = .ok prompt) ∧
    ((verify ⟨⟨.openai, "key", "gpt-4o"⟩, 0.1, 2000⟩ (.obj []) false).run.run
        { replies := [.content (some "no verdict") (2 ^ 53 - 1) (2 ^ 53 - 1)] }).1 =
      ((verify ⟨⟨.google, "key", "gemini-pro"⟩, 0.2, 100⟩ (.obj []) false).run.run
        { replies := [.content (some "no verdict") 0 0] }).1 := by
  have hnormal : Provider.normalVerdict true (some "no verdict") = some "no verdict" := rfl
  obtain ⟨prompt, hshown, hprompt⟩ :
      ∃ prompt, shown (.obj []) false = .ok prompt ∧ prompt.utf8ByteSize < 5000 :=
    ⟨_, rfl, by decide +kernel⟩
  have hsystem : VerdictPrompt.system.utf8ByteSize < 5000 := by decide +kernel
  refine ⟨⟨prompt, hshown⟩, verify_eq_of_same_reply _ _ rfl rfl ?_ ?_⟩
  · intro prompt content _ _
    simp only [Provider.usage]
    omega
  · intro prompt' content hshown' hcontent
    rw [hshown, Except.ok.injEq] at hshown'
    rw [hnormal, Option.some.injEq] at hcontent
    subst hshown' hcontent
    have := length_le_utf8ByteSize VerdictPrompt.system
    have := length_le_utf8ByteSize prompt
    have := length_le_utf8ByteSize "no verdict"
    have htext : "no verdict".utf8ByteSize < 5000 := by decide +kernel
    simp only [Provider.usage]
    omega

end Verifier

end SecureReview
