import SecureReview.Proofs.Verify.Legality
import SecureReview.Proofs.World.Run
import SecureReview.Verify.Verifier
/-!
# Answers of providers

The three vendors treat the reply of a model in their own ways, but what
they hand on is the reply in normal form (`reply_of_complete`). So an
answer that reads as a verdict comes only from a reply that does
(`offersVerdict_of_complete`), and when the model fails so does the
provider, with the text of that failure (`complete_of_fault`).
-/

namespace SecureReview

/-- The verdict that a reply is, if it is one. -/
def ModelReply.verdict? : ModelReply → Option Verdict
  | .content text _ _ => (Verdict.parse text).toOption
  | .fault _ => none

/-- The next reply of the model is a verdict. -/
def World.offersVerdict (w : World) : Bool :=
  w.replies.head?.any fun reply => reply.verdict?.isSome

theorem World.offersVerdict_of_parse {w : World} {text : Option String} {sent received : Int}
    {rest : List ModelReply} {d : Verdict} (hw : w.replies = .content text sent received :: rest)
    (hd : Verdict.parse text = .ok d) : w.offersVerdict = true := by
  simp [offersVerdict, hw, ModelReply.verdict?, hd, Except.toOption]

namespace Provider

variable {p : Provider} {c : Completion} {content text : Option String} {sent received : Int}
variable {w w' : World} {messages temperature maxTokens : Json} {d : Verdict}

/-- The content of a completion is the text it is made of. -/
theorem content_of_completion (h : p.completion content sent received = .ok c) :
    content = some c.content := by
  obtain ⟨price, -, h⟩ := Run.except_bind_eq_ok.1 h
  simp only [Checked.get_eq_ok, Checked.seq_eq_ok, Checked.map_eq_ok, Checked.required_eq_ok] at h
  obtain ⟨_, _, ⟨_, _, ⟨_, _, ⟨_, _, ⟨t, ⟨v, hv, ht⟩, rfl⟩, -, rfl⟩, -, rfl⟩, -, rfl⟩, -, rfl⟩ := h
  cases content with
  | none =>
    obtain rfl := Option.some.inj hv
    cases ht
  | some s =>
    obtain rfl := Option.some.inj hv
    exact congrArg some (Checked.ok.inj ht)

/-- **The second reading changes nothing**: a verdict that is read from a
text in normal form is the one that is read from the text itself. -/
theorem parse_eq_of_normalVerdict {s : String} (h : normalVerdict true text = some s)
    (hd : Verdict.parse (some s) = .ok d) : Verdict.parse text = .ok d := by
  rw [normalVerdict, if_pos rfl] at h
  cases htext : Verdict.parse text with
  | ok d' =>
    rw [htext] at h
    rw [← Option.some.inj h, Verdict.parse_print (Verdict.legal_of_parse htext)] at hd
    exact hd
  | error e =>
    rw [htext] at h
    obtain rfl : text = some s := h
    rw [htext] at hd
    cases hd

/-- **What a provider hands on**: the reply of the model in normal form. -/
theorem reply_of_complete
    (h : (p.complete messages temperature maxTokens true).run.run w = (.ok c, w')) :
    ∃ text sent received rest, w.replies = .content text sent received :: rest ∧
      normalVerdict true text = some c.content := by
  unfold complete at h
  split at h
  · -- the reply has to be a verdict before anything is made of it
    obtain ⟨⟨text, sent, received⟩, w₁, hask, h⟩ := Run.bind_eq_ok.1 h
    obtain ⟨rest, hw⟩ := Run.ask_eq_ok hask
    obtain ⟨d, w₂, hparse, hlast⟩ := Run.bind_eq_ok.1 h
    obtain ⟨hd, rfl⟩ := Run.ofExcept_eq_ok.1 hparse
    obtain ⟨hcompletion, -⟩ := Run.ofExcept_eq_ok.1 hlast
    refine ⟨text, sent, received, rest, hw, ?_⟩
    rw [normalVerdict, if_pos rfl, hd]
    exact content_of_completion hcompletion
  · obtain ⟨⟨system, turns⟩, w₁, hsplit, hrest⟩ := Run.bind_eq_ok.1 h
    obtain ⟨⟨text, sent, received⟩, w₂, hask, hlast⟩ := Run.bind_eq_ok.1 hrest
    obtain ⟨-, rfl⟩ := Run.ofExcept_eq_ok.1 hsplit
    obtain ⟨rest, hw⟩ := Run.ask_eq_ok hask
    exact ⟨text, sent, received, rest, hw, content_of_completion (Run.ofExcept_eq_ok.1 hlast).1⟩
  · obtain ⟨turns, w₁, hturns, hrest⟩ := Run.bind_eq_ok.1 h
    obtain ⟨⟨text, sent, received⟩, w₂, hask, hlast⟩ := Run.bind_eq_ok.1 hrest
    obtain ⟨-, rfl⟩ := Run.ofExcept_eq_ok.1 hturns
    obtain ⟨rest, hw⟩ := Run.ask_eq_ok hask
    obtain ⟨hcompletion, -⟩ := Run.ofExcept_eq_ok.1 hlast
    obtain ⟨items, -, hcompletion⟩ := Run.except_bind_eq_ok.1 hcompletion
    obtain ⟨counts, -, hcompletion⟩ := Run.except_bind_eq_ok.1 hcompletion
    obtain ⟨count, -, hcompletion⟩ := Run.except_bind_eq_ok.1 hcompletion
    exact ⟨text, sent, received, rest, hw, content_of_completion hcompletion⟩

/-- **Only a reply that is a verdict leads to one.** -/
theorem offersVerdict_of_complete
    (h : (p.complete messages temperature maxTokens true).run.run w = (.ok c, w'))
    (hd : Verdict.parse (some c.content) = .ok d) : w.offersVerdict = true := by
  obtain ⟨text, sent, received, rest, hw, hnormal⟩ := reply_of_complete h
  exact World.offersVerdict_of_parse hw (parse_eq_of_normalVerdict hnormal hd)

/-- **When the model fails, so does every provider**, with its text. -/
theorem complete_of_fault {fault prompt : String} {rest : List ModelReply}
    (hw : w.replies = .fault fault :: rest) :
    ∃ w', (p.complete (Verifier.conversation prompt) temperature maxTokens true).run.run w =
      (.error (.broken fault), w') := by
  unfold complete
  split
  · obtain ⟨w', hask⟩ := Run.ask_of_fault hw
    exact ⟨w', Run.run_bind_error hask⟩
  · obtain ⟨w', hask⟩ := Run.ask_of_fault hw
    refine ⟨w', (Run.run_bind_ok Run.run_ofExcept).trans (Run.run_bind_error hask)⟩
  · obtain ⟨w', hask⟩ := Run.ask_of_fault hw
    exact ⟨w', (Run.run_bind_ok Run.run_ofExcept).trans (Run.run_bind_error hask)⟩

end Provider

end SecureReview
