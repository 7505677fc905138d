import SecureReview.Proofs.Cache.Answers
/-!
# Verdicts on different questions

A verdict is kept under the digits of its question: the code, a colon and
the rule. Where the digits do not collide, two questions share a verdict
exactly if these texts are the same, and since code and rules may both have
colons, **the text does not tell where the code ends**
(`text_eq_iff`): a question shares its verdict with each one in which a
part of the rule, up to a colon, is counted to the code.
-/

namespace SecureReview.ResultCache

/-- A question about code: the finding tells the rule, a text that is empty if it is not told. -/
structure Query where
  code : String
  finding : Fields
  rule : String
  rule_eq : (Fields.get? finding "rule_id").getD (.str "") = .str rule

namespace Query

variable {q r : Query}

/-- The text that stands for a question. -/
def text (q : Query) : String :=
  q.code ++ ":" ++ q.rule

/-- The questions are the same: the same code under the same rule. -/
def Same (q r : Query) : Prop :=
  q.code = r.code ∧ q.rule = r.rule

/-- The code of `r` goes on with the first part of the rule of `q`, up to a colon, and its rule is
the rest. -/
def Shifted (q r : Query) : Prop :=
  ∃ part, r.code = q.code ++ ":" ++ part ∧ q.rule = part ++ ":" ++ r.rule

theorem toList_text (q : Query) : q.text.toList = q.code.toList ++ ':' :: q.rule.toList := by
  simp [text]

/-- The same of texts as lists of characters. -/
theorem shifted_iff : q.Shifted r ↔ ∃ part, r.code.toList = q.code.toList ++ ':' :: part ∧
    q.rule.toList = part ++ ':' :: r.rule.toList := by
  constructor
  · rintro ⟨part, hcode, hrule⟩
    exact ⟨part.toList, by simp [hcode], by simp [hrule]⟩
  · rintro ⟨part, hcode, hrule⟩
    refine ⟨String.ofList part, ?_, ?_⟩
    · exact String.toList_inj.1 (by simp [hcode])
    · exact String.toList_inj.1 (by simp [hrule])

/-- A shift does not change the text. -/
theorem Shifted.text_eq (h : q.Shifted r) : q.text = r.text := by
  obtain ⟨part, hcode, hrule⟩ := h
  simp only [text, hcode, hrule, String.append_assoc]

/-- **Questions have the same text** if they are the same, or one is the other with a part of the
rule counted to the code. -/
theorem text_eq_iff : q.text = r.text ↔ q.Same r ∨ q.Shifted r ∨ r.Shifted q := by
  constructor
  · intro h
    have hlists := congrArg String.toList h
    rw [toList_text, toList_text] at hlists
    -- one code is the beginning of the other, and the rest of that begins with the colon
    obtain ⟨rest, hcode, hrule⟩ | ⟨rest, hcode, hrule⟩ := List.append_eq_append_iff.1 hlists
    · cases rest with
      | nil =>
        rw [List.nil_append, List.cons.injEq] at hrule
        rw [List.append_nil] at hcode
        exact Or.inl ⟨String.toList_inj.1 hcode.symm, String.toList_inj.1 hrule.2⟩
      | cons x part =>
        obtain ⟨rfl, hpart⟩ := List.cons.inj hrule
        exact Or.inr (Or.inl (shifted_iff.2 ⟨part, hcode, hpart⟩))
    · cases rest with
      | nil =>
        rw [List.nil_append, List.cons.injEq] at hrule
        rw [List.append_nil] at hcode
        exact Or.inl ⟨String.toList_inj.1 hcode, String.toList_inj.1 hrule.2.symm⟩
      | cons x part =>
        obtain ⟨rfl, hpart⟩ := List.cons.inj hrule
        exact Or.inr (Or.inr (shifted_iff.2 ⟨part, hcode, hpart⟩))
  · rintro (⟨hcode, hrule⟩ | hshifted | hshifted)
    · rw [text, hcode, hrule, text]
    · exact hshifted.text_eq
    · exact hshifted.text_eq.symm

theorem verdictKey_eq (q : Query) :
    verdictKey (.str q.code) (.obj q.finding) = .ok (key "llm" q.text) := by
  have hrule : (Json.obj q.finding).getD "rule_id" (.str "") = .ok (.str q.rule) := by
    rw [Json.getD_obj, q.rule_eq]
  simp only [verdictKey, hrule, bind, Except.bind]
  rfl

end Query

variable {q r : Query}

/-- What is found for a question after a verdict was kept for another. -/
def foundAfter (q : Query) (verdict : Answer) (ttl : Json) (r : Query) : Option Json :=
  (fresh.setVerdict (.str q.code) (.obj q.finding) (.obj verdict.fields) ttl).getVerdict
    (.str r.code) (.obj r.finding)

/-- **The verdict on one question is found for another** if their digits are the same. -/
theorem foundAfter_eq (q : Query) (verdict : Answer) (ttl : Json) (r : Query) :
    foundAfter q verdict ttl r =
      if digest q.text = digest r.text then some (.obj verdict.fields) else none := by
  rw [foundAfter, setVerdict, getVerdict, q.verdictKey_eq, r.verdictKey_eq]
  by_cases hdigits : digest q.text = digest r.text
  · rw [if_pos hdigits, key_eq_iff.2 hdigits, lookUp_save rfl rfl verdict.distinct]
  · have hkey : key "llm" r.text ≠ key "llm" q.text := fun h => hdigits (key_eq_iff.1 h).symm
    rw [if_neg hdigits, lookUp_save_of_ne rfl rfl hkey]
    rfl

/-- A question about a call under a rule. -/
def aboutCall (code rule : String) : Query :=
  ⟨code, [("rule_id", .str rule)], rule, rfl⟩

/-- A verdict that confirms a finding. -/
def confirmed : Answer :=
  ⟨[("is_valid", .bool true)], by decide⟩

end SecureReview.ResultCache
