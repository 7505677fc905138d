import Mathlib.Data.List.DropRight
import SecureReview.Fix.Suggestion
import SecureReview.Proofs.Fix.Applied
/-!
# Answers in the form that is asked for

A model is asked for code between two fences and for an explanation
behind a marker. An answer in that form is read as it was meant: **the
code is what is between the fences**, whatever it is, even more fences
(`cleanCode_fenced`), and the explanation is what is behind the marker, if
the marker stands there alone. The marker has no line feed and no blank,
so it cannot begin in one part of an answer and end in another
(`infix_append_cons_iff`).
-/

namespace SecureReview

namespace Text

variable {sep : Char} {a b old : List Char}

/-- An occurrence is the first one if none ends before it does. -/
theorem isFirst_of_absent (h : ¬ old <:+: a ++ old.dropLast) : IsFirst old a b := by
  intro x y hxy
  by_contra hlt
  have hbefore : x ++ old <+: a ++ old ++ b := ⟨y, hxy.symm⟩
  have hupto : a ++ old.dropLast <+: a ++ old ++ b := by
    rw [List.append_assoc, List.prefix_append_right_inj]
    exact (List.dropLast_prefix old).trans (List.prefix_append _ _)
  refine h ((List.suffix_append x old).isInfix.trans ?_)
  refine (List.prefix_of_prefix_length_le hbefore hupto ?_).isInfix
  simp only [List.length_append, List.length_dropLast]
  omega

/-- A text that stands behind a separator, and nowhere else, splits at it. -/
theorem splitAtEach_of_behind (hsep : sep ∉ old) (ha : ¬ old <:+: a) (hb : ¬ old <:+: b) :
    splitAtEach old (a ++ [sep] ++ old ++ b) = [a ++ [sep], b] := by
  have hne : old ≠ [] := fun hnil => ha (hnil ▸ List.nil_infix)
  have hshort : ¬ old <:+: old.dropLast := by
    intro hinfix
    have hlength := hinfix.length_le
    have hpos := List.length_pos_iff.2 hne
    rw [List.length_dropLast] at hlength
    omega
  have hfirst : IsFirst old (a ++ [sep]) b := by
    refine isFirst_of_absent ?_
    rw [List.append_assoc, List.singleton_append, infix_append_cons_iff hsep]
    exact not_or.2 ⟨ha, hshort⟩
  rw [splitAtEach, pieces_of_isFirst hne hfirst, splitAtEach, pieces_of_absent hb]

/-! ## Lines at the end -/

/-- The last lines of a text are at its end. -/
theorem suffix_unlines {n : ℕ} {ls : List String} (h : n < ls.length) :
    (unlines (ls.drop n)).toList <:+ (unlines ls).toList := by
  induction ls generalizing n with
  | nil => exact absurd h (Nat.not_lt_zero n)
  | cons l ls ih =>
    cases n with
    | zero => exact List.suffix_rfl
    | succ n =>
      have hn : n < ls.length := Nat.lt_of_succ_lt_succ h
      have hne : ls ≠ [] := List.ne_nil_of_length_pos (by omega)
      obtain ⟨m, ms, rfl⟩ := List.exists_cons_of_ne_nil hne
      have hunlines : unlines (l :: m :: ms) = l ++ "\n" ++ unlines (m :: ms) := rfl
      rw [List.drop_succ_cons, hunlines, String.toList_append]
      exact (ih hn).trans (List.suffix_append _ _)

end Text

namespace Fix

variable {info code explanation first last : List Char} {ls : List (List Char)}

/-! ## Fences -/

/-- Code between fences. Behind the first one there may be a word on what
the code is. -/
def fenced (info code : List Char) : List Char :=
  fence ++ info ++ '\n' :: (code ++ '\n' :: fence)

theorem isFence_append (info : List Char) : isFence (fence ++ info) = true :=
  List.isPrefixOf_iff_prefix.2 (List.prefix_append fence info)

theorem unfence_between (hfirst : isFence first = true) (hlast : isFence last = true) :
    unfence (first :: (ls ++ [last])) = ls := by
  rw [unfence, dropFence, if_pos hfirst, List.reverse_append, List.reverse_singleton,
    List.singleton_append, dropFence, if_pos hlast, List.reverse_reverse]

/-- **Fenced code is read as the code**, whatever lines it has. -/
theorem cleanCode_fenced (hinfo : '\n' ∉ info) (code : List Char) :
    cleanCode (fenced info code) = Text.trim code := by
  have hfirst : '\n' ∉ fence ++ info := by
    rw [List.mem_append, not_or]
    exact ⟨by decide, hinfo⟩
  have hlast : '\n' ∉ fence := by decide
  have hlines : Text.feedLines (fenced info code) =
      (fence ++ info) :: (Text.feedLines code ++ [fence]) := by
    unfold Text.feedLines fenced
    rw [Text.splitAtEach_append hfirst, Text.splitAtEach_append_cons,
      Text.splitAtEach_of_not_mem hlast]
  rw [cleanCode, hlines, unfence_between (isFence_append info) (by decide), Text.feedLines,
    Text.join_splitAtEach]

/-! ## Explanations -/

/-- An answer in the form that is asked for. -/
def answer (info code explanation : List Char) : List Char :=
  fenced info code ++ "\n\n".toList ++ marker ++ ' ' :: explanation

theorem absent_fence_append {t : List Char} (h : ¬ marker <:+: t) : ¬ marker <:+: fence ++ t := by
  have hne : marker ≠ [] := by decide
  have hfence : '`' ∉ marker := by decide
  simp only [fence, List.cons_append, List.nil_append, Text.infix_cons_iff_of_not_mem hne hfence]
  exact h

/-- The marker does not cross the lines of the fences. -/
theorem absent_fenced (hinfo : ¬ marker <:+: info) (hcode : ¬ marker <:+: code) :
    ¬ marker <:+: fenced info code ++ ['\n'] := by
  have hfeed : '\n' ∉ marker := by decide
  have hnil : ¬ marker <:+: [] := by
    rw [List.infix_nil]
    decide
  have hlast := absent_fence_append hnil
  rw [List.append_nil] at hlast
  rw [Text.infix_append_cons_iff hfeed, fenced, Text.infix_append_cons_iff hfeed,
    Text.infix_append_cons_iff hfeed]
  simp only [not_or]
  exact ⟨⟨absent_fence_append hinfo, hcode, hlast⟩, hnil⟩

theorem trim_fenced (info code : List Char) :
    Text.trim (fenced info code ++ ['\n'] ++ ['\n']) = fenced info code := by
  have hends : fenced info code =
      '`' :: ('`' :: '`' :: (info ++ '\n' :: (code ++ ['\n', '`', '`']))) ++ ['`'] := by
    simp [fenced, fence]
  rw [Text.trim_append_blank (by decide), Text.trim_append_blank (by decide), hends,
    Text.trim_of_ends (by decide) (by decide)]

/-- An answer in the form that is asked for is read as it was meant. -/
theorem parseAnswer_answer (hfeed : '\n' ∉ info) (hinfo : ¬ marker <:+: info)
    (hcode : ¬ marker <:+: code) (hexplanation : ¬ marker <:+: explanation) :
    parseAnswer (answer info code explanation) = (Text.trim code, Text.trim explanation) := by
  have hblank : ¬ marker <:+: ' ' :: explanation := by
    rw [Text.infix_cons_iff_of_not_mem (by decide) (by decide)]
    exact hexplanation
  have hsplit : Text.splitAtEach marker (answer info code explanation) =
      [fenced info code ++ ['\n'] ++ ['\n'], ' ' :: explanation] := by
    have hanswer : answer info code explanation =
        (fenced info code ++ ['\n']) ++ ['\n'] ++ marker ++ ' ' :: explanation := by
      simp [answer]
    rw [hanswer, Text.splitAtEach_of_behind (by decide) (absent_fenced hinfo hcode) hblank]
  unfold parseAnswer
  rw [hsplit]
  dsimp only
  rw [trim_fenced, cleanCode_fenced hfeed, Text.trim_cons_blank (by decide)]

/-- The request for a fix ends with the form of the answer. -/
theorem suffix_fixPrompt {finding old : Json} {prompt : String}
    (h : fixPrompt finding old = .ok prompt) :
    answer [] "[fixed code here]".toList "[brief explanation here]".toList ++ ['\n'] <:+
      prompt.toList := by
  obtain ⟨description, -, h⟩ := Run.except_bind_eq_ok.1 h
  obtain ⟨rule, -, h⟩ := Run.except_bind_eq_ok.1 h
  obtain ⟨severity, -, h⟩ := Run.except_bind_eq_ok.1 h
  obtain ⟨file, -, h⟩ := Run.except_bind_eq_ok.1 h
  obtain ⟨line, -, h⟩ := Run.except_bind_eq_ok.1 h
  obtain ⟨ls, rfl, hlength, hdrop⟩ : ∃ ls, prompt = Text.unlines ls ∧ 20 < ls.length ∧
      ls.drop 20 = ["```", "[fixed code here]", "```", "",
        "**Explanation**: [brief explanation here]", ""] :=
    ⟨_, (Except.ok.inj h).symm, Nat.lt_of_sub_eq_succ rfl, rfl⟩
  have hsuffix := Text.suffix_unlines hlength
  rewrite [hdrop] at hsuffix
  have hform : (Text.unlines ["```", "[fixed code here]", "```", "",
      "**Explanation**: [brief explanation here]", ""]).toList =
        answer [] "[fixed code here]".toList "[brief explanation here]".toList ++ ['\n'] := by
    decide +kernel
  rewrite [hform] at hsuffix
  exact hsuffix

/-- **Answers are read in the form that they are asked for in.** Fenced code
is the code without the blanks around it, also if it has fences itself, and
an answer with one marker gives the code before it and the explanation
behind it. The request for a fix ends with an answer of that form. -/
theorem answers_read_as_asked (info code : List Char) (h : '\n' ∉ info) :
    cleanCode (fenced info code) = Text.trim code ∧
    (∀ explanation, ¬ marker <:+: info → ¬ marker <:+: code → ¬ marker <:+: explanation →
      parseAnswer (answer info code explanation) = (Text.trim code, Text.trim explanation)) ∧
    ∀ finding old prompt, fixPrompt finding old = .ok prompt →
      answer [] "[fixed code here]".toList "[brief explanation here]".toList ++ ['\n'] <:+
        prompt.toList := by
  refine ⟨cleanCode_fenced h code, ?_, fun finding old prompt => suffix_fixPrompt⟩
  intro explanation hinfo hcode hexplanation
  exact parseAnswer_answer h hinfo hcode hexplanation

/-- Code with a fence in it, between blank lines, and an explanation behind
a wide blank. -/
theorem answers_read_with_inner_fence :
    '\n' ∉ "python".toList ∧
    cleanCode (fenced "python".toList "\n x = 1\n```\ny\n".toList) = "x = 1\n```\ny".toList ∧
    parseAnswer (answer "python".toList "\n x = 1\n```\ny\n".toList "\u3000why".toList) =
      ("x = 1\n```\ny".toList, "why".toList) := by
  have hread := answers_read_as_asked "python".toList "\n x = 1\n```\ny\n".toList (by decide)
  have hinfo : ¬ marker <:+: "python".toList := by decide +kernel
  have hcode : ¬ marker <:+: "\n x = 1\n```\ny\n".toList := by decide +kernel
  have hexplanation : ¬ marker <:+: "\u3000why".toList := by decide +kernel
  refine ⟨by decide, hread.1.trans (by decide +kernel), ?_⟩
  exact (hread.2.1 "\u3000why".toList hinfo hcode hexplanation).trans (by decide +kernel)

end Fix

end SecureReview
