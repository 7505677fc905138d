import SecureReview.Proofs.Validation.Checked
import SecureReview.Verify.Verifier
/-!
# Requests for verdicts

What stands in a request, and what of it the model is shown. A request
is read off a finding and its context (`ofFinding_eq_ok`), and every
text that is read is kept as it is (`mem_texts`). A request always has a
prompt (`prompt_eq`), and **each of its texts is part of that prompt**
(`infix_prompt`).
-/

namespace SecureReview

/-- A line is part of the text that it is put in. -/
theorem Text.infix_unlines {l : String} {ls : List String} (h : l ∈ ls) :
    l.toList <:+: (unlines ls).toList := by
  unfold unlines
  fun_induction joinWith "\n" ls with
  | case1 => cases h
  | case2 p =>
    obtain rfl := List.mem_singleton.1 h
    exact List.infix_rfl
  | case3 p ps _ ih =>
    rw [String.toList_append, String.toList_append]
    obtain rfl | h := List.mem_cons.1 h
    · rw [List.append_assoc]
      exact (List.prefix_append _ _).isInfix
    · exact (ih h).trans (List.suffix_append _ _).isInfix

namespace VerdictRequest

variable {r : VerdictRequest} {s p k : String} {finding : Json} {fs cs : Fields}
variable {withExamples : Bool}

/-! ## From a finding to a request -/

/-- What a finding and its context have for the fields of a request. -/
def rawFields (finding context : Fields) : Fields :=
  let own := (Fields.get? finding "code").getD (.str "")
  [("sast_tool", (Fields.get? finding "tool").getD (.str "unknown")),
   ("rule_id", (Fields.get? finding "rule_id").getD (.str "unknown")),
   ("severity", (Fields.get? finding "severity").getD (.str "unknown")),
   ("description", (Fields.get? finding "description").getD (.str "")),
   ("code_context", (Fields.get? context "context_code").getD own),
   ("function_name", (Fields.get? context "function_name").getD .null),
   ("class_name", (Fields.get? context "class_name").getD .null),
   ("file_path", (Fields.get? finding "file").getD (.str "")),
   ("line_number", (Fields.get? finding "line").getD (.int 0))]

/-- Only an object whose context is an object gives a request. -/
theorem ofFinding_eq_ok (h : ofFinding finding = .ok r) :
    ∃ fs cs, finding = .obj fs ∧ (Fields.get? fs "context").getD (.obj []) = .obj cs ∧
      check (rawFields fs cs) = .ok r := by
  cases finding with
  | obj fs =>
    simp only [ofFinding, Json.getD_obj] at h
    generalize hc : (Fields.get? fs "context").getD (.obj []) = context at h
    cases context with
    | obj cs => exact ⟨fs, cs, rfl, hc, Checked.get_eq_ok.1 h⟩
    | _ => cases h
  | _ => cases h

/-- The texts of a request are what its fields were read as. -/
theorem check_eq_ok (h : check fs = .ok r) :
    (Checked.required fs "sast_tool" Checked.string = .ok r.tool ∧
      Checked.required fs "rule_id" Checked.string = .ok r.rule ∧
      Checked.required fs "severity" Checked.string = .ok r.severity ∧
      Checked.required fs "description" Checked.string = .ok r.description) ∧
    Checked.required fs "code_context" Checked.string = .ok r.code ∧
    Checked.optional fs "function_name" Checked.string = .ok r.functionName ∧
    Checked.optional fs "class_name" Checked.string = .ok r.className ∧
    Checked.required fs "file_path" Checked.string = .ok r.file := by
  simp only [check, Checked.seq_eq_ok, Checked.map_eq_ok] at h
  obtain ⟨_, _, ⟨_, file, ⟨_, className, ⟨_, functionName, ⟨_, code, ⟨_, description,
    ⟨_, severity, ⟨_, rule, ⟨tool, htool, rfl⟩, hrule, rfl⟩, hseverity, rfl⟩, hdescription, rfl⟩,
    hcode, rfl⟩, hfunction, rfl⟩, hclass, rfl⟩, hfile, rfl⟩, -, rfl⟩ := h
  exact ⟨⟨htool, hrule, hseverity, hdescription⟩, hcode, hfunction, hclass, hfile⟩

/-- A text is read as itself. -/
theorem eq_of_required (h : Checked.required fs k Checked.string = .ok p)
    (hs : Fields.get? fs k = some (.str s)) : s = p := by
  obtain ⟨v, hv, hp⟩ := Checked.required_eq_ok.1 h
  rw [hs, Option.some.injEq] at hv
  subst hv
  exact Checked.ok.inj hp

theorem eq_of_optional {o : Option String} (h : Checked.optional fs k Checked.string = .ok o)
    (hs : Fields.get? fs k = some (.str s)) : o = some s := by
  obtain ⟨-, hv | hv⟩ | ⟨v, p, hv, hp, rfl⟩ := Checked.optional_eq_ok h
  · rw [hs] at hv
    cases hv
  · rw [hs] at hv
    cases hv
  · rw [hs, Option.some.injEq] at hv
    subst hv
    rw [Checked.ok.inj hp]

/-- The texts of a request. -/
def texts (r : VerdictRequest) : List String :=
  [r.tool, r.rule, r.severity, r.description, r.code, r.file] ++
    r.functionName.toList ++ r.className.toList

/-- The fields that the texts are read from. -/
def textKeys : List String :=
  ["sast_tool", "rule_id", "severity", "description", "code_context", "file_path",
    "function_name", "class_name"]

theorem mem_texts (h : check fs = .ok r) (hk : k ∈ textKeys)
    (hs : Fields.get? fs k = some (.str s)) : s ∈ r.texts := by
  obtain ⟨⟨htool, hrule, hseverity, hdescription⟩, hcode, hfunction, hclass, hfile⟩ :=
    check_eq_ok h
  simp only [texts, List.mem_append, List.mem_cons, List.not_mem_nil, or_false, Option.mem_toList]
  simp only [textKeys, List.mem_cons, List.not_mem_nil, or_false] at hk
  obtain rfl | rfl | rfl | rfl | rfl | rfl | rfl | rfl := hk
  · simp [eq_of_required htool hs]
  · simp [eq_of_required hrule hs]
  · simp [eq_of_required hseverity hs]
  · simp [eq_of_required hdescription hs]
  · simp [eq_of_required hcode hs]
  · simp [eq_of_required hfile hs]
  · simp [eq_of_optional hfunction hs]
  · simp [eq_of_optional hclass hs]

/-! ## From a request to its prompt -/

/-- The lines about the finding. -/
def lines (r : VerdictRequest) : List String :=
  r.facts.header ++ ["", "**Code Context:**", "```"] ++ [r.code, "```", ""] ++ VerdictPrompt.task

/-- **A request always has a prompt.** -/
theorem prompt_eq : r.prompt withExamples =
    .ok (if withExamples then VerdictPrompt.examples ++ "\n\n---\n\n" ++ Text.unlines r.lines
      else Text.unlines r.lines) :=
  rfl

theorem lines_eq : r.lines =
    ["**SAST Finding to Verify:**", "- Tool: " ++ r.tool, "- Rule: " ++ r.rule,
      "- Severity: " ++ r.severity, "- Description: " ++ r.description] ++
    VerdictPrompt.lineIf (.str r.file) ("- Location: " ++ r.file ++ ":" ++ (Json.int r.line).display) ++
    VerdictPrompt.lineIf (Json.ofString? r.functionName)
      ("- Function: " ++ (Json.ofString? r.functionName).display) ++
    VerdictPrompt.lineIf (Json.ofString? r.className)
      ("- Class: " ++ (Json.ofString? r.className).display) ++
    ["", "**Code Context:**", "```"] ++ [r.code, "```", ""] ++ VerdictPrompt.task :=
  rfl

/-- A text that is not empty has its line. -/
theorem exists_line (hs : s ∈ r.texts) (hne : s ≠ "") : ∃ l ∈ r.lines, s.toList <:+: l.toList := by
  have htitle : ∀ title : String, s.toList <:+: (title ++ s).toList := by
    intro title
    rw [String.toList_append]
    exact (List.suffix_append _ _).isInfix
  have hline : ∀ l, VerdictPrompt.lineIf (.str s) l = [l] := by
    intro l
    simp [VerdictPrompt.lineIf, Json.truthy, hne]
  simp only [texts, List.mem_append, List.mem_cons, List.not_mem_nil, or_false,
    Option.mem_toList] at hs
  rw [lines_eq]
  obtain (((rfl | rfl | rfl | rfl | rfl | rfl) | hs) | hs) := hs
  · exact ⟨"- Tool: " ++ r.tool, by simp, htitle _⟩
  · exact ⟨"- Rule: " ++ r.rule, by simp, htitle _⟩
  · exact ⟨"- Severity: " ++ r.severity, by simp, htitle _⟩
  · exact ⟨"- Description: " ++ r.description, by simp, htitle _⟩
  · exact ⟨r.code, by simp, List.infix_rfl⟩
  · refine ⟨"- Location: " ++ r.file ++ ":" ++ (Json.int r.line).display, by simp [hline], ?_⟩
    rw [String.toList_append, String.toList_append, List.append_assoc]
    exact (htitle _).trans (List.prefix_append _ _).isInfix
  · rw [hs]
    exact ⟨"- Function: " ++ s, by simp [Json.ofString?, Json.display, hline], htitle _⟩
  · rw [hs]
    exact ⟨"- Class: " ++ s, by simp [Json.ofString?, Json.display, hline], htitle _⟩

theorem infix_prompt (h : r.prompt withExamples = .ok p) (hs : s ∈ r.texts) :
    s.toList <:+: p.toList := by
  by_cases hne : s = ""
  · rw [hne]
    exact List.nil_infix
  · obtain ⟨l, hl, hsl⟩ := exists_line hs hne
    have hlines := hsl.trans (Text.infix_unlines hl)
    rw [prompt_eq, Except.ok.injEq] at h
    subst h
    split
    · rw [String.toList_append]
      exact hlines.trans (List.suffix_append _ _).isInfix
    · exact hlines

end VerdictRequest

end SecureReview
