import Mathlib.Data.List.DropRight
import SecureReview.Fix.Suggestion
import SecureReview.Proofs.World.Frame
/-!
# What a suggested fix is made of

A suggestion is made of a finding and one reply of the model: it writes the
code in the reply for the code that the finding is about
(`generate_eq_some`). The code in a reply has no blanks around it, so a
suggestion is acceptable **exactly if that code is there and is not the old
one without its blanks** (`isAcceptableFix_iff`). Asking for a suggestion
uses up replies and leaves the files alone (`asksOnly_generate`).
-/

namespace SecureReview

namespace Text

/-- **Blanks are dropped once**: what is left neither begins nor ends with one. -/
theorem trim_trim (t : List Char) : trim (trim t) = trim t := by
  have hfront : (trim t).dropWhile isBlank = trim t := by
    rw [List.dropWhile_eq_self_iff]
    intro hpos hblank
    -- the first character left is the first one after the blanks in front
    have hpre : trim t <+: t.dropWhile isBlank := List.rdropWhile_prefix isBlank _
    have hne : 0 < (t.dropWhile isBlank).length := hpos.trans_le hpre.length_le
    have hhead := List.dropWhile_eq_self_iff.1 (List.dropWhile_idempotent (p := isBlank) t) hne
    rw [← hpre.getElem hpos] at hhead
    exact hhead hblank
  have hback : dropRightWhile isBlank (trim t) = trim t :=
    List.rdropWhile_idempotent isBlank (t.dropWhile isBlank)
  rw [trim, hfront, hback]

theorem strip_ofList_trim (t : List Char) :
    strip (String.ofList (trim t)) = String.ofList (trim t) := by
  rw [strip, String.toList_ofList, trim_trim]

end Text

theorem isAcceptableFix_iff {old fixed : String} (h : Text.strip fixed = fixed) :
    isAcceptableFix old fixed = true ↔ fixed ≠ "" ∧ fixed ≠ Text.strip old := by
  rw [isAcceptableFix, h, Bool.and_eq_true, bne_iff_ne, bne_iff_ne, ne_comm (a := Text.strip old)]

/-! ## Asking the model -/

/-- From one world to the other the files are kept, and of the replies of the model the first ones
are used up. -/
def World.Asked (w w' : World) : Prop :=
  w'.files = w.files ∧ w'.replies <:+ w.replies

theorem World.Asked.refl (w : World) : w.Asked w :=
  ⟨rfl, List.suffix_rfl⟩

theorem World.Asked.trans {w w' w'' : World} (h : w.Asked w') (h' : w'.Asked w'') : w.Asked w'' :=
  ⟨h'.1.trans h.1, h'.2.trans h.2⟩

namespace Run

variable {α β : Type} {x : Run α} {f : α → Run β} {handle : Failure → Run α}

/-- The operation asks the model at most, whether it succeeds or fails. -/
def AsksOnly (x : Run α) : Prop :=
  ∀ w : World, w.Asked (x.run.run w).2

theorem asksOnly_pure (a : α) : AsksOnly (pure a : Run α) :=
  fun w => .refl w

theorem asksOnly_ofExcept (r : Except Failure α) : AsksOnly (ofExcept r) := by
  intro w
  rw [run_ofExcept]
  exact .refl w

theorem AsksOnly.bind (hx : AsksOnly x) (hf : ∀ a, AsksOnly (f a)) : AsksOnly (x >>= f) := by
  intro w
  obtain ⟨r, w', hrun⟩ : ∃ r w', x.run.run w = (r, w') := ⟨_, _, rfl⟩
  have hfirst : w.Asked w' := by simpa [hrun] using hx w
  rw [run_bind, hrun]
  rcases r with _ | a
  · exact hfirst
  · exact hfirst.trans (hf a w')

theorem AsksOnly.map {g : α → β} (hx : AsksOnly x) : AsksOnly (g <$> x) := by
  rw [map_eq_pure_bind]
  exact hx.bind fun a => asksOnly_pure (g a)

theorem AsksOnly.tryCatch (hx : AsksOnly x) (hhandle : ∀ e, AsksOnly (handle e)) :
    AsksOnly (tryCatch x handle) := by
  intro w
  obtain ⟨r, w', hrun⟩ : ∃ r w', x.run.run w = (r, w') := ⟨_, _, rfl⟩
  have hfirst : w.Asked w' := by simpa [hrun] using hx w
  rw [run_tryCatch, hrun]
  rcases r with e | a
  · exact hfirst.trans (hhandle e w')
  · exact hfirst

theorem asksOnly_ask (q : ModelRequest) : AsksOnly (ask q) := by
  intro w
  obtain ⟨_, _, _, _, replies, _, _, _, _, _, _, _, _, _⟩ := w
  cases replies with
  | nil => exact ⟨rfl, List.suffix_rfl⟩
  | cons reply replies =>
    cases reply <;> exact ⟨rfl, List.suffix_cons _ _⟩

end Run

namespace FixEngine

variable {e : FixEngine} {finding : Json} {f : FixSuggestion} {w w' : World}

/-- The code in a reply. With a template all of the reply is code. -/
def codeIn (finding : Json) (reply : String) : String :=
  match templateFor? finding with
  | .ok (some _) => String.ofList (Fix.cleanCode (Text.trim reply.toList))
  | _ => String.ofList (Fix.parseAnswer reply.toList).1

/-- **The code in a reply has no blanks around it.** -/
theorem strip_codeIn (finding : Json) (reply : String) :
    Text.strip (codeIn finding reply) = codeIn finding reply := by
  have hclean (t : List Char) :
      Text.strip (String.ofList (Fix.cleanCode t)) = String.ofList (Fix.cleanCode t) := by
    unfold Fix.cleanCode
    exact Text.strip_ofList_trim _
  unfold codeIn
  split
  · exact hclean _
  · unfold Fix.parseAnswer
    split
    · dsimp only
      exact hclean _
    · dsimp only
      exact hclean _

/-- The suggestion writes this code for the code that the finding is about, in the file of the
finding. -/
structure Writes (finding : Json) (code : String) (f : FixSuggestion) : Prop where
  old : codeOf finding = .ok (.str f.oldCode)
  fixed : f.fixedCode = code
  file : finding.getD "file" (.str "") = .ok f.filePath

/-! ## Suggestions -/

theorem asString_eq_ok {v : Json} {name s : String} (h : v.asString name = .ok s) : v = .str s := by
  cases v with
  | str t => exact congrArg Json.str (Except.ok.inj h)
  | _ => cases h

theorem suggest_eq_ok {old : String} {fixed explanation : List Char} {confidence : Float}
    {imports : List String} {template : Option String}
    (h : suggest finding old fixed explanation confidence imports template = .ok f) :
    f.oldCode = old ∧ f.fixedCode = String.ofList fixed ∧
      finding.getD "file" (.str "") = .ok f.filePath := by
  obtain ⟨id, -, h⟩ := Run.except_bind_eq_ok.1 h
  obtain ⟨rule, -, h⟩ := Run.except_bind_eq_ok.1 h
  obtain ⟨file, hfile, h⟩ := Run.except_bind_eq_ok.1 h
  obtain ⟨line, -, h⟩ := Run.except_bind_eq_ok.1 h
  obtain rfl := Except.ok.inj h
  exact ⟨rfl, rfl, hfile⟩

theorem request_eq_ok {system user operation reply : String} {maxTokens : ℕ}
    (h : (e.request system user maxTokens operation).run.run w = (.ok reply, w')) :
    ∃ sent received rest, w.replies = .content (some reply) sent received :: rest := by
  obtain ⟨⟨text, sent, received⟩, w₁, hask, h⟩ := Run.bind_eq_ok.1 h
  obtain ⟨rest, hreplies⟩ := Run.ask_eq_ok hask
  cases text with
  | none => cases (Prod.mk.inj h).1
  | some t =>
    obtain rfl := Except.ok.inj (Prod.mk.inj h).1
    exact ⟨sent, received, rest, hreplies⟩

/-- What both ways to a suggestion do: they put the code into a request and take the new code out of
the reply. -/
theorem writes_of_run {ask : Json → Except Failure String} (take explain : String → List Char)
    {system operation : String} {maxTokens : ℕ} {confidence : Float} {imports : List String}
    {template : Option String}
    (h : (do
      let code ← Run.ofExcept (codeOf finding)
      let prompt ← Run.ofExcept (ask code)
      let answer ← e.request system prompt maxTokens operation
      let old ← Run.ofExcept (code.asString "splitlines")
      Run.ofExcept (suggest finding old (take answer) (explain answer) confidence imports
        template) : Run FixSuggestion).run.run w = (.ok f, w')) :
    ∃ reply sent received rest, w.replies = .content (some reply) sent received :: rest ∧
      Writes finding (String.ofList (take reply)) f := by
  obtain ⟨code, w₁, hrun, h⟩ := Run.bind_eq_ok.1 h
  obtain ⟨hcode, rfl⟩ := Run.ofExcept_eq_ok.1 hrun
  obtain ⟨prompt, w₂, hprompt, h⟩ := Run.bind_eq_ok.1 h
  obtain ⟨-, rfl⟩ := Run.ofExcept_eq_ok.1 hprompt
  obtain ⟨reply, w₃, hrequest, h⟩ := Run.bind_eq_ok.1 h
  obtain ⟨old, w₄, hread, h⟩ := Run.bind_eq_ok.1 h
  obtain ⟨hold, -⟩ := Run.ofExcept_eq_ok.1 hread
  obtain ⟨hsuggest, -⟩ := Run.ofExcept_eq_ok.1 h
  obtain ⟨sent, received, rest, hreplies⟩ := request_eq_ok hrequest
  obtain ⟨rfl, hfixed, hfile⟩ := suggest_eq_ok hsuggest
  obtain rfl := asString_eq_ok hold
  exact ⟨reply, sent, received, rest, hreplies, hcode, hfixed, hfile⟩

theorem fromTemplate_eq_ok {t : FixTemplate}
    (h : (e.fromTemplate finding t).run.run w = (.ok f, w')) :
    ∃ reply sent received rest, w.replies = .content (some reply) sent received :: rest ∧
      Writes finding (String.ofList (Fix.cleanCode (Text.trim reply.toList))) f := by
  unfold fromTemplate at h
  exact writes_of_run (fun reply => Fix.cleanCode (Text.trim reply.toList))
    (fun _ => t.explanation.toList) h

theorem fromModel_eq_ok (h : (e.fromModel finding).run.run w = (.ok f, w')) :
    ∃ reply sent received rest, w.replies = .content (some reply) sent received :: rest ∧
      Writes finding (String.ofList (Fix.parseAnswer reply.toList).1) f := by
  unfold fromModel at h
  exact writes_of_run (fun reply => (Fix.parseAnswer reply.toList).1)
    (fun reply => (Fix.parseAnswer reply.toList).2) h

/-- A way to a suggestion that is gone to its end. -/
theorem run_of_some {x : Run FixSuggestion}
    {left : Except (Option FixSuggestion) (Option FixSuggestion)}
    (h : (do
      let r ← some <$> x
      ExceptT.run (pure r) : Run (Except (Option FixSuggestion) (Option FixSuggestion))).run.run w =
        (.ok left, w'))
    (hleft : left = .error (some f) ∨ left = .ok (some f)) :
    x.run.run w = (.ok f, w') := by
  obtain ⟨fix?, w₁, hmap, hpure⟩ := Run.bind_eq_ok.1 h
  obtain ⟨fix, hrun, rfl⟩ := Run.map_eq_ok.1 hmap
  obtain ⟨hok, rfl⟩ := Prod.mk.inj hpure
  obtain rfl := Except.ok.inj hok
  rcases hleft with hleft | hleft
  · cases hleft
  · obtain rfl := Option.some.inj (Except.ok.inj hleft)
    exact hrun

/-- **A suggestion** writes the code in the next reply of the model. -/
theorem generate_eq_some (h : (e.generate finding true).run.run w = (.ok (some f), w')) :
    ∃ reply sent received rest, w.replies = .content (some reply) sent received :: rest ∧
      Writes finding (codeIn finding reply) f := by
  unfold generate at h
  obtain ⟨left, hrun, hleft⟩ := Run.try_eq_ok h (Option.some_ne_none f)
  obtain ⟨template?, w₁, hread, hrun⟩ := Run.bind_eq_ok.1 hrun
  obtain ⟨htemplate, rfl⟩ := Run.ofExcept_eq_ok.1 hread
  cases template? with
  | none =>
    simp only [codeIn, htemplate]
    exact fromModel_eq_ok (run_of_some hrun hleft)
  | some t =>
    simp only [codeIn, htemplate]
    simp only [if_true] at hrun
    exact fromTemplate_eq_ok (run_of_some hrun hleft)

theorem asksOnly_request (e : FixEngine) (system user operation : String) (maxTokens : ℕ) :
    Run.AsksOnly (e.request system user maxTokens operation) := by
  refine (Run.asksOnly_ask _).bind fun ⟨text, _, _⟩ => ?_
  cases text with
  | none => exact fun w => .refl w
  | some t => exact Run.asksOnly_pure t

theorem asksOnly_fromTemplate (e : FixEngine) (finding : Json) (t : FixTemplate) :
    Run.AsksOnly (e.fromTemplate finding t) :=
  (Run.asksOnly_ofExcept _).bind fun _ => (Run.asksOnly_ofExcept _).bind fun _ =>
    (e.asksOnly_request _ _ _ _).bind fun _ => (Run.asksOnly_ofExcept _).bind fun _ =>
      Run.asksOnly_ofExcept _

theorem asksOnly_fromModel (e : FixEngine) (finding : Json) :
    Run.AsksOnly (e.fromModel finding) :=
  (Run.asksOnly_ofExcept _).bind fun _ => (Run.asksOnly_ofExcept _).bind fun _ =>
    (e.asksOnly_request _ _ _ _).bind fun _ => (Run.asksOnly_ofExcept _).bind fun _ =>
      Run.asksOnly_ofExcept _

/-- **Looking for a fix** only asks the model. -/
theorem asksOnly_generate (e : FixEngine) (finding : Json) (useTemplate : Bool) :
    Run.AsksOnly (e.generate finding useTemplate) := by
  unfold generate
  refine Run.AsksOnly.bind (Run.AsksOnly.tryCatch ?_ fun _ => Run.asksOnly_pure _) ?_
  · refine (Run.asksOnly_ofExcept _).bind fun template? => ?_
    cases template? with
    | none => exact (e.asksOnly_fromModel finding).map.bind fun _ => Run.asksOnly_pure _
    | some t =>
      cases useTemplate with
      | true => exact (e.asksOnly_fromTemplate finding t).map.bind fun _ => Run.asksOnly_pure _
      | false => exact (e.asksOnly_fromModel finding).map.bind fun _ => Run.asksOnly_pure _
  · intro left
    cases left <;> exact Run.asksOnly_pure _

end FixEngine

end SecureReview
