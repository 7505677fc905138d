import SecureReview.Proofs.Privacy.Scrubbing
import SecureReview.Proofs.World.Run
/-!
# Sanitized texts

A text is sanitized by scrubbing its secrets and then asking the
recogniser of personal data. Where the recogniser reports nothing the
outcome is the scrubbed text, so all that `Scrubbing` says holds of it:
`sanitizeText_leaves_only_uncovered` says exactly when a secret is left,
and that sanitizing again changes something exactly then.
-/

namespace SecureReview

/-- The recogniser of personal data reports nothing: it finds nothing, or
it fails. -/
def PersonalReply.isSilent : PersonalReply → Bool
  | .found spans _ => spans.isEmpty
  | .fault _ => true

/-- The next answer of the recogniser reports nothing. -/
def World.hushed (w : World) : Bool :=
  w.personal.head?.all PersonalReply.isSilent

namespace Privacy

open Pattern SecretKind

variable {w : World}

/-- A recogniser that reports nothing leaves the text as it is. -/
theorem redactPersonal_of_hushed (field : String) (h : w.hushed = true) (x : Redacted) :
    ∃ w', (redactPersonal field x).run.run w = (.ok x, w') ∧ w'.personal = w.personal.tail := by
  obtain ⟨_, _, _, _, _, _, personal, _, _, _, _, _, _, _⟩ := w
  match personal, h with
  | [], _ => exact ⟨_, rfl, rfl⟩
  | .found [] _ :: _, _ => exact ⟨_, rfl, rfl⟩
  | .fault _ :: _, _ => exact ⟨_, rfl, rfl⟩

/-- **Sanitizing is scrubbing** then. -/
theorem sanitizeText_of_hushed (t field : String) (h : w.hushed = true) :
    ∃ w', (sanitizeText (.str t) field).run.run w =
        (.ok (.str (String.ofList (redactSecrets field t.toList).text),
          (redactSecrets field t.toList).log), w') ∧
      w'.personal = w.personal.tail := by
  obtain ⟨w', hrun, hw'⟩ := redactPersonal_of_hushed field h (redactSecrets field t.toList)
  refine ⟨w', ?_, hw'⟩
  rw [sanitizeText, searchable, Run.run_bind_ok Run.run_ofExcept, Run.run_bind_ok hrun]
  rfl

/-- A text comes back as it is, with an empty log, exactly when it is
clean. -/
theorem sanitizeText_eq_self_iff (t field : String) (h : w.hushed = true) :
    (∃ w', (sanitizeText (.str t) field).run.run w = (.ok (.str t, []), w')) ↔
      isClean t.toList = true := by
  obtain ⟨w', hrun, -⟩ := sanitizeText_of_hushed t field h
  rw [← redactSecrets_eq_self_iff field]
  constructor
  · rintro ⟨w'', hself⟩
    rw [hrun, Prod.mk.injEq, Except.ok.injEq, Prod.mk.injEq, Json.str.injEq] at hself
    obtain ⟨⟨htext, hlog⟩, -⟩ := hself
    generalize redactSecrets field t.toList = x at htext hlog ⊢
    obtain ⟨text, log⟩ := x
    obtain rfl : log = [] := hlog
    rw [← htext, String.toList_ofList]
  · intro hself
    exact ⟨w', by rw [hrun, hself, String.ofList_toList]⟩

/-- **What sanitizing leaves.** It always gives a text. That text has no
secret of any kind but the addresses of databases; it has such an
address exactly when replacing addresses uncovers one; and exactly then
it is not clean, and not left alone by sanitizing it again. A text
without `@/` uncovers none. -/
theorem sanitizeText_leaves_only_uncovered (t field : String) (hw : w.hushed = true) :
    ∃ out log w', (sanitizeText (.str t) field).run.run w = (.ok (.str out, log), w') ∧
      (∀ k ∈ known, k.name ≠ "DATABASE_URL" → ¬ k.pattern.OccursIn out.toList) ∧
      (databaseUrl.pattern.OccursIn out.toList ↔ UncoversAddress (beforeAddresses t.toList)) ∧
      (isClean out.toList = true ↔ ¬ UncoversAddress (beforeAddresses t.toList)) ∧
      (∀ (again : String) (w₂ : World), w₂.hushed = true →
        ((∃ w₃, (sanitizeText (.str out) again).run.run w₂ = (.ok (.str out, []), w₃)) ↔
          ¬ UncoversAddress (beforeAddresses t.toList))) ∧
      (¬ "@/".toList <:+: t.toList → ¬ UncoversAddress (beforeAddresses t.toList)) := by
  obtain ⟨w', hrun, -⟩ := sanitizeText_of_hushed t field hw
  refine ⟨_, _, w', hrun, ?_, ?_, ?_, ?_, ?_⟩
  · intro k hk hname
    rw [String.toList_ofList]
    exact not_occursIn_redactSecrets field hk hname
  · rw [String.toList_ofList, redactSecrets_text_eq]
    exact occursIn_databaseUrl_iff_uncovers
  · rw [String.toList_ofList]
    exact isClean_redactSecrets_iff field
  · intro again w₂ hw₂
    rw [sanitizeText_eq_self_iff _ again hw₂, String.toList_ofList]
    exact isClean_redactSecrets_iff field
  · intro hmark
    exact (isClean_redactSecrets_iff field).1 (isClean_redactSecrets_of_no_mark field hmark)

/-- A token that is assigned is scrubbed. -/
theorem sanitizeText_scrubs_token :
    ({} : World).hushed = true ∧
      ∃ out log w', (sanitizeText (.str "token = 'abcdefghijklmnopqrstu'") "code").run.run {} =
          (.ok (.str out, log), w') ∧ isClean out.toList = true := by
  refine ⟨rfl, ?_⟩
  obtain ⟨out, log, w', hrun, -, -, hclean, -, hmark⟩ :=
    sanitizeText_leaves_only_uncovered (w := {}) "token = 'abcdefghijklmnopqrstu'" "code" rfl
  exact ⟨out, log, w', hrun, hclean.2 (hmark (by decide +kernel))⟩

/-- **A text that is not scrubbed clean.** The user name of the second
address has `@/`, so the first is none until the second is replaced. -/
theorem sanitizeText_uncovers_address :
    ∃ out log w',
      (sanitizeText (.str "mysql://a mysql://@/:p@h/:b@c") "code").run.run {} =
          (.ok (.str out, log), w') ∧
        out = "mysql://a <DATABASE_URL_REDACTED>/:b@c" ∧ isClean out.toList = false := by
  obtain ⟨w', hrun, -⟩ := sanitizeText_of_hushed (w := {}) "mysql://a mysql://@/:p@h/:b@c"
    "code" rfl
  have htext : (redactSecrets "code" "mysql://a mysql://@/:p@h/:b@c".toList).text =
      "mysql://a <DATABASE_URL_REDACTED>/:b@c".toList := by decide +kernel
  rw [htext, String.ofList_toList] at hrun
  exact ⟨_, _, w', hrun, rfl, by decide +kernel⟩

end Privacy

end SecureReview
