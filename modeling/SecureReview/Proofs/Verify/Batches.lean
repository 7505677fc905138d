import SecureReview.Proofs.World.Run
import SecureReview.Verify.Verifier
/-!
# Verdicts in groups

The verdicts on several findings are asked for in groups, and a group
goes on asking after one of its findings has failed. Where none fails, a
group is its findings one after the other (`alike_verifyGroup`), and the
groups together are the whole list (`flatten_groupsOf`). So **the groups
leave no mark**, neither on the verdicts nor on what the model is asked
(`verifyAll_eq_ok_iff`).
-/

namespace SecureReview

namespace Run

variable {α β : Type} {x y : Run α} {f g : α → Run β}

/-- Two operations succeed alike: in the same worlds, with the same answer,
and with the same world afterwards. What they do when they fail may
differ. -/
def Alike (x y : Run α) : Prop :=
  ∀ w a w', x.run.run w = (.ok a, w') ↔ y.run.run w = (.ok a, w')

theorem Alike.refl (x : Run α) : Alike x x :=
  fun _ _ _ => Iff.rfl

theorem Alike.bind (h : Alike x y) (hf : ∀ a, Alike (f a) (g a)) :
    Alike (x >>= f) (y >>= g) := by
  intro w b w'
  rw [bind_eq_ok, bind_eq_ok]
  refine exists_congr fun a => exists_congr fun w₁ => ?_
  rw [h w a w₁, hf a w₁ b w']

theorem Alike.mapM (h : ∀ a, Alike (f a) (g a)) (as : List α) :
    Alike (as.mapM f) (as.mapM g) := by
  induction as with
  | nil => exact .refl _
  | cons a as ih =>
    rw [List.mapM_cons, List.mapM_cons]
    exact (h a).bind fun b => ih.bind fun bs => .refl _

/-- Doing something for each item of each list is doing it for all the
items. -/
theorem mapM_flatten (f : α → Run β) (xss : List (List α)) :
    (do return (← xss.mapM fun xs => xs.mapM f).flatten) = xss.flatten.mapM f := by
  induction xss with
  | nil => rfl
  | cons xs xss ih =>
    rw [List.flatten_cons, List.mapM_append, ← ih, List.mapM_cons]
    simp only [bind_assoc, pure_bind, List.flatten_cons]

/-- A failure that is made a value is one, and what was done before it
stays done. -/
theorem run_attempt (x : Run α) (w : World) :
    (tryCatch (do return .ok (← x)) fun e => return .error e :
        Run (Except Failure α)).run.run w = (.ok (x.run.run w).1, (x.run.run w).2) := by
  obtain ⟨r, w', hx⟩ : ∃ r w', x.run.run w = (r, w') := ⟨_, _, rfl⟩
  rw [run_tryCatch, run_bind, hx]
  cases r <;> rfl

end Run

namespace Verifier

/-- **The groups of a list make up the list.** -/
theorem flatten_groupsOf {α : Type} (n : Nat) (xs : List α) : (groupsOf n xs).flatten = xs := by
  fun_induction groupsOf n xs with
  | case1 xs _ hempty => rw [List.flatten_nil, List.isEmpty_iff.1 hempty]
  | case2 xs _ _ => rw [List.flatten_cons, List.flatten_nil, List.append_nil]
  | case3 xs _ ih => rw [List.flatten_cons, ih, List.take_append_drop]

theorem groupSize_int {n : Int} (h : 1 ≤ n) : groupSize (.int n) = .ok n := by
  unfold groupSize
  split <;> simp_all

/-- The verdicts on some findings, one after the other. -/
def oneByOne (v : Verifier) (fs : List Json) : Run (List Verdict) :=
  fs.mapM fun f => v.verify f true

/-- **A group in which nothing fails** is its findings one after the other. -/
theorem alike_verifyGroup (v : Verifier) (fs : List Json) :
    Run.Alike (v.verifyGroup fs) (v.oneByOne fs) := by
  induction fs with
  | nil => exact .refl _
  | cons f fs ih =>
    intro w ds w'
    obtain ⟨r, w₁, hr⟩ : ∃ r w₁, (v.verify f true).run.run w = (r, w₁) := ⟨_, _, rfl⟩
    rw [verifyGroup, Run.run_bind_ok (Run.run_attempt _ w), hr, oneByOne, List.mapM_cons]
    cases r with
    | ok d =>
      rw [Run.run_bind_ok hr]
      exact (ih.bind fun ds => .refl (pure (d :: ds))) w₁ ds w'
    | error e =>
      -- the rest of the group is still asked for, but the failure counts
      rw [Run.run_bind_error hr]
      constructor
      · intro h
        obtain ⟨_, _, -, hthrow⟩ := Run.bind_eq_ok.1 h
        cases hthrow
      · intro h
        cases h

theorem run_verifyAll (v : Verifier) (fs : List Json) {n : Int} (h : 1 ≤ n) (w : World) :
    (v.verifyAll (.arr fs) (.int n)).run.run w =
      (do return (← (groupsOf n.toNat fs).mapM v.verifyGroup).flatten :
        Run (List Verdict)).run.run w := by
  have hitems : (Json.arr fs).items = .ok fs := rfl
  rw [verifyAll, hitems, Run.run_bind_ok Run.run_ofExcept, groupSize_int h,
    Run.run_bind_ok Run.run_ofExcept, if_neg (by omega)]

/-- **The groups leave no mark.** Asking for verdicts in groups of any size
returns exactly if asking for them one after the other does, and then it
returns the same verdicts in the same order and leaves the same world: the
model was asked the same in the same order, and the same replies are left
over. -/
theorem verifyAll_eq_ok_iff (v : Verifier) (fs : List Json) (n : Int) (h : 1 ≤ n) (w w' : World)
    (ds : List Verdict) : (v.verifyAll (.arr fs) (.int n)).run.run w = (.ok ds, w') ↔
      (v.oneByOne fs).run.run w = (.ok ds, w') := by
  have hgroups : v.oneByOne fs =
      (do return (← (groupsOf n.toNat fs).mapM v.oneByOne).flatten) := by
    unfold oneByOne
    rw [Run.mapM_flatten, flatten_groupsOf]
  rw [run_verifyAll v fs h, hgroups]
  exact ((Run.Alike.mapM v.alike_verifyGroup _).bind fun _ => .refl _) w ds w'

/-- Three findings, the second of which is in no line and cannot be asked
about. -/
def threeFindings : List Json :=
  [.obj [("rule_id", .str "B101")], .obj [("line", .str "x")], .obj [("rule_id", .str "B303")]]

/-- A model that fails each time. -/
def threeFaults : World :=
  { replies := [.fault "first", .fault "second", .fault "third"] }

/-- A verifier with the largest model of its vendor. -/
def opusVerifier : Verifier :=
  ⟨⟨.anthropic, "key", "claude-3-opus-20240229"⟩, 0.1, 2000⟩

/-- Groups of two, so that the last has one finding. The one that is not
asked about uses up no reply. -/
theorem verifyAll_in_twos : (1 : Int) ≤ 2 ∧ ∃ ds w',
    (opusVerifier.verifyAll (.arr threeFindings) (.int 2)).run.run threeFaults = (.ok ds, w') ∧
    ds.map Verdict.reasoning = ["Verification failed due to error: first",
      "Verification failed due to error: 1 validation error for VerificationRequest\nline_number\n" ++
        "  value is not a valid integer (type=type_error.integer)",
      "Verification failed due to error: second"] ∧
    w'.trace.modelRequests.length = 2 ∧ w'.replies.length = 1 := by
  have hreasons : ((opusVerifier.oneByOne threeFindings).run.run threeFaults).1.toOption.map
      (·.map Verdict.reasoning) = some ["Verification failed due to error: first",
        "Verification failed due to error: 1 validation error for VerificationRequest\nline_number\n" ++
          "  value is not a valid integer (type=type_error.integer)",
        "Verification failed due to error: second"] := by decide +kernel
  have hworld :
      ((opusVerifier.oneByOne threeFindings).run.run threeFaults).2.trace.modelRequests.length = 2 ∧
      ((opusVerifier.oneByOne threeFindings).run.run threeFaults).2.replies.length = 1 := by
    decide +kernel
  generalize hrun : (opusVerifier.oneByOne threeFindings).run.run threeFaults = outcome
    at hreasons hworld
  obtain ⟨r, w'⟩ := outcome
  cases r with
  | error e => cases hreasons
  | ok ds =>
    exact ⟨by decide, ds, w', (verifyAll_eq_ok_iff _ _ 2 (by decide) _ w' ds).2 hrun,
      Option.some.inj hreasons, hworld⟩

end Verifier

end SecureReview
