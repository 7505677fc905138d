import SecureReview.Host.Client
import SecureReview.Proofs.World.Frame
/-!
# Calls of the repository host

What an operation asks of the repository host is added to the record of
the run. Operations that are put together make the calls of their parts
one after the other (`Calls.trans`), so a kind of call that none of the
parts makes is not made at all (`CallsOnly`), and an operation that has
nothing to do with the host makes none (`Keeps.callsOnly`).

A **willing** host takes every call. Then a comment or a listing makes its
calls to the end, and the host is willing still (`exists_comment`,
`exists_commentLine`, `exists_changedFiles`).
-/

namespace SecureReview

/-- The call leaves a comment, on the pull request or on one of its lines. -/
def HostCall.isComment : HostCall → Bool
  | .issueComment _ => true
  | .reviewComment _ _ _ _ => true
  | _ => false

namespace World

/-- The part of the world that the repository host makes up: what it will answer, and what it was
asked. -/
def hostSide (w : World) :
    List (String × List HostOutcome) × List HostOutcome × List String × List HostCall :=
  (w.host, w.clones, w.pullFiles, w.trace.hostCalls)

/-- These calls of the host were made on the way from one world to the other. -/
def Calls (w w' : World) (cs : List HostCall) : Prop :=
  w'.trace.hostCalls = w.trace.hostCalls ++ cs

variable {w w' w'' : World} {cs cs' : List HostCall}

theorem calls_of_hostSide (h : w'.hostSide = w.hostSide) : w.Calls w' [] := by
  have hcalls : w'.trace.hostCalls = w.trace.hostCalls := congrArg (·.2.2.2) h
  rw [Calls, hcalls, List.append_nil]

theorem Calls.trans (h : w.Calls w' cs) (h' : w'.Calls w'' cs') : w.Calls w'' (cs ++ cs') := by
  unfold Calls at h h' ⊢
  rw [h', h, List.append_assoc]

theorem Calls.unique (h : w.Calls w' cs) (h' : w.Calls w' cs') : cs = cs' :=
  List.append_cancel_left (h.symm.trans h')

end World

namespace Run

variable {α β γ : Type} {part : World → γ} {x : Run α} {f : α → Run β}
variable {w : World} {p : HostCall → Prop}

/-! ## What is asked of the host -/

/-- Whatever the operation asks of the host is of this kind. -/
def CallsOnly (p : HostCall → Prop) (x : Run α) : Prop :=
  ∀ w : World, ∃ cs, w.Calls (x.run.run w).2 cs ∧ ∀ c ∈ cs, p c

theorem Keeps.callsOnly (h : Keeps World.hostSide x) : CallsOnly p x := by
  intro w
  refine ⟨[], World.calls_of_hostSide (h w), fun c hc => ?_⟩
  cases hc

theorem CallsOnly.bind (hx : CallsOnly p x) (hf : ∀ a, CallsOnly p (f a)) :
    CallsOnly p (x >>= f) := by
  intro w
  obtain ⟨cs, hcalls, hcs⟩ := hx w
  obtain ⟨r, w', hrun⟩ : ∃ r w', x.run.run w = (r, w') := ⟨_, _, rfl⟩
  rw [hrun] at hcalls
  rw [run_bind, hrun]
  cases r with
  | error e => exact ⟨cs, hcalls, hcs⟩
  | ok a =>
    obtain ⟨cs', hcalls', hcs'⟩ := hf a w'
    exact ⟨cs ++ cs', hcalls.trans hcalls', List.forall_mem_append.2 ⟨hcs, hcs'⟩⟩

theorem CallsOnly.forM {f : α → Run Unit} (h : ∀ a, CallsOnly p (f a)) (as : List α) :
    CallsOnly p (as.forM f) := by
  induction as with
  | nil => exact (keeps_pure ()).callsOnly
  | cons a as ih => exact (h a).bind fun _ => ih

end Run

/-- What a call comes to, by what the host answers. -/
def HostOutcome.result : HostOutcome → Except Failure Unit
  | .ok => .ok ()
  | .hostError => .error .hostError
  | .fault text => .error (.broken text)

/-- The world after a call. -/
def World.afterCall (w : World) (method : String) (c : HostCall) : World :=
  { w with
    trace := { w.trace with hostCalls := w.trace.hostCalls ++ [c] }
    host := (Run.takeOutcome method w.host).2 }

namespace Run

/-- **A call is recorded** whatever the host answers. -/
theorem run_callHost (method : String) (c : HostCall) (w : World) :
    (callHost method c).run.run w =
      ((takeOutcome method w.host).1.result, w.afterCall method c) := by
  rw [World.afterCall]
  refine (run_bind_ok rfl).trans ((run_bind_ok rfl).trans ((run_bind_ok rfl).trans ?_))
  cases (takeOutcome method w.host).1 <;> rfl

theorem callsOnly_callHost {method : String} {c : HostCall} (h : p c) :
    CallsOnly p (callHost method c) := by
  intro w
  rw [run_callHost]
  exact ⟨[c], rfl, by simpa using h⟩

/-- A call leaves alone what has nothing to do with calls. -/
theorem keeps_callHost (hpart : ∀ w method c, part (World.afterCall w method c) = part w)
    (method : String) (c : HostCall) : Keeps part (callHost method c) := by
  intro w
  rw [run_callHost, hpart]

end Run

namespace HostClient

variable {α : Type} {act : Run α} {a otherwise : α} {e : Failure} {w w' : World}
variable {p : HostCall → Prop} {repo number body commit path line : Json} {c : HostClient}

/-! ## Requests that are made up of calls -/

theorem run_onHostError_ok (h : act.run.run w = (.ok a, w')) :
    (onHostError otherwise act).run.run w = (.ok a, w') := by
  rw [onHostError, Run.run_bind, Run.run_tryCatch, Run.run_bind_ok h]
  rfl

/-- **An error that the host reports** is not passed on. -/
theorem run_onHostError_hostError (h : act.run.run w = (.error .hostError, w')) :
    (onHostError otherwise act).run.run w = (.ok otherwise, w') := by
  rw [onHostError, Run.run_bind, Run.run_tryCatch, Run.run_bind_error h]
  rfl

/-- Any other trouble is. -/
theorem run_onHostError_error (h : act.run.run w = (.error e, w')) (he : e ≠ .hostError) :
    (onHostError otherwise act).run.run w = (.error e, w') := by
  rw [onHostError, Run.run_bind, Run.run_tryCatch, Run.run_bind_error h]
  cases e with
  | hostError => exact absurd rfl he
  | _ => rfl

/-- Whether trouble is passed on or not, the world is the one it came up in. -/
theorem world_onHostError (otherwise : α) (act : Run α) (w : World) :
    ((onHostError otherwise act).run.run w).2 = (act.run.run w).2 := by
  obtain ⟨r, w', hrun⟩ : ∃ r w', act.run.run w = (r, w') := ⟨_, _, rfl⟩
  rw [hrun]
  cases r with
  | ok a => rw [run_onHostError_ok hrun]
  | error e =>
    by_cases he : e = .hostError
    · rw [run_onHostError_hostError (he ▸ hrun)]
    · rw [run_onHostError_error hrun he]

theorem callsOnly_onHostError (h : Run.CallsOnly p act) :
    Run.CallsOnly p (onHostError otherwise act) := by
  intro w
  rw [world_onHostError]
  exact h w

theorem callsOnly_openPull (hrepo : p (.getRepo repo)) (hpull : p (.getPull number)) :
    Run.CallsOnly p (openPull repo number) :=
  (Run.callsOnly_callHost hrepo).bind fun _ => Run.callsOnly_callHost hpull

theorem callsOnly_comment (hrepo : p (.getRepo repo)) (hpull : p (.getPull number))
    (hbody : p (.issueComment body)) : Run.CallsOnly p (comment repo number body) :=
  callsOnly_onHostError ((callsOnly_openPull hrepo hpull).bind fun _ =>
    (Run.callsOnly_callHost hbody).bind fun _ => (Run.keeps_pure true).callsOnly)

theorem callsOnly_commentLine (hrepo : p (.getRepo repo)) (hpull : p (.getPull number))
    (hbody : p (.reviewComment body commit path line)) :
    Run.CallsOnly p (commentLine repo number commit path line body) :=
  callsOnly_onHostError ((callsOnly_openPull hrepo hpull).bind fun _ =>
    (Run.callsOnly_callHost hbody).bind fun _ => (Run.keeps_pure true).callsOnly)

theorem callsOnly_changedFiles (hrepo : p (.getRepo repo)) (hpull : p (.getPull number))
    (hfiles : p .getFiles) : Run.CallsOnly p (changedFiles repo number) :=
  callsOnly_onHostError ((callsOnly_openPull hrepo hpull).bind fun _ =>
    (Run.callsOnly_callHost hfiles).bind fun _ => Run.Keeps.callsOnly fun _ => rfl)

/-- The files that a pull request changes, where trouble of any kind is passed on. -/
def listing (repo number : Json) : Run (List String) := do
  openPull repo number
  Run.callHost "get_files" .getFiles
  return (← get).pullFiles

theorem keeps_listing {γ : Type} {part : World → γ}
    (hpart : ∀ w method c, part (World.afterCall w method c) = part w) (repo number : Json) :
    Run.Keeps part (listing repo number) := by
  have hcall := Run.keeps_callHost hpart
  exact ((hcall _ _).bind fun _ => hcall _ _).bind fun _ => (hcall _ _).bind fun _ _ => rfl

theorem keeps_onHostError {γ : Type} {part : World → γ} (h : Run.Keeps part act) :
    Run.Keeps part (onHostError otherwise act) := by
  intro w
  rw [world_onHostError]
  exact h w

theorem keeps_changedFiles {γ : Type} {part : World → γ}
    (hpart : ∀ w method c, part (World.afterCall w method c) = part w) (repo number : Json) :
    Run.Keeps part (changedFiles repo number) :=
  keeps_onHostError (keeps_listing hpart repo number)

/-- **A listing gives the files of the pull request**, or none if the host reports an error. -/
theorem changedFiles_eq_ok {changed : List String}
    (h : (changedFiles repo number).run.run w = (.ok changed, w')) :
    ((listing repo number).run.run w = (.ok changed, w') ∧ changed = w.pullFiles) ∨
      ((listing repo number).run.run w = (.error .hostError, w') ∧ changed = []) := by
  have hlisting : changedFiles repo number = onHostError [] (listing repo number) := rfl
  obtain ⟨r, w₁, hrun⟩ : ∃ r w₁, (listing repo number).run.run w = (r, w₁) := ⟨_, _, rfl⟩
  cases r with
  | ok files =>
    rw [hlisting, run_onHostError_ok hrun] at h
    cases h
    refine Or.inl ⟨hrun, ?_⟩
    have hkeeps : Run.Keeps World.pullFiles (listing repo number) :=
      keeps_listing (fun _ _ _ => rfl) repo number
    have hkept : w'.pullFiles = w.pullFiles := by simpa [hrun] using hkeeps w
    -- the answer is read off the world in which the calls have left it
    obtain ⟨_, _, -, hrest⟩ := Run.bind_eq_ok.1 hrun
    obtain ⟨_, _, -, hlast⟩ := Run.bind_eq_ok.1 hrest
    cases hlast
    exact hkept
  | error e =>
    by_cases he : e = .hostError
    · subst he
      rw [hlisting, run_onHostError_hostError hrun] at h
      cases h
      exact Or.inr ⟨hrun, rfl⟩
    · rw [hlisting, run_onHostError_error hrun he] at h
      cases h

/-- **A comment is put on a pull request** exactly if the pull request can be looked up. -/
theorem mem_calls_comment {cs : List HostCall}
    (h : w.Calls ((comment repo number body).run.run w).2 cs) :
    .issueComment body ∈ cs ↔ ∃ w', (openPull repo number).run.run w = (.ok (), w') := by
  have hlookup : Run.CallsOnly (· ≠ .issueComment body) (openPull repo number) :=
    callsOnly_openPull nofun nofun
  obtain ⟨before, hbefore, hother⟩ := hlookup w
  rw [comment, world_onHostError] at h
  obtain ⟨r, w₁, hopen⟩ : ∃ r w₁, (openPull repo number).run.run w = (r, w₁) := ⟨_, _, rfl⟩
  rw [hopen] at hbefore ⊢
  cases r with
  | error e =>
    rw [Run.run_bind_error hopen] at h
    obtain rfl := h.unique hbefore
    refine iff_of_false (fun hmem => hother _ hmem rfl) ?_
    rintro ⟨w', hok⟩
    cases hok
  | ok u =>
    rw [Run.run_bind_ok hopen] at h
    have hposted : w₁.Calls ((do
        Run.callHost "create_issue_comment" (.issueComment body)
        return true : Run Bool).run.run w₁).2 [.issueComment body] := by
      rw [Run.run_bind, Run.run_callHost]
      cases (Run.takeOutcome "create_issue_comment" w₁.host).1 <;> rfl
    obtain rfl := h.unique (hbefore.trans hposted)
    exact iff_of_true (by simp) ⟨w₁, rfl⟩

/-! ## Cloning -/

/-- **A clone succeeds or does not**, and never fails otherwise. -/
theorem run_clone (c : HostClient) (repo dir branch : Json) (w : World) :
    ∃ w', (c.clone repo dir branch).run.run w = (.ok (w.clones.headD .ok).result.isOk, w') ∧
      w.Calls w' [.clone (c.cloneUrl repo) dir (if branch.truthy then some branch else none)] ∧
      w'.host = w.host ∧ w'.pullFiles = w.pullFiles ∧ w'.processes = w.processes := by
  obtain ⟨_, _, _, _, _, _, _, _, _, _, clones, _, _, _⟩ := w
  cases clones with
  | nil => exact ⟨_, rfl, rfl, rfl, rfl, rfl⟩
  | cons o os => cases o <;> exact ⟨_, rfl, rfl, rfl, rfl, rfl⟩

end HostClient

/-! ## Comments -/

namespace Run

variable {α β : Type} {x : Run α} {f : α → Run β} {a : α} {w w' : World} {p q : HostCall → Prop}

/-- The comments that an operation leaves, in order. -/
def comments (x : Run α) (w : World) : List HostCall :=
  ((x.run.run w).2.trace.hostCalls.drop w.trace.hostCalls.length).filter HostCall.isComment

theorem comments_eq {cs : List HostCall} (h : w.Calls (x.run.run w).2 cs) :
    comments x w = cs.filter HostCall.isComment := by
  rw [comments, h, List.drop_left]

theorem comments_of_callsOnly (h : CallsOnly (fun c => c.isComment = false) x) (w : World) :
    comments x w = [] := by
  obtain ⟨cs, hcalls, hcs⟩ := h w
  rw [comments_eq hcalls, List.filter_eq_nil_iff]
  exact fun c hc => Bool.eq_false_iff.1 (hcs c hc)

/-- **Comments come one after the other.** -/
theorem comments_bind (hx : CallsOnly p x) (hf : CallsOnly q (f a))
    (hrun : x.run.run w = (.ok a, w')) : comments (x >>= f) w = comments x w ++ comments (f a) w' := by
  obtain ⟨cs, hcalls, -⟩ := hx w
  obtain ⟨cs', hcalls', -⟩ := hf w'
  have hboth : w.Calls ((x >>= f).run.run w).2 (cs ++ cs') := by
    rw [run_bind_ok hrun]
    rw [hrun] at hcalls
    exact hcalls.trans hcalls'
  rw [comments_eq hcalls, comments_eq hcalls', comments_eq hboth, List.filter_append]

/-- What follows and has nothing to do with the host adds no comment. -/
theorem comments_bind_of_keeps (hf : ∀ a, Keeps World.hostSide (f a)) (w : World) :
    comments (x >>= f) w = comments x w := by
  rw [comments, comments, run_bind]
  rcases x.run.run w with ⟨_ | a, w'⟩
  · rfl
  · have hkept : ((f a).run.run w').2.trace.hostCalls = w'.trace.hostCalls :=
      congrArg (·.2.2.2) (hf a w')
    rw [hkept]

end Run

/-! ## A willing host -/

/-- The host takes every call. -/
def World.Willing (w : World) : Prop :=
  ∀ script ∈ w.host, ∀ o ∈ script.2, o = .ok

theorem World.willing_of_host {w w' : World} (h : w'.host = w.host) (hw : w.Willing) :
    w'.Willing := by
  unfold Willing
  rw [h]
  exact hw

/-- A willing host took these calls, and is willing still. -/
structure World.Took (w w' : World) (cs : List HostCall) : Prop where
  calls : w.Calls w' cs
  willing : w'.Willing

theorem World.Took.trans {w w' w'' : World} {cs cs' : List HostCall} (h : w.Took w' cs)
    (h' : w'.Took w'' cs') : w.Took w'' (cs ++ cs') :=
  ⟨h.calls.trans h'.calls, h'.willing⟩

theorem World.Took.comments_eq {α : Type} {x : Run α} {r : Except Failure α} {w w' : World}
    {cs : List HostCall} (h : w.Took w' cs) (hrun : x.run.run w = (r, w')) :
    Run.comments x w = cs.filter HostCall.isComment := by
  apply Run.comments_eq
  rw [hrun]
  exact h.calls

/-- The next outcome of scripts without trouble is none, and the rest of them has none either. -/
theorem Run.takeOutcome_of_willing (method : String) {scripts : List (String × List HostOutcome)}
    (h : ∀ script ∈ scripts, ∀ o ∈ script.2, o = .ok) :
    (takeOutcome method scripts).1 = .ok ∧
      ∀ script ∈ (takeOutcome method scripts).2, ∀ o ∈ script.2, o = .ok := by
  induction scripts with
  | nil => exact ⟨rfl, h⟩
  | cons script scripts ih =>
    obtain ⟨m, os⟩ := script
    obtain ⟨hos, hrest⟩ := List.forall_mem_cons.1 h
    unfold takeOutcome
    split
    · cases os with
      | nil => exact ⟨rfl, h⟩
      | cons o os =>
        obtain ⟨ho, hos⟩ := List.forall_mem_cons.1 hos
        exact ⟨ho, List.forall_mem_cons.2 ⟨hos, hrest⟩⟩
    · exact ⟨(ih hrest).1, List.forall_mem_cons.2 ⟨hos, (ih hrest).2⟩⟩

theorem Run.exists_callHost {w : World} (hw : w.Willing) (method : String) (c : HostCall) :
    ∃ w', (callHost method c).run.run w = (.ok (), w') ∧ w.Took w' [c] := by
  obtain ⟨hok, hrest⟩ := takeOutcome_of_willing method hw
  refine ⟨w.afterCall method c, ?_, rfl, hrest⟩
  rw [run_callHost, hok]
  rfl

namespace HostClient

variable {w : World}

theorem exists_openPull (hw : w.Willing) (repo number : Json) :
    ∃ w', (openPull repo number).run.run w = (.ok (), w') ∧
      w.Took w' [.getRepo repo, .getPull number] := by
  obtain ⟨w₁, hrepo, htook₁⟩ := Run.exists_callHost hw "get_repo" (.getRepo repo)
  obtain ⟨w₂, hpull, htook₂⟩ := Run.exists_callHost htook₁.willing "get_pull" (.getPull number)
  exact ⟨w₂, (Run.run_bind_ok hrepo).trans hpull, htook₁.trans htook₂⟩

/-- A pull request is looked up, something is asked of it, and the rest follows. -/
theorem exists_ask (hw : w.Willing) (repo number : Json) (method : String) (c : HostCall)
    {α : Type} (rest : Run α) :
    ∃ w', (do openPull repo number; Run.callHost method c; rest).run.run w = rest.run.run w' ∧
      w.Took w' [.getRepo repo, .getPull number, c] := by
  obtain ⟨w₁, hopen, htook₁⟩ := exists_openPull hw repo number
  obtain ⟨w₂, hcall, htook₂⟩ := Run.exists_callHost htook₁.willing method c
  exact ⟨w₂, (Run.run_bind_ok hopen).trans (Run.run_bind_ok hcall), htook₁.trans htook₂⟩

theorem exists_comment (hw : w.Willing) (repo number body : Json) :
    ∃ w', (comment repo number body).run.run w = (.ok true, w') ∧
      w.Took w' [.getRepo repo, .getPull number, .issueComment body] := by
  obtain ⟨w', hrun, htook⟩ := exists_ask hw repo number "create_issue_comment"
    (.issueComment body) (return true)
  exact ⟨w', run_onHostError_ok hrun, htook⟩

theorem exists_commentLine (hw : w.Willing) (repo number commit path line body : Json) :
    ∃ w', (commentLine repo number commit path line body).run.run w = (.ok true, w') ∧
      w.Took w' [.getRepo repo, .getPull number, .reviewComment body commit path line] := by
  obtain ⟨w', hrun, htook⟩ := exists_ask hw repo number "create_review_comment"
    (.reviewComment body commit path line) (return true)
  exact ⟨w', run_onHostError_ok hrun, htook⟩

theorem exists_changedFiles (hw : w.Willing) (repo number : Json) :
    ∃ w', (changedFiles repo number).run.run w = (.ok w.pullFiles, w') ∧
      w.Took w' [.getRepo repo, .getPull number, .getFiles] := by
  obtain ⟨w', hrun, htook⟩ := exists_ask hw repo number "get_files" .getFiles
    (do return (← get).pullFiles)
  have hlisted : (changedFiles repo number).run.run w = (.ok w'.pullFiles, w') :=
    run_onHostError_ok hrun
  obtain ⟨-, hfiles⟩ | ⟨herror, -⟩ := changedFiles_eq_ok hlisted
  · exact ⟨w', hfiles ▸ hlisted, htook⟩
  · cases hrun.symm.trans herror

end HostClient

end SecureReview
