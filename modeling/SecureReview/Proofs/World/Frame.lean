import Mathlib.Data.List.Forall2
import SecureReview.Proofs.World.Run
/-!
# What operations leave alone

An operation **keeps** a part of the world if it leaves that part as it
found it, whether it succeeds or fails; operations that are put together
of such ones keep it too. A command uses up one item of the script of
commands: `afterCommand` is the world it leaves, and it fails exactly if
the item says so (`run_process_eq`).
-/

namespace SecureReview

namespace Run

variable {α β γ : Type} {part : World → γ} {x : Run α} {f : α → Run β} {handle : Failure → Run α}
variable {w : World}

/-- The operation leaves a part of the world as it is. -/
def Keeps (part : World → γ) (x : Run α) : Prop :=
  ∀ w, part (x.run.run w).2 = part w

theorem keeps_pure (a : α) : Keeps part (pure a : Run α) :=
  fun _ => rfl

/-- Nothing comes after a failure. -/
theorem keeps_throw_bind (e : Failure) (f : α → Run β) : Keeps part ((throw e : Run α) >>= f) :=
  fun _ => rfl

theorem keeps_ofExcept (r : Except Failure α) : Keeps part (ofExcept r) := by
  intro w
  rw [run_ofExcept]

theorem keeps_files : Keeps part files :=
  fun _ => rfl

theorem Keeps.bind (hx : Keeps part x) (hf : ∀ a, Keeps part (f a)) : Keeps part (x >>= f) := by
  intro w
  obtain ⟨r, w', hrun⟩ : ∃ r w', x.run.run w = (r, w') := ⟨_, _, rfl⟩
  have hw : part w' = part w := by simpa [hrun] using hx w
  rw [run_bind, hrun]
  cases r with
  | error e => exact hw
  | ok a => exact (hf a w').trans hw

theorem Keeps.map (hx : Keeps part x) (g : α → β) : Keeps part (g <$> x) := by
  rw [map_eq_pure_bind]
  exact hx.bind fun a => keeps_pure (g a)

theorem Keeps.tryCatch (hx : Keeps part x) (hhandle : ∀ e, Keeps part (handle e)) :
    Keeps part (tryCatch x handle) := by
  intro w
  obtain ⟨r, w', hrun⟩ : ∃ r w', x.run.run w = (r, w') := ⟨_, _, rfl⟩
  have hw : part w' = part w := by simpa [hrun] using hx w
  rw [run_tryCatch, hrun]
  cases r with
  | error e => exact (hhandle e w').trans hw
  | ok a => exact hw

theorem keeps_mapM {f : α → Run β} (h : ∀ a, Keeps part (f a)) (as : List α) :
    Keeps part (as.mapM f) := by
  induction as with
  | nil => exact keeps_pure []
  | cons a as ih =>
    rw [List.mapM_cons]
    exact (h a).bind fun b => ih.bind fun bs => keeps_pure _

/-- A handler that does not fail makes an operation that does not. -/
theorem exists_tryCatch_pure (x : Run α) (a : α) (w : World) :
    ∃ b w', (tryCatch x fun _ => pure a).run.run w = (.ok b, w') := by
  rw [run_tryCatch]
  rcases x.run.run w with ⟨e | b, w'⟩
  · exact ⟨a, w', rfl⟩
  · exact ⟨b, w', rfl⟩

/-- Leaving a block early or at its end makes no difference to the world. -/
theorem keeps_runK (e : Except α α) :
    Keeps part (EarlyReturn.runK e (fun a => pure a) fun a => pure a : Run α) := by
  cases e <;> exact keeps_pure _

/-- **What is tried does not fail** if a failure only makes it leave with a value: it
leaves with this one or with one of its own. -/
theorem exists_try (x : Run (Except α α)) (a : α) (w : World) :
    ∃ b w', (tryCatch x (fun _ => pure (.error a)) >>= fun e =>
        EarlyReturn.runK e (fun b => pure b) fun b => pure b : Run α).run.run w = (.ok b, w') ∧
      (b = a ∨ ∃ e, x.run.run w = (.ok e, w') ∧ (e = .error b ∨ e = .ok b)) := by
  obtain ⟨r, w', hrun⟩ : ∃ r w', x.run.run w = (r, w') := ⟨_, _, rfl⟩
  rw [run_bind, run_tryCatch, hrun]
  cases r with
  | error e => exact ⟨a, w', rfl, Or.inl rfl⟩
  | ok b =>
    cases b with
    | error b => exact ⟨b, w', rfl, Or.inr ⟨_, rfl, Or.inl rfl⟩⟩
    | ok b => exact ⟨b, w', rfl, Or.inr ⟨_, rfl, Or.inr rfl⟩⟩

/-- What is tried and leaves with another value than that of a failure did not fail. -/
theorem try_eq_ok {x : Run (Except α α)} {a b : α} {w' : World}
    (h : (tryCatch x (fun _ => pure (.error a)) >>= fun e =>
        EarlyReturn.runK e (fun b => pure b) fun b => pure b : Run α).run.run w = (.ok b, w'))
    (hne : b ≠ a) : ∃ e, x.run.run w = (.ok e, w') ∧ (e = .error b ∨ e = .ok b) := by
  obtain ⟨b', w₁, hrun, hcases⟩ := exists_try x a w
  obtain ⟨hb, rfl⟩ := Prod.mk.inj (h.symm.trans hrun)
  obtain rfl := Except.ok.inj hb
  exact hcases.resolve_left hne

/-- The end of a run in which a failure only makes it leave with a report. -/
def reported (report : Failure → β) : Except Failure β × World → Except Failure β × World
  | (.ok b, w) => (.ok b, w)
  | (.error e, w) => (.ok (report e), w)

/-- **What is tried in two steps** does not fail if a failure only makes it leave with a report. -/
theorem run_try_report {x : Run α} {y : Run β} {handle : Failure → Run (Except β β)}
    {report : Failure → β} (hhandle : ∀ e, handle e = pure (.error (report e))) (w : World) :
    (tryCatch (x >>= fun _ => y >>= fun b => pure (.ok b)) handle >>= fun e =>
        EarlyReturn.runK e (fun b => pure b) fun b => pure b : Run β).run.run w =
      reported report ((x >>= fun _ => y).run.run w) := by
  rw [run_bind, run_tryCatch]
  rcases hx : x.run.run w with ⟨e | a, w₁⟩
  · rw [run_bind_error hx, run_bind_error hx]
    simp only [hhandle]
    rfl
  · rw [run_bind_ok hx, run_bind_ok hx]
    rcases hy : y.run.run w₁ with ⟨e | b, w₂⟩
    · rw [run_bind_error hy]
      simp only [hhandle]
      rfl
    · rw [run_bind_ok hy]
      rfl

/-- **One operation for each item of a list.** If none can fail, all are done,
and what each of them leaves alone is left alone by all. -/
theorem exists_mapM (part : World → γ) {f : α → Run β} {related : α → β → Prop} {as : List α}
    (h : ∀ a ∈ as, ∀ w, ∃ b w', (f a).run.run w = (.ok b, w') ∧ related a b ∧ part w' = part w)
    (w : World) :
    ∃ bs w', (as.mapM f).run.run w = (.ok bs, w') ∧ List.Forall₂ related as bs ∧
      part w' = part w := by
  induction as generalizing w with
  | nil => exact ⟨[], w, rfl, .nil, rfl⟩
  | cons a as ih =>
    obtain ⟨ha, has⟩ := List.forall_mem_cons.1 h
    obtain ⟨b, w₁, hb, hrelated, hpart⟩ := ha w
    obtain ⟨bs, w₂, hbs, hall, hparts⟩ := ih has w₁
    refine ⟨b :: bs, w₂, ?_, .cons hrelated hall, hparts.trans hpart⟩
    rw [List.mapM_cons, run_bind_ok hb, run_bind_ok hbs, run_pure]

/-- The same of readings that need no world. -/
theorem exists_except_mapM {g : α → Except Failure β} {related : α → β → Prop} {as : List α}
    (h : ∀ a ∈ as, ∃ b, g a = .ok b ∧ related a b) :
    ∃ bs, as.mapM g = .ok bs ∧ List.Forall₂ related as bs := by
  induction as with
  | nil => exact ⟨[], rfl, .nil⟩
  | cons a as ih =>
    obtain ⟨⟨b, hb, hrelated⟩, has⟩ := List.forall_mem_cons.1 h
    obtain ⟨bs, hbs, hall⟩ := ih has
    refine ⟨b :: bs, ?_, .cons hrelated hall⟩
    rw [List.mapM_cons, hb, hbs]
    rfl

end Run

/-- The part of the world that commands and files make up. -/
def World.surroundings (w : World) : Settings × Files × List ProcessScript :=
  (w.settings, w.files, w.processes)

theorem Run.keeps_parseSource : Keeps World.surroundings parseSource := by
  intro w
  obtain ⟨_, _, _, _, _, trees, _, _, _, _, _, _, _, _⟩ := w
  cases trees with
  | nil => rfl
  | cons tree trees => cases tree <;> rfl

/-! ## Commands -/

/-- What happens when the next command is run. There are no more tools once the
script is used up. -/
def World.nextScript (w : World) : ProcessScript :=
  w.processes.headD { fault := some .missing }

/-- The files after a command has written its own. -/
def ProcessScript.writeTo (p : ProcessScript) (fs : Files) : Files :=
  p.writes.foldl (fun fs e => fs.put e.1 (Text.encodeUtf8 e.2)) fs

/-- The world after a command. -/
def World.afterCommand (w : World) (c : Command) : World :=
  { w with
    trace := { w.trace with commands := w.trace.commands ++ [c] }
    processes := w.processes.tail
    files := w.nextScript.writeTo w.files }

/-- How a command fails. -/
def ProcessFault.failure (c : Command) : ProcessFault → Failure
  | .missing => .noFile (c.words.headD "")
  | .timeout => .timedOut c.words (c.timeout.getD 0)
  | .other text => .broken text

/-- What a command comes to. -/
def ProcessScript.result (c : Command) (p : ProcessScript) : Except Failure Finished :=
  match p.fault with
  | some fault => .error (fault.failure c)
  | none =>
    if c.check && p.code != 0 then .error (.exited c.words p.code)
    else .ok ⟨p.stdout, p.stderr, p.code⟩

namespace Run

variable {w : World} {c : Command}

/-- **A command does what the next item of the script says.** -/
theorem run_process_eq (c : Command) (w : World) :
    (process c).run.run w = (w.nextScript.result c, w.afterCommand c) := by
  obtain ⟨_, _, _, processes, _, _, _, _, _, _, _, _, _, _⟩ := w
  rcases processes with _ | ⟨⟨stdout, stderr, code, writes, fault⟩, ps⟩
  · rfl
  · rcases fault with _ | _ | _ | _
    · -- the exit code counts only where it is checked
      refine (run_bind_ok rfl).trans ((run_bind_ok rfl).trans ((run_bind_ok rfl).trans ?_))
      by_cases hexit : (c.check && code != 0) = true
      · have hresult : ProcessScript.result c ⟨stdout, stderr, code, writes, none⟩ =
            .error (.exited c.words code) := if_pos hexit
        simp only [World.nextScript, List.headD_cons, hresult, if_pos hexit]
        rfl
      · have hresult : ProcessScript.result c ⟨stdout, stderr, code, writes, none⟩ =
            .ok ⟨stdout, stderr, code⟩ := if_neg hexit
        simp only [World.nextScript, List.headD_cons, hresult, if_neg hexit]
        rfl
    · rfl
    · rfl
    · rfl

/-- A command that may exit with any code prints what the script says. -/
theorem run_process (hcheck : c.check = false) (hfault : w.nextScript.fault = none) :
    (process c).run.run w =
      (.ok ⟨w.nextScript.stdout, w.nextScript.stderr, w.nextScript.code⟩, w.afterCommand c) := by
  rw [run_process_eq, ProcessScript.result, hfault, hcheck]
  rfl

/-- **A command fails** if the script says so, by what the script says. -/
theorem run_process_error {fault : ProcessFault} (hfault : w.nextScript.fault = some fault) :
    (process c).run.run w = (.error (fault.failure c), w.afterCommand c) := by
  rw [run_process_eq, ProcessScript.result, hfault]

end Run

end SecureReview
