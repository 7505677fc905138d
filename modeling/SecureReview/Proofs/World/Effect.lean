import SecureReview.Failure
/-!
# Running operations on a state

How a composed operation runs on a state: one lemma for each way of
putting operations together, so that no later proof opens the monad.
-/

namespace SecureReview.Effect

variable {σ α β : Type} {x : Effect σ α} {f : α → Effect σ β}
variable {s s' : σ} {a : α} {e : Failure} {r : Except Failure α}

@[simp] theorem run_pure : (pure a : Effect σ α).run.run s = (.ok a, s) := rfl

@[simp] theorem run_throw : (throw e : Effect σ α).run.run s = (.error e, s) := rfl

@[simp] theorem run_ofExcept : (ofExcept r : Effect σ α).run.run s = (r, s) := by
  cases r <;> rfl

theorem run_bind : (x >>= f).run.run s =
    match x.run.run s with
    | (.ok a, s') => (f a).run.run s'
    | (.error e, s') => (.error e, s') := by
  change (match x.run.run s with
    | (r, s') => (ExceptT.bindCont f r).run s') = _
  rcases x.run.run s with ⟨_ | _, _⟩ <;> rfl

/-- After a success the operation goes on with the state it left. -/
theorem run_bind_ok (h : x.run.run s = (.ok a, s')) :
    (x >>= f).run.run s = (f a).run.run s' := by
  rw [run_bind, h]

/-- After a failure it does not go on. -/
theorem run_bind_error (h : x.run.run s = (.error e, s')) :
    (x >>= f).run.run s = (.error e, s') := by
  rw [run_bind, h]

/-- A reading leaves the state alone. -/
theorem run_ofExcept_bind_ok (h : r = .ok a) :
    (ofExcept r >>= f).run.run s = (f a).run.run s :=
  run_bind_ok (by rw [run_ofExcept, h])

theorem run_ofExcept_bind_error (h : r = .error e) :
    (ofExcept r >>= f).run.run s = (.error e, s) :=
  run_bind_error (by rw [run_ofExcept, h])

/-- A failure is handled in the state that it left. -/
theorem run_tryCatch {handle : Failure → Effect σ α} : (tryCatch x handle).run.run s =
    match x.run.run s with
    | (.ok a, s') => (.ok a, s')
    | (.error e, s') => (handle e).run.run s' := by
  simp only [tryCatch, tryCatchThe, MonadExceptOf.tryCatch, ExceptT.tryCatch, ExceptT.run_mk,
    StateT.run_bind]
  obtain ⟨r, s', hx⟩ : ∃ r s', x.run.run s = (r, s') := ⟨_, _, rfl⟩
  rw [hx, show StateT.run x s = (r, s') from hx]
  cases r <;> rfl

theorem run_get_bind {f : σ → Effect σ β} : (get >>= f).run.run s = (f s).run.run s := rfl

end SecureReview.Effect
