import SecureReview.World.Basic
/-!
# Running operations

How a composed operation runs in a world: one lemma for each way of
putting operations together, so that no later proof opens the monad. The
inversion `bind_eq_ok` takes a successful run apart, and `ask_eq_ok`
says what the model must have replied.
-/

namespace SecureReview

namespace Run

variable {α β : Type} {x : Run α} {f : α → Run β} {handle : Failure → Run α}
variable {w w' w'' : World} {a : α} {b : β} {e : Failure} {r : Except Failure α}

@[simp] theorem run_pure : (pure a : Run α).run.run w = (.ok a, w) := rfl

@[simp] theorem run_throw : (throw e : Run α).run.run w = (.error e, w) := rfl

@[simp] theorem run_files : files.run.run w = (.ok w.files, w) := rfl

@[simp] theorem run_ofExcept : (ofExcept r).run.run w = (r, w) := by
  cases r <;> rfl

theorem run_bind : (x >>= f).run.run w =
    match x.run.run w with
    | (.ok a, w') => (f a).run.run w'
    | (.error e, w') => (.error e, w') := by
  change (match x.run.run w with
    | (r, w') => (ExceptT.bindCont f r).run w') = _
  rcases x.run.run w with ⟨_ | _, _⟩ <;> rfl

/-- After a success the operation goes on in the world it left. -/
theorem run_bind_ok (h : x.run.run w = (.ok a, w')) :
    (x >>= f).run.run w = (f a).run.run w' := by
  rw [run_bind, h]

/-- After a failure it does not go on. -/
theorem run_bind_error (h : x.run.run w = (.error e, w')) :
    (x >>= f).run.run w = (.error e, w') := by
  rw [run_bind, h]

/-- **A composed operation succeeds when both parts do.** -/
theorem bind_eq_ok : (x >>= f).run.run w = (.ok b, w'') ↔
    ∃ a w', x.run.run w = (.ok a, w') ∧ (f a).run.run w' = (.ok b, w'') := by
  constructor
  · intro h
    rw [run_bind] at h
    split at h
    · next a w' hx => exact ⟨a, w', hx, h⟩
    · cases h
  · rintro ⟨a, w', hx, hf⟩
    rw [run_bind_ok hx, hf]

theorem map_eq_ok {g : α → β} :
    (g <$> x).run.run w = (.ok b, w') ↔ ∃ a, x.run.run w = (.ok a, w') ∧ g a = b := by
  rw [map_eq_pure_bind, bind_eq_ok]
  constructor
  · rintro ⟨a, w₁, hx, hpure⟩
    obtain ⟨hb, rfl⟩ := Prod.mk.inj hpure
    exact ⟨a, hx, Except.ok.inj hb⟩
  · rintro ⟨a, hx, rfl⟩
    exact ⟨a, w', hx, rfl⟩

theorem except_ok_bind {g : α → Except Failure β} : (.ok a >>= g) = g a := rfl

/-- The same of readings that need no world. -/
theorem except_bind_eq_ok {y : Except Failure α} {g : α → Except Failure β} :
    (y >>= g) = .ok b ↔ ∃ a, y = .ok a ∧ g a = .ok b := by
  cases y <;> simp [Bind.bind, Except.bind]

theorem except_toOption_eq_some {y : Except Failure α} : y.toOption = some a ↔ y = .ok a := by
  cases y <;> simp [Except.toOption]

/-- A reading of every item succeeds if each of them does. -/
theorem except_mapM_isOk (g : α → Except Failure β) (as : List α) :
    (as.mapM g).isOk = as.all fun a => (g a).isOk := by
  induction as with
  | nil => rfl
  | cons a as ih =>
    rw [List.all_cons, ← ih, List.mapM_cons]
    cases g a with
    | error e => rfl
    | ok b => cases as.mapM g <;> rfl

theorem except_mapM_eq_ok {g : α → Except Failure β} {f : α → β} {as : List α}
    (h : ∀ a ∈ as, g a = .ok (f a)) : as.mapM g = .ok (as.map f) := by
  induction as with
  | nil => rfl
  | cons a as ih =>
    obtain ⟨ha, has⟩ := List.forall_mem_cons.1 h
    rw [List.mapM_cons, ha, ih has]
    rfl

/-- If items fail, and all in the same way, so does the whole. -/
theorem except_mapM_eq_error {g : α → Except Failure β} {as : List α}
    (h : ∀ a ∈ as, (∃ b, g a = .ok b) ∨ g a = .error e) (hex : ∃ a ∈ as, g a = .error e) :
    as.mapM g = .error e := by
  induction as with
  | nil =>
    obtain ⟨a, ha, -⟩ := hex
    cases ha
  | cons a as ih =>
    obtain ⟨ha, has⟩ := List.forall_mem_cons.1 h
    rw [List.mapM_cons]
    rcases ha with ⟨b, hb⟩ | ha
    · -- the failing item comes later
      obtain ⟨a', ha', hfails⟩ := hex
      rcases List.mem_cons.1 ha' with rfl | ha'
      · rw [hb] at hfails
        cases hfails
      · rw [hb, ih has ⟨a', ha', hfails⟩]
        rfl
    · rw [ha]
      rfl

theorem ofExcept_eq_ok : (ofExcept r).run.run w = (.ok a, w') ↔ r = .ok a ∧ w = w' := by
  rw [run_ofExcept, Prod.mk.injEq]

theorem run_tryCatch : (tryCatch x handle).run.run w =
    match x.run.run w with
    | (.ok a, w') => (.ok a, w')
    | (.error e, w') => (handle e).run.run w' := by
  simp only [tryCatch, tryCatchThe, MonadExceptOf.tryCatch, ExceptT.tryCatch, ExceptT.run_mk,
    StateT.run_bind]
  obtain ⟨r, w', hx⟩ : ∃ r w', x.run.run w = (r, w') := ⟨_, _, rfl⟩
  rw [hx, show StateT.run x w = (r, w') from hx]
  cases r <;> rfl

/-! ## What a reading gives -/

/-- What a reading gives, if it gives anything, has a property. -/
def Gives (P : β → Prop) (y : Except Failure β) : Prop :=
  ∀ b, y = .ok b → P b

namespace Gives

variable {P : β → Prop} {Q : α → Prop} {y z : Except Failure β}

theorem ok (h : P b) : Gives P (.ok b) := by
  intro b' hb
  rwa [← Except.ok.inj hb]

/-- What is given first may be used for the rest. -/
theorem bind_of {x : Except Failure α} {g : α → Except Failure β} (hx : Gives Q x)
    (hg : ∀ a, Q a → Gives P (g a)) : Gives P (x >>= g) := by
  intro b hb
  obtain ⟨a, ha, hb⟩ := except_bind_eq_ok.1 hb
  exact hg a (hx a ha) b hb

theorem bind {x : Except Failure α} {g : α → Except Failure β} (hg : ∀ a, Gives P (g a)) :
    Gives P (x >>= g) :=
  bind_of (fun _ _ => trivial) fun a (_ : True) => hg a

theorem ite {c : Prop} [Decidable c] (hy : Gives P y) (hz : Gives P z) :
    Gives P (if c then y else z) := by
  split
  · exact hy
  · exact hz

/-- Of every item the same is given. -/
theorem mapM {g : α → Except Failure β} (hg : ∀ a, Gives P (g a)) (as : List α) :
    Gives (fun bs => ∀ b ∈ bs, P b) (as.mapM g) := by
  induction as with
  | nil =>
    rw [List.mapM_nil]
    exact ok (List.forall_mem_nil P)
  | cons a as ih =>
    rw [List.mapM_cons]
    exact bind_of (hg a) fun b hb => bind_of ih fun bs hbs => ok (List.forall_mem_cons.2 ⟨hb, hbs⟩)

end Gives

/-! ## Replies of the model -/

variable {q : ModelRequest} {text : Option String} {sent received : Int}

/-- The model answers with the next reply of the script. -/
theorem ask_eq_ok (h : (ask q).run.run w = (.ok (text, sent, received), w')) :
    ∃ rest, w.replies = .content text sent received :: rest := by
  obtain ⟨_, _, _, _, replies, _, _, _, _, _, _, _, _, _⟩ := w
  match replies, h with
  | .content _ _ _ :: rest, h =>
    obtain ⟨hreply, -⟩ := Prod.mk.inj h
    cases hreply
    exact ⟨rest, rfl⟩

/-- A reply with content is handed on. -/
theorem ask_of_content {rest : List ModelReply}
    (h : w.replies = .content text sent received :: rest) :
    ∃ w', (ask q).run.run w = (.ok (text, sent, received), w') := by
  obtain ⟨_, _, _, _, replies, _, _, _, _, _, _, _, _, _⟩ := w
  obtain rfl : replies = _ := h
  exact ⟨_, rfl⟩

/-- **A fault of the model is a failure with its text.** -/
theorem ask_of_fault {fault : String} {rest : List ModelReply} (h : w.replies = .fault fault :: rest) :
    ∃ w', (ask q).run.run w = (.error (.broken fault), w') := by
  obtain ⟨_, _, _, _, replies, _, _, _, _, _, _, _, _, _⟩ := w
  obtain rfl : replies = _ := h
  exact ⟨_, rfl⟩

end Run

end SecureReview
