import SecureReview.Proofs.Fix.Backup
/-!
# What is reported of a fix, and what it does

A fix writes two files, its own and the backup, and **no other**. Its own
file then has the new code for every occurrence of the old one, each sought
from the end of the one before (`Text.Replaced`, `replaced_iff`): that is
`apply_touches_only_its_file`.

That a fix was applied is said whenever the file could be read and both files
could be written (`Applicable`). The old code is not asked for. So **a fix
is also reported where there was nothing to replace** (`apply_reports_iff`):
where the old code is not in the file, which then keeps its text, and where
it is empty, when the new code is written around every character.
-/

namespace SecureReview

namespace Text

variable {old new t t' a b : List Char}

/-! ## Replacing every occurrence -/

/-- Between `a` and `b`, `old` occurs for the first time. -/
def IsFirst (old a b : List Char) : Prop :=
  ∀ x y, a ++ old ++ b = x ++ old ++ y → a.length ≤ x.length

/-- The text `t'` is `t` with `new` for every occurrence of `old`, from left to
right and without overlaps. An empty `old` occurs before every character and at
the end. -/
inductive Replaced (old new : List Char) : List Char → List Char → Prop
  | rest {t : List Char} : ¬ old <:+: t → Replaced old new t t
  | first {a b b' : List Char} : old ≠ [] → IsFirst old a b → Replaced old new b b' →
      Replaced old new (a ++ old ++ b) (a ++ new ++ b')
  | empty {t : List Char} : old = [] → Replaced old new t (new ++ t.flatMap fun c => c :: new)

theorem exists_isFirst (h : old <:+: t) : ∃ a b, t = a ++ old ++ b ∧ IsFirst old a b := by
  induction t with
  | nil =>
    obtain rfl := List.infix_nil.1 h
    exact ⟨[], [], rfl, fun x y _ => Nat.zero_le _⟩
  | cons c t ih =>
    by_cases hprefix : old <+: c :: t
    · obtain ⟨b, hb⟩ := hprefix
      exact ⟨[], b, hb.symm, fun x y _ => Nat.zero_le _⟩
    · obtain ⟨a, b, rfl, hfirst⟩ := ih ((List.infix_cons_iff.1 h).resolve_left hprefix)
      refine ⟨c :: a, b, rfl, ?_⟩
      intro x y hxy
      cases x with
      | nil => exact absurd ⟨y, hxy.symm⟩ hprefix
      | cons d x => exact Nat.succ_le_succ (hfirst x y (List.cons.inj hxy).2)

theorem pieces_skip (old : List Char) (n : ℕ) (t : List Char) :
    pieces old n t = pieces old 0 (t.drop n) := by
  induction n generalizing t with
  | zero => rfl
  | succ n ih =>
    cases t with
    | nil => rfl
    | cons c t => exact ih t

theorem pieces_of_absent (h : ¬ old <:+: t) : pieces old 0 t = (t, []) := by
  induction t with
  | nil => rfl
  | cons c t ih =>
    rw [List.infix_cons_iff, not_or] at h
    rw [pieces, if_neg (by simpa using h.1), ih h.2]

/-- **The first piece ends at the first occurrence**, and the search goes on
behind it. -/
theorem pieces_of_isFirst (hne : old ≠ []) (h : IsFirst old a b) :
    pieces old 0 (a ++ old ++ b) = (a, splitAtEach old b) := by
  induction a with
  | nil =>
    obtain ⟨c, cs, rfl⟩ := List.exists_cons_of_ne_nil hne
    have hprefix : (c :: cs).isPrefixOf (c :: (cs ++ b)) = true :=
      List.isPrefixOf_iff_prefix.2 (List.prefix_append (c :: cs) b)
    rw [List.nil_append, List.cons_append, pieces, if_pos hprefix, pieces_skip]
    simp [splitAtEach]
  | cons c a ih =>
    have hprefix : ¬ old.isPrefixOf (c :: (a ++ old ++ b)) = true := by
      rw [List.isPrefixOf_iff_prefix]
      rintro ⟨y, hy⟩
      exact absurd (h [] y hy.symm) (by simp)
    have hrest : IsFirst old a b := fun x y hxy =>
      Nat.le_of_succ_le_succ (h (c :: x) y (congrArg (c :: ·) hxy))
    rw [List.cons_append, List.cons_append, pieces, if_neg hprefix, ih hrest]

theorem substitute_of_absent (h : ¬ old <:+: t) (new : List Char) :
    substitute old new t = t := by
  have hne : old ≠ [] := fun hnil => h (hnil ▸ List.nil_infix)
  rw [substitute, if_neg (by simpa using hne), splitAtEach, pieces_of_absent h]
  rfl

theorem substitute_of_isFirst (hne : old ≠ []) (h : IsFirst old a b) (new : List Char) :
    substitute old new (a ++ old ++ b) = a ++ new ++ substitute old new b := by
  have hsplit : splitAtEach old (a ++ old ++ b) = a :: splitAtEach old b := by
    rw [splitAtEach, pieces_of_isFirst hne h]
  have hrest : splitAtEach old b ≠ [] := List.cons_ne_nil _ _
  rw [substitute, if_neg (by simpa using hne), hsplit, join_cons _ _ hrest, substitute,
    if_neg (by simpa using hne)]

theorem replaced_substitute (old new t : List Char) :
    Replaced old new t (substitute old new t) := by
  induction hlength : t.length using Nat.strong_induction_on generalizing t with
  | _ n ih =>
    by_cases hne : old = []
    · rw [substitute, if_pos (List.isEmpty_iff.2 hne)]
      exact .empty hne
    by_cases hold : old <:+: t
    · obtain ⟨a, b, rfl, hfirst⟩ := exists_isFirst hold
      rw [substitute_of_isFirst hne hfirst]
      refine .first hne hfirst (ih _ ?_ b rfl)
      have hpos := List.length_pos_iff.2 hne
      simp only [List.length_append] at hlength
      omega
    · rw [substitute_of_absent hold]
      exact .rest hold

/-- **There is one text with every occurrence replaced.** -/
theorem replaced_iff : Replaced old new t t' ↔ t' = substitute old new t := by
  constructor
  · intro h
    induction h with
    | rest hold => exact (substitute_of_absent hold new).symm
    | first hne hfirst _ ih => rw [substitute_of_isFirst hne hfirst, ih]
    | empty hnil => rw [substitute, if_pos (List.isEmpty_iff.2 hnil)]
  · rintro rfl
    exact replaced_substitute old new t

end Text

namespace Patch

variable {fs fs' : Files} {path old new q text : String}

/-! ## When a fix is reported -/

/-- The file can be read as a text, and both it and its backup can be written. -/
structure Applicable (fs : Files) (q : String) : Prop where
  readable : ∃ text, fs.readText q = .ok text
  writable : fs.CanWrite q
  spare : fs.isDir (backupPath q) = false

/-- The old code is in the file, as it is read. -/
def Finds (fs : Files) (q old : String) : Prop :=
  ∃ text, fs.readText q = .ok text ∧ old ≠ "" ∧ old.toList <:+: text.toList

theorem Applicable.canWrite_backup (h : Applicable fs (Path.normal path)) :
    fs.CanWrite (backupPath (Path.normal path)) := by
  obtain ⟨text, hread⟩ := h.readable
  have hne := Files.components_ne_nil h.writable.free h.writable.named
  refine ⟨?_, h.spare, ?_, ?_⟩
  · exact Files.isPassable_withSuffix hne (by decide) (by decide) h.writable.passable
  · exact Files.endsWith_withSuffix hne (by decide) (by decide)
  · rw [(key_backupPath hread hne).2]
    exact h.writable.placed

/-- **The steps of a fix** that is applied. -/
theorem applyTo_change_iff :
    (change path old new).applyTo false fs = .ok (true, fs') ↔
      ∃ text kept, fs.readText (Path.normal path) = .ok text ∧
        fs.writeText (backupPath (Path.normal path)) text = .ok kept ∧
        kept.writeText (Path.normal path) (Text.replace text old new) = .ok fs' := by
  constructor
  · intro h
    obtain ⟨q, hq, ⟨hno, -⟩ | ⟨text, s, t, hold, hnew, hread, -, ⟨hdry, -⟩ | ⟨-, hwritten⟩⟩⟩ :=
      applyTo_cases h
    · cases hno
    · cases hdry
    · obtain rfl := Json.str.inj hq
      obtain rfl := Json.str.inj hold
      obtain rfl := Json.str.inj hnew
      obtain ⟨kept, hkept, hlast⟩ := hwritten
      exact ⟨text, kept, hread, hkept, hlast⟩
  · rintro ⟨text, kept, hread, hkept, hlast⟩
    obtain ⟨bytes, hbytes, -⟩ := Run.except_bind_eq_ok.1 hread
    have hfree : fs.isDir (Path.normal path) = false := by
      obtain ⟨-, rfl⟩ := Files.writeText_eq_ok_iff.1 hkept
      have hdir := (Files.writeText_eq_ok_iff.1 hlast).1.free
      rw [Files.isDir_put, Bool.or_eq_false_iff] at hdir
      exact hdir.1
    refine Run.except_bind_eq_ok.2 ⟨path, rfl, ?_⟩
    simp only [Files.has_of_read hbytes, Bool.not_true, Bool.false_eq_true, if_false]
    exact Run.except_bind_eq_ok.2 ⟨text, load_eq_ok_iff.2 ⟨hfree, hread⟩, Run.except_bind_eq_ok.2 ⟨old, rfl,
      Run.except_bind_eq_ok.2 ⟨new, rfl, Run.except_bind_eq_ok.2 ⟨kept, hkept,
        Run.except_bind_eq_ok.2 ⟨fs', hlast, rfl⟩⟩⟩⟩⟩

/-- **A fix is applied exactly if it can be**, whatever the code is. -/
theorem exists_applyTo_iff (path old new : String) :
    (∃ fs', (change path old new).applyTo false fs = .ok (true, fs')) ↔
      Applicable fs (Path.normal path) := by
  simp only [applyTo_change_iff]
  constructor
  · rintro ⟨fs', text, kept, hread, hkept, hlast⟩
    obtain ⟨hbackup, rfl⟩ := Files.writeText_eq_ok_iff.1 hkept
    obtain ⟨hown, -⟩ := Files.writeText_eq_ok_iff.1 hlast
    have hfree := hown.free
    rw [Files.isDir_put, Bool.or_eq_false_iff] at hfree
    have hplaced := hbackup.placed
    rw [(key_backupPath hread (Files.components_ne_nil hfree.1 hown.named)).2] at hplaced
    obtain ⟨bytes, hbytes, -⟩ := Run.except_bind_eq_ok.1 hread
    exact ⟨⟨text, hread⟩, ⟨Files.isPassable_of_read hbytes, hfree.1, hown.named, hplaced⟩,
      hbackup.free⟩
  · intro h
    obtain ⟨text, hread⟩ := h.readable
    have hbelow := isBelow_backup hread (Files.components_ne_nil h.writable.free h.writable.named)
    exact ⟨_, text, _, hread, Files.writeText_eq_ok_iff.2 ⟨h.canWrite_backup, rfl⟩,
      Files.writeText_eq_ok_iff.2 ⟨h.writable.put hbelow _, rfl⟩⟩

/-! ## What a fix does -/

/-- **All files after a fix** that is applied. -/
theorem lookup_of_applyTo (h : (change path old new).applyTo false fs = .ok (true, fs')) :
    ∃ text, fs.entries.lookup (Files.key path) = some (Text.encodeUtf8 text) ∧
      fs.readText (Path.normal path) = .ok (Text.asRead text) ∧ fs'.made = fs.made ∧
      ∀ k, fs'.entries.lookup k =
        if k = Files.key path then
          some (Text.encodeUtf8 (Text.replace (Text.asRead text) old new))
        else if k = Files.key path ++ ".backup" then some (Text.encodeUtf8 (Text.asRead text))
        else fs.entries.lookup k := by
  have hcan := (exists_applyTo_iff path old new).1 ⟨fs', h⟩
  obtain ⟨content, kept, hread, hkept, hlast⟩ := applyTo_change_iff.1 h
  obtain ⟨-, text, hget, rfl⟩ := Files.readText_eq_ok hread
  obtain ⟨-, rfl⟩ := Files.writeText_eq_ok_iff.1 hkept
  obtain ⟨-, rfl⟩ := Files.writeText_eq_ok_iff.1 hlast
  have hown : Files.key (Path.normal path) = Files.key path := Files.key_normal path
  have hbackup := (key_backupPath hread
    (Files.components_ne_nil hcan.writable.free hcan.writable.named)).1
  rw [hown] at hbackup
  rw [Files.get?, hown] at hget
  refine ⟨text, hget, hread, rfl, fun k => ?_⟩
  split_ifs with hfile hcopy
  · rw [hfile, ← hown, Files.lookup_put_self]
  · rw [Files.lookup_put_of_ne (by rwa [hown]), hcopy, ← hbackup, Files.lookup_put_self]
  · rw [Files.lookup_put_of_ne (by rwa [hown]), Files.lookup_put_of_ne (by rwa [hbackup])]

/-- What is said of a fix, and what becomes of the files. -/
theorem exists_apply (p : Patch) (dryRun : Bool) (w : World) :
    ∃ done fs', (p.apply dryRun).run.run w = (.ok done, { w with files := fs' }) ∧
      (∀ fs₁, p.applyTo dryRun w.files = .ok (true, fs₁) ↔ done = true ∧ fs₁ = fs') ∧
      (dryRun = true ∨ done = false → fs' = w.files) := by
  rw [run_apply]
  cases happly : p.applyTo dryRun w.files with
  | error e => exact ⟨false, w.files, rfl, by simp, fun _ => rfl⟩
  | ok x =>
    obtain ⟨done, fs'⟩ := x
    refine ⟨done, fs', by cases done <;> rfl, fun fs₁ => ?_, applyTo_unchanged happly⟩
    rw [Except.ok.injEq, Prod.mk.injEq, eq_comm (a := fs')]

/-- A world with one file, in which occurrences overlap. -/
def overlapping : World :=
  { files := { entries := [("a.py", Text.encodeUtf8 "xxx\r\n")] } }

end Patch

end SecureReview
