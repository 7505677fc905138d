import SecureReview.Fix.Patch
import SecureReview.Proofs.World.Files
/-!
# What a backup holds

A patch that is carried out leaves two files: the patched one, and beside it
the text that was read from it (`applyTo_eq_ok`). The next patch of the same
file writes the backup again, from the text as it is then. So after a series
of patches **the backup holds what was there before the last of them, as it
was read** (`lookup_backup`). It is the original exactly if that has no
carriage return and the patches before the last, if there are any, have left
it as it was (`backup_restores_iff`).
-/

namespace SecureReview.Patch

variable {p : Patch} {patches : List Patch} {fs fs' kept : Files} {w w' : World} {done : List Bool}
  {k q text : String} {bytes : List UInt8}

/-- What a patch comes to if one that breaks off has done nothing. -/
def applyTo (p : Patch) (dryRun : Bool) (fs : Files) : Except Failure (Bool × Files) := do
  let path := Path.normal (← FixEngine.pathText p.filePath)
  if !fs.has path then return (false, fs)
  let content ← load fs path
  let old ← textArgument 1 p.oldCode
  let new ← textArgument 2 p.fixedCode
  if dryRun then return (true, fs)
  let fs ← fs.writeText (backupPath path) content
  let fs ← fs.writeText path (Text.replace content old new)
  return (true, fs)

/-- The patch is for the file with this name. -/
def IsOn (p : Patch) (k : String) : Prop :=
  ∃ q, p.filePath = .str q ∧ Files.key q = k

/-- The text that a patch makes of a text. -/
def edit (p : Patch) (text : String) : String :=
  match p.oldCode, p.fixedCode with
  | .str old, .str new => Text.replace text old new
  | _, _ => text

/-- The text of a file after patches, each of which reads what the one before
has written. -/
def rewrite (patches : List Patch) (text : String) : String :=
  patches.foldl (fun t p => p.edit (Text.asRead t)) text

/-- Carry out patches one after the other. -/
def applyEach (patches : List Patch) : Run (List Bool) :=
  patches.mapM fun p => p.apply false

/-! ## One patch -/

theorem textArgument_eq_ok {n : ℕ} {v : Json} {s : String} (h : textArgument n v = .ok s) :
    v = .str s := by
  cases v <;> simp_all [textArgument]

theorem pathText_eq_ok {v : Json} {s : String} (h : FixEngine.pathText v = .ok s) : v = .str s := by
  cases v <;> simp_all [FixEngine.pathText]

theorem load_eq_ok_iff : load fs q = .ok text ↔ fs.isDir q = false ∧ fs.readText q = .ok text := by
  rw [load]
  cases fs.isDir q <;> simp

/-- **All that a patch can do**: find no file, read it, or read it and write
it and the backup. -/
theorem applyTo_cases {dryRun applied : Bool} (h : p.applyTo dryRun fs = .ok (applied, fs')) :
    ∃ q, p.filePath = .str q ∧
      (applied = false ∧ fs' = fs ∨
        ∃ read old new, p.oldCode = .str old ∧ p.fixedCode = .str new ∧
          fs.readText (Path.normal q) = .ok read ∧ applied = true ∧
          (dryRun = true ∧ fs' = fs ∨
            dryRun = false ∧ ∃ kept, fs.writeText (backupPath (Path.normal q)) read = .ok kept ∧
              kept.writeText (Path.normal q) (Text.replace read old new) = .ok fs')) := by
  obtain ⟨q, hq, h⟩ := Run.except_bind_eq_ok.1 h
  refine ⟨q, pathText_eq_ok hq, ?_⟩
  by_cases hhas : (!fs.has (Path.normal q)) = true
  · rw [if_pos hhas] at h
    obtain ⟨rfl, rfl⟩ := Prod.mk.inj (Except.ok.inj h)
    exact Or.inl ⟨rfl, rfl⟩
  rw [if_neg hhas] at h
  obtain ⟨read, hload, h⟩ := Run.except_bind_eq_ok.1 h
  have hread := (load_eq_ok_iff.1 hload).2
  obtain ⟨old, hold, h⟩ := Run.except_bind_eq_ok.1 h
  obtain ⟨new, hnew, h⟩ := Run.except_bind_eq_ok.1 h
  have hold := textArgument_eq_ok hold
  have hnew := textArgument_eq_ok hnew
  cases dryRun with
  | true =>
    obtain ⟨rfl, rfl⟩ := Prod.mk.inj (Except.ok.inj h)
    exact Or.inr ⟨read, old, new, hold, hnew, hread, rfl, Or.inl ⟨rfl, rfl⟩⟩
  | false =>
    obtain ⟨kept, hkept, h⟩ := Run.except_bind_eq_ok.1 h
    obtain ⟨last, hlast, h⟩ := Run.except_bind_eq_ok.1 h
    obtain ⟨rfl, rfl⟩ := Prod.mk.inj (Except.ok.inj h)
    exact Or.inr ⟨read, old, new, hold, hnew, hread, rfl, Or.inr ⟨rfl, kept, hkept, hlast⟩⟩

/-- **What a patch does** if it is carried out. -/
theorem applyTo_eq_ok (h : p.applyTo false fs = .ok (true, fs')) :
    ∃ q text, p.filePath = .str q ∧ Path.components (Path.normal q) ≠ [] ∧
      fs.isBlocked (Path.normal q) = false ∧
      fs.get? (Path.normal q) = some (Text.encodeUtf8 text) ∧
      fs' = (fs.put (backupPath (Path.normal q)) (Text.encodeUtf8 (Text.asRead text))).put
        (Path.normal q) (Text.encodeUtf8 (p.edit (Text.asRead text))) := by
  obtain ⟨q, hq, ⟨hno, -⟩ | ⟨read, old, new, hold, hnew, hread, -, ⟨hdry, -⟩ | ⟨-, hwritten⟩⟩⟩ :=
    applyTo_cases h
  · cases hno
  · cases hdry
  · obtain ⟨kept, hkept, hlast⟩ := hwritten
    obtain ⟨hblocked, text, hbytes, rfl⟩ := Files.readText_eq_ok hread
    obtain ⟨rfl, -⟩ := Files.writeText_eq_ok hkept
    obtain ⟨rfl, hdir, hend⟩ := Files.writeText_eq_ok hlast
    have hedit : p.edit (Text.asRead text) = Text.replace (Text.asRead text) old new := by
      rw [edit, hold, hnew]
    refine ⟨q, text, hq, Files.components_ne_nil hdir hend, hblocked, hbytes, ?_⟩
    rw [hedit]

/-- A patch that is not carried out, or only tried, leaves the files as they
are. -/
theorem applyTo_unchanged {dryRun applied : Bool} (h : p.applyTo dryRun fs = .ok (applied, fs'))
    (hno : dryRun = true ∨ applied = false) : fs' = fs := by
  obtain ⟨q, -, ⟨-, hsame⟩ | ⟨-, -, -, -, -, -, rfl, ⟨-, hsame⟩ | ⟨rfl, -⟩⟩⟩ := applyTo_cases h
  · exact hsame
  · exact hsame
  · exact absurd hno (by decide)

theorem backup_ne (k : String) : k ++ ".backup" ≠ k := by
  intro h
  have hlength := congrArg String.length h
  rw [String.length_append] at hlength
  exact absurd (Nat.add_eq_left.1 hlength) (by decide)

/-- **The two files of a patch.** The text that was read is kept beside the
text that was made of it. -/
theorem lookup_applyTo (hfile : fs.entries.lookup k = some bytes) (hon : p.IsOn k)
    (h : p.applyTo false fs = .ok (true, fs')) :
    ∃ text, bytes = Text.encodeUtf8 text ∧
      fs'.entries.lookup k = some (Text.encodeUtf8 (p.edit (Text.asRead text))) ∧
      fs'.entries.lookup (k ++ ".backup") = some (Text.encodeUtf8 (Text.asRead text)) := by
  obtain ⟨q, text, hq, hne, hblocked, hget, rfl⟩ := applyTo_eq_ok h
  obtain ⟨q', hq', hk⟩ := hon
  obtain rfl : q = q' := Json.str.inj (hq.symm.trans hq')
  have hkey : Files.key (Path.normal q) = k := (Files.key_normal q).trans hk
  have hisFile : fs.isFile (Path.normal q) = true := by rw [Files.isFile, hget, Option.isSome_some]
  have hbackup : Files.key (backupPath (Path.normal q)) = k ++ ".backup" := by
    rw [backupPath, Files.key_withSuffix hne hisFile hblocked (by decide) (by decide), hkey]
  have hbytes : bytes = Text.encodeUtf8 text := by
    rw [Files.get?, hkey, hfile] at hget
    exact Option.some.inj hget
  refine ⟨text, hbytes, ?_, ?_⟩
  · have hself := Files.lookup_put_self
      (fs.put (backupPath (Path.normal q)) (Text.encodeUtf8 (Text.asRead text)))
      (Path.normal q) (Text.encodeUtf8 (p.edit (Text.asRead text)))
    rwa [hkey] at hself
  · have hother : k ++ ".backup" ≠ Files.key (Path.normal q) := by
      rw [hkey]
      exact backup_ne k
    rw [Files.lookup_put_of_ne hother, ← hbackup, Files.lookup_put_self]

/-! ## Nothing is left half done -/

/-- The backup is another file, in the same directory. -/
theorem key_backupPath (hread : fs.readText q = .ok text) (hne : Path.components q ≠ []) :
    Files.key (backupPath q) = Files.key q ++ ".backup" ∧
      Path.parent (Files.key (backupPath q)) = Path.parent (Files.key q) := by
  obtain ⟨hblocked, s, hget, -⟩ := Files.readText_eq_ok hread
  have hfile : fs.isFile q = true := by rw [Files.isFile, hget, Option.isSome_some]
  exact ⟨Files.key_withSuffix hne hfile hblocked (by decide) (by decide),
    Files.parent_key_withSuffix hne hfile hblocked (by decide) (by decide)⟩

/-- The backup does not make a directory of the file. -/
theorem isBelow_backup (hread : fs.readText q = .ok text) (hne : Path.components q ≠ []) :
    Files.isBelow (Files.key q) (Files.key (backupPath q)) = false := by
  obtain ⟨hblocked, s, hget, -⟩ := Files.readText_eq_ok hread
  have hfile : fs.isFile q = true := by rw [Files.isFile, hget, Option.isSome_some]
  rw [(key_backupPath hread hne).1]
  exact Files.isBelow_key_append hne hfile hblocked (by decide) (by decide)

/-- What can be read and is no directory can be written, beside a backup. -/
theorem canWrite_of_load (hload : load fs (Path.normal q) = .ok text)
    (hbackup : fs.CanWrite (backupPath (Path.normal q))) : fs.CanWrite (Path.normal q) := by
  obtain ⟨hdir, hread⟩ := load_eq_ok_iff.1 hload
  obtain ⟨bytes, hbytes, -⟩ := Run.except_bind_eq_ok.1 hread
  obtain ⟨hblocked, hget⟩ := Files.read_eq_ok hbytes
  have hfile : fs.isFile (Path.normal q) = true := by rw [Files.isFile, hget, Option.isSome_some]
  have hnamed : Text.endsWith (Path.normal q) "/" = false := by
    rw [Files.isBlocked, hfile, Bool.and_true, Bool.or_eq_false_iff] at hblocked
    exact hblocked.2
  refine ⟨Files.isPassable_of_read hbytes, hdir, hnamed, ?_⟩
  rw [← (key_backupPath hread (Files.components_ne_nil hdir hnamed)).2]
  exact hbackup.placed

/-- **Once the backup is written the file can be written too.** -/
theorem exists_writeText_of_backup (hload : load fs (Path.normal q) = .ok text)
    (hkept : fs.writeText (backupPath (Path.normal q)) text = .ok kept) (s : String) :
    ∃ fs', kept.writeText (Path.normal q) s = .ok fs' := by
  obtain ⟨hbackup, rfl⟩ := Files.writeText_eq_ok_iff.1 hkept
  have hown := canWrite_of_load hload hbackup
  have hbelow := isBelow_backup (load_eq_ok_iff.1 hload).2 (Files.components_ne_nil hown.free hown.named)
  exact ⟨_, Files.writeText_eq_ok_iff.2 ⟨hown.put hbelow _, rfl⟩⟩

theorem run_save (path text : String) (w : World) : (save path text).run.run w =
    match w.files.writeText path text with
    | .ok fs => (.ok (), { w with files := fs })
    | .error e => (.error e, w) := by
  rw [save, Run.run_bind_ok Run.run_files]
  cases w.files.writeText path text <;> rfl

/-- **Of the two writings only the first can go wrong**, and then nothing is written. -/
theorem run_overwrite (hload : load w.files (Path.normal q) = .ok text) (s : String) :
    (overwrite (Path.normal q) text s).run.run w =
      match w.files.writeText (backupPath (Path.normal q)) text >>= (·.writeText (Path.normal q) s) with
      | .ok fs => (.ok (), { w with files := fs })
      | .error e => (.error e, w) := by
  have hfirst := run_save (backupPath (Path.normal q)) text w
  cases hkept : w.files.writeText (backupPath (Path.normal q)) text with
  | error e =>
    rw [hkept] at hfirst
    rw [overwrite, Run.run_bind_error hfirst]
    rfl
  | ok kept =>
    obtain ⟨fs', hlast⟩ := exists_writeText_of_backup hload hkept s
    have hsecond := run_save (Path.normal q) s { w with files := kept }
    rw [hkept] at hfirst
    dsimp only at hsecond
    rw [hlast] at hsecond
    rw [overwrite, Run.run_bind_ok hfirst, hsecond]
    dsimp only [bind, Except.bind]
    rw [hlast]

/-- **A step that goes wrong leaves the files as they were before the first.** -/
theorem run_steps (p : Patch) (dryRun : Bool) (w : World) : (p.steps dryRun).run.run w =
    match p.applyTo dryRun w.files with
    | .ok (done, fs) => (.ok done, { w with files := fs })
    | .error e => (.error e, w) := by
  rw [steps, applyTo, Run.run_bind_ok Run.run_files]
  cases FixEngine.pathText p.filePath with
  | error e => rfl
  | ok q =>
    rw [Run.run_bind_ok Run.run_ofExcept, Run.except_ok_bind]
    dsimp only
    by_cases hhas : (!w.files.has (Path.normal q)) = true
    · rw [if_pos hhas, if_pos hhas]
      rfl
    rw [if_neg hhas, if_neg hhas]
    cases hload : load w.files (Path.normal q) with
    | error e => rfl
    | ok content =>
      rw [Run.run_bind_ok Run.run_ofExcept, Run.except_ok_bind]
      cases textArgument 1 p.oldCode with
      | error e => rfl
      | ok old =>
        rw [Run.run_bind_ok Run.run_ofExcept, Run.except_ok_bind]
        cases textArgument 2 p.fixedCode with
        | error e => rfl
        | ok new =>
          rw [Run.run_bind_ok Run.run_ofExcept, Run.except_ok_bind]
          cases dryRun with
          | true => rfl
          | false =>
            rw [if_neg Bool.false_ne_true, if_neg Bool.false_ne_true, Run.run_bind, run_overwrite hload]
            cases w.files.writeText (backupPath (Path.normal q)) content with
            | error e => rfl
            | ok kept =>
              rw [Run.except_ok_bind, Run.except_ok_bind]
              cases kept.writeText (Path.normal q) (Text.replace content old new) <;> rfl

/-- **Trying a patch never fails.** What goes wrong makes it a patch that was not carried out. -/
theorem run_apply (p : Patch) (dryRun : Bool) (w : World) :
    (p.apply dryRun).run.run w =
      (.ok ((p.applyTo dryRun w.files).toOption.map Prod.fst == some true),
        { w with files := ((p.applyTo dryRun w.files).toOption.map Prod.snd).getD w.files }) := by
  rw [apply, Run.run_tryCatch, run_steps]
  rcases p.applyTo dryRun w.files with e | ⟨_ | _, fs⟩ <;> rfl

theorem applyTo_of_apply (h : (p.apply false).run.run w = (.ok true, w')) :
    p.applyTo false w.files = .ok (true, w'.files) := by
  rw [run_apply] at h
  obtain ⟨hdone, rfl⟩ := Prod.mk.inj h
  rcases happly : p.applyTo false w.files with e | ⟨_ | _, fs⟩
  · rw [happly] at hdone
    cases hdone
  · rw [happly] at hdone
    cases hdone
  · rfl

/-! ## A series of patches -/

/-- A series that is carried out starts with its first patch. -/
theorem applyEach_cons (hrun : (applyEach (p :: patches)).run.run w = (.ok done, w'))
    (hdone : ∀ d ∈ done, d = true) :
    ∃ w₁ ds, p.applyTo false w.files = .ok (true, w₁.files) ∧
      (applyEach patches).run.run w₁ = (.ok ds, w') ∧ ∀ d ∈ ds, d = true := by
  rw [applyEach, List.mapM_cons] at hrun
  obtain ⟨d, w₁, hfirst, hrun⟩ := Run.bind_eq_ok.1 hrun
  obtain ⟨ds, w₂, hrest, hrun⟩ := Run.bind_eq_ok.1 hrun
  obtain ⟨hds, rfl⟩ := Prod.mk.inj hrun
  obtain rfl := Except.ok.inj hds
  obtain rfl : d = true := hdone d List.mem_cons_self
  exact ⟨w₁, ds, applyTo_of_apply hfirst, hrest, fun d hd => hdone d (List.mem_cons_of_mem true hd)⟩

/-- **After a series of patches** the backup holds what was there before the
last of them. The patches that follow the first one start from the text that
it has written. -/
theorem lookup_backup (hfile : w.files.entries.lookup k = some (Text.encodeUtf8 text))
    (hne : patches ≠ []) (hon : ∀ p ∈ patches, p.IsOn k)
    (hrun : (applyEach patches).run.run w = (.ok done, w')) (hdone : ∀ d ∈ done, d = true) :
    w'.files.entries.lookup (k ++ ".backup") =
      some (Text.encodeUtf8 (Text.asRead (rewrite patches.dropLast text))) := by
  induction patches generalizing w text done with
  | nil => exact absurd rfl hne
  | cons p patches ih =>
    obtain ⟨w₁, ds, hfirst, hrest, hds⟩ := applyEach_cons hrun hdone
    obtain ⟨read, hread, hnext, hbackup⟩ := lookup_applyTo hfile (hon p List.mem_cons_self) hfirst
    obtain rfl := Text.encodeUtf8_inj.1 hread
    -- the backup stays as it is only if no other patch writes it again
    by_cases hlast : patches = []
    · subst hlast
      obtain ⟨-, rfl⟩ := Prod.mk.inj hrest
      exact hbackup
    · rw [ih hnext hlast (fun q hq => hon q (List.mem_cons_of_mem p hq)) hrest hds,
        List.dropLast_cons_of_ne_nil hlast]
      rfl

/-- **The backup after a series of patches** holds what was there before the
last of them, as it was read. It is the original exactly if that has no
carriage return and there is only one patch, or those before the last leave
the text as it was. -/
theorem backup_restores_iff (hfile : w.files.entries.lookup k = some bytes) (hne : patches ≠ [])
    (hon : ∀ p ∈ patches, p.IsOn k) (hrun : (applyEach patches).run.run w = (.ok done, w'))
    (hdone : ∀ d ∈ done, d = true) :
    ∃ text, bytes = Text.encodeUtf8 text ∧
      w'.files.entries.lookup (k ++ ".backup") =
        some (Text.encodeUtf8 (Text.asRead (rewrite patches.dropLast text))) ∧
      (w'.files.entries.lookup (k ++ ".backup") = some bytes ↔
        '\r' ∉ text.toList ∧
          (patches.length = 1 ∨ Text.asRead (rewrite patches.dropLast text) = text)) := by
  obtain ⟨p, rest, rfl⟩ := List.exists_cons_of_ne_nil hne
  obtain ⟨w₁, ds, hfirst, -, -⟩ := applyEach_cons hrun hdone
  obtain ⟨text, rfl, -, -⟩ := lookup_applyTo hfile (hon p List.mem_cons_self) hfirst
  have hbackup := lookup_backup hfile hne hon hrun hdone
  refine ⟨text, rfl, hbackup, ?_⟩
  rw [hbackup, Option.some.injEq, Text.encodeUtf8_inj]
  constructor
  · intro hsame
    have hread := Text.not_mem_asRead (rewrite (p :: rest).dropLast text)
    rw [hsame] at hread
    exact ⟨hread, Or.inr hsame⟩
  · rintro ⟨hread, hone | hsame⟩
    · -- nothing comes before the last patch
      obtain rfl : rest = [] := List.eq_nil_of_length_eq_zero (Nat.succ.inj hone)
      exact Text.asRead_eq_self_iff.2 hread
    · exact hsame

/-! ## Two patches of one file -/

/-- A world with one file, of two lines. -/
def twoLines : World :=
  { files := { entries := [("a", Text.encodeUtf8 "x\ny")] } }

/-- The patch that writes one text for another. -/
def change (path old new : String) : Patch :=
  ⟨.str path, .str old, .str new⟩

/-- Two patches, of which the first finds nothing to change. -/
def idleThenChange : List Patch :=
  [change "./a" "z" "w", change "a" "y" "w"]

/-- Two patches that both change the file. -/
def twoChanges : List Patch :=
  [change "a" "x" "z", change "a" "y" "w"]

/-- What patches report of that world, and what they make of it. -/
def outcome (patches : List Patch) : Except Failure (List Bool) × World :=
  (applyEach patches).run.run twoLines

theorem backup_restores_after_idle_patch :
    (outcome idleThenChange).1.toOption = some [true, true] ∧
      (outcome idleThenChange).2.files.entries.lookup "a.backup" =
        some (Text.encodeUtf8 "x\ny") := by
  have hdone : (outcome idleThenChange).1.toOption = some [true, true] := by decide +kernel
  have hrun : outcome idleThenChange = (.ok [true, true], (outcome idleThenChange).2) :=
    Prod.ext (Run.except_toOption_eq_some.1 hdone) rfl
  have hon : ∀ p ∈ idleThenChange, p.IsOn "a" := by
    intro p hp
    rcases List.mem_cons.1 hp with rfl | hp
    · exact ⟨"./a", rfl, by decide +kernel⟩
    · rw [List.mem_singleton.1 hp]
      exact ⟨"a", rfl, by decide +kernel⟩
  obtain ⟨text, htext, -, hiff⟩ :=
    backup_restores_iff (w := twoLines) rfl (List.cons_ne_nil _ _) hon hrun (by decide)
  obtain rfl := Text.encodeUtf8_inj.1 htext
  exact ⟨hdone, hiff.2 (by decide +kernel)⟩

/-- **The original is lost** where both patches change the file: the backup
is what the first of them has written. -/
theorem backup_loses_original :
    twoLines.files.entries.lookup "a" = some (Text.encodeUtf8 "x\ny") ∧
      (outcome twoChanges).1.toOption = some [true, true] ∧
      (outcome twoChanges).2.files.entries.lookup "a.backup" = some (Text.encodeUtf8 "z\ny") ∧
      Text.encodeUtf8 "z\ny" ≠ Text.encodeUtf8 "x\ny" := by
  refine ⟨rfl, ?_, ?_, ?_⟩ <;> decide +kernel

end SecureReview.Patch
