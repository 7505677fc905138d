import SecureReview.Proofs.Store.Entries
import SecureReview.Proofs.Text.Utf8
import SecureReview.Proofs.World.Paths
import SecureReview.Proofs.World.Run
/-!
# Texts in files

A file that is written has its new bytes, and **every other file is as it
was**. A text that is read is that of the file's bytes, with every line end
a line feed: it is the text itself exactly if it has no carriage return
(`asRead_eq_self_iff`).
-/

namespace SecureReview

namespace Text

/-- A text as it is read from a file. -/
def asRead (s : String) : String :=
  String.ofList (normalizeNewlines s.toList)

theorem not_mem_normalizeNewlines (t : List Char) : '\r' ∉ normalizeNewlines t := by
  fun_induction normalizeNewlines t with
  | case1 => exact List.not_mem_nil
  | case2 t ih => simpa using ih
  | case3 t _ ih => simpa using ih
  | case4 c t _ hc ih =>
    have hne : '\r' ≠ c := fun h => hc h.symm
    simp [hne, ih]

theorem normalizeNewlines_of_not_mem {t : List Char} (h : '\r' ∉ t) : normalizeNewlines t = t := by
  fun_induction normalizeNewlines t with
  | case1 => rfl
  | case2 t _ => exact absurd List.mem_cons_self h
  | case3 t _ _ => exact absurd List.mem_cons_self h
  | case4 c t _ _ ih => rw [ih fun ht => h (List.mem_cons_of_mem c ht)]

theorem not_mem_asRead (s : String) : '\r' ∉ (asRead s).toList := by
  rw [asRead, String.toList_ofList]
  exact not_mem_normalizeNewlines s.toList

/-- **A text is read as it is exactly if it has no carriage return.** -/
theorem asRead_eq_self_iff {s : String} : asRead s = s ↔ '\r' ∉ s.toList := by
  constructor
  · intro h
    rw [← h]
    exact not_mem_asRead s
  · intro h
    rw [asRead, normalizeNewlines_of_not_mem h, String.ofList_toList]

end Text

namespace Files

variable {fs fs' : Files} {p q s : String} {bytes : List UInt8}

/-! ## Entries -/

theorem setEntry_eq (k : String) (bytes : List UInt8) (es : List (String × List UInt8)) :
    setEntry k bytes es = Store.put k bytes es := by
  induction es with
  | nil => rfl
  | cons e es ih => rw [setEntry, Store.put, ih]

theorem lookup_put_self (fs : Files) (p : String) (bytes : List UInt8) :
    (fs.put p bytes).entries.lookup (key p) = some bytes := by
  rw [put, setEntry_eq, Store.lookup_put_self]

/-- **Another file is as it was.** -/
theorem lookup_put_of_ne {k : String} (h : k ≠ key p) (fs : Files) (bytes : List UInt8) :
    (fs.put p bytes).entries.lookup k = fs.entries.lookup k := by
  rw [put, setEntry_eq, Store.lookup_put_of_ne h]

theorem get?_put_self (fs : Files) (p : String) (bytes : List UInt8) :
    (fs.put p bytes).get? p = some bytes :=
  lookup_put_self fs p bytes

theorem get?_remove_self (fs : Files) (p : String) : (fs.remove p).get? p = none := by
  rw [get?, remove, Store.lookup_filter fun k => k != key p, if_neg (by simp)]

theorem lookup_remove_of_ne {k : String} (h : k ≠ key p) (fs : Files) :
    (fs.remove p).entries.lookup k = fs.entries.lookup k := by
  rw [remove, Store.lookup_filter fun l => l != key p, if_pos (by simpa using h)]

/-! ## Normal paths -/

/-- The files are kept under normal paths, each under one of its own. -/
structure Proper (fs : Files) : Prop where
  normal : ∀ e ∈ fs.entries, key e.1 = e.1
  once : (fs.entries.map Prod.fst).Nodup

theorem proper_empty : ({} : Files).Proper where
  normal := by simp
  once := List.nodup_nil

theorem Proper.put (h : fs.Proper) (p : String) (bytes : List UInt8) : (fs.put p bytes).Proper where
  normal e he := by
    rw [Files.put, setEntry_eq] at he
    rcases Store.mem_map_fst_put.1 (List.mem_map_of_mem he) with hself | hold
    · rw [hself, key_key]
    · obtain ⟨e', he', hsame⟩ := List.mem_map.1 hold
      rw [← hsame, h.normal e' he']
  once := by
    rw [Files.put, setEntry_eq]
    exact Store.nodup_put h.once

/-- **A file is there exactly if its path is among those kept.** -/
theorem isFile_iff : fs.isFile p = true ↔ key p ∈ fs.entries.map Prod.fst := by
  rw [isFile, get?, Option.isSome_iff_ne_none, Ne, List.lookup_eq_none_iff]
  simp only [bne_iff_ne, ne_eq, not_forall, not_not, List.mem_map, exists_prop]
  exact exists_congr fun e => and_congr_right fun _ => eq_comm

/-! ## What lies below -/

/-- **A path lies below a directory** if it goes on where that ends, and not back. -/
theorem isBelow_iff {d : String} : isBelow d p = true ↔ Path.rootOf p = Path.rootOf d ∧
    ∃ c cs, Path.components p = Path.components d ++ c :: cs ∧ c ≠ ".." := by
  unfold isBelow relative
  rw [Bool.and_eq_true, Bool.and_eq_true, beq_iff_eq, List.isPrefixOf_iff_prefix, and_assoc]
  refine and_congr_right fun _ => ?_
  constructor
  · rintro ⟨⟨rest, hrest⟩, hnext⟩
    rw [← hrest, List.drop_left] at hnext
    cases rest with
    | nil => cases hnext
    | cons c cs => exact ⟨c, cs, hrest.symm, by simpa using hnext⟩
  · rintro ⟨c, cs, hcs, hc⟩
    rw [hcs, List.drop_left]
    exact ⟨List.prefix_append _ _, by simpa using hc⟩

/-- Nothing that is written after the last component of a file's path makes the file a directory. -/
theorem isBelow_key_append {e : String} (hne : Path.components p ≠ []) (hfile : fs.isFile p = true)
    (hblocked : fs.isBlocked p = false) (he : '/' ∉ e.toList) (hlong : 2 < e.length) :
    isBelow (key p) (key p ++ e) = false := by
  obtain ⟨cs, c, hcs, hparts, -, -⟩ := exists_withSuffix hne he hlong
  have hroot := Path.isRoot_rootOf p
  have hown : ∀ x ∈ cs ++ [c], Path.IsComponent x := fun x hx => Path.isComponent_of_mem (hcs ▸ hx)
  rw [key_of_file hcs hfile hblocked, ← Path.build_append, Bool.eq_false_iff, Ne, isBelow_iff,
    Path.components_build hroot (isComponent_of_way hparts),
    Path.components_build hroot (isComponent_of_way hown)]
  rintro ⟨-, d, ds, hlonger, -⟩
  have hlengths := congrArg List.length hlonger
  simp only [List.length_append, List.length_cons, List.length_nil] at hlengths
  omega

/-! ## Reading and writing -/

/-- **A file that is there can be read** where nothing is in the way. -/
theorem read_of_get? (hname : p ≠ "" ∧ Char.ofNat 0 ∉ p.toList) (hblocked : fs.isBlocked p = false)
    (hpass : fs.isPassable p = true) (hget : fs.get? p = some bytes) : fs.read p = .ok bytes := by
  rw [read, if_neg (by simpa using hname.1), if_neg (by simpa using hname.2),
    if_neg (by simp [hblocked]), if_neg (by simp [hpass]), hget]

/-- A path that never goes back goes back from nothing that is not there. -/
theorem isPassable_of_not_mem (fs : Files) (h : ".." ∉ Path.components p) :
    fs.isPassable p = true := by
  unfold isPassable
  rw [List.all_eq_true]
  intro n _
  have hnext : (Path.components p)[n + 1]? ≠ some ".." := fun hback =>
    h (List.mem_of_getElem? hback)
  simp [hnext]

/-- A file that is there can be removed. -/
theorem unlink_of_get? (hget : fs.get? p = some bytes) : fs.unlink p = .ok (fs.remove p) := by
  rw [unlink, if_pos (by simp [isFile, hget])]

/-- The text of a file, as it is written and as it is read. -/
theorem readExact_of_read (h : fs.read p = .ok (Text.encodeUtf8 s)) : fs.readExact p = .ok s := by
  simp only [readExact, h, bind, Except.bind, Text.decodeUtf8_eq_ok_iff.2 rfl]
  rfl

theorem readText_of_read (h : fs.read p = .ok (Text.encodeUtf8 s)) :
    fs.readText p = .ok (Text.asRead s) := by
  simp only [readText, h, bind, Except.bind, Text.decodeUtf8_eq_ok_iff.2 rfl]
  rfl

theorem isPassable_of_read (h : fs.read p = .ok bytes) : fs.isPassable p = true := by
  cases hpass : fs.isPassable p with
  | true => rfl
  | false =>
    unfold read at h
    simp only [hpass, Bool.not_false, if_true] at h
    split_ifs at h

theorem read_eq_ok (h : fs.read p = .ok bytes) :
    fs.isBlocked p = false ∧ fs.get? p = some bytes := by
  unfold read at h
  cases hget : fs.get? p with
  | none =>
    simp only [hget] at h
    split_ifs at h
  | some found =>
    simp only [hget] at h
    split_ifs at h with hempty hnull hblocked hpass
    exact ⟨Bool.eq_false_iff.2 hblocked, congrArg some (Except.ok.inj h)⟩

/-- What can be read is there. -/
theorem has_of_read (h : fs.read p = .ok bytes) : fs.has p = true := by
  simp [has, isFile, isPassable_of_read h, (read_eq_ok h).2]

/-- **What is read** is the text of the file's bytes, with its line ends made
line feeds. -/
theorem readText_eq_ok (h : fs.readText p = .ok s) :
    fs.isBlocked p = false ∧
      ∃ text, fs.get? p = some (Text.encodeUtf8 text) ∧ s = Text.asRead text := by
  obtain ⟨bytes, hread, hdecode⟩ := Run.except_bind_eq_ok.1 h
  obtain ⟨hblocked, hbytes⟩ := read_eq_ok hread
  split at hdecode
  · rename_i text htext
    refine ⟨hblocked, text, ?_, (Except.ok.inj hdecode).symm⟩
    rw [hbytes, Text.decodeUtf8_eq_ok_iff.1 htext]
  · cases hdecode

/-- A file with this path can be written. -/
structure CanWrite (fs : Files) (p : String) : Prop where
  passable : fs.isPassable p = true
  free : fs.isDir p = false
  named : Text.endsWith p "/" = false
  placed : fs.isDir (Path.parent (key p)) = true

/-- **What can be written is put in place.** -/
theorem writeText_eq_ok_iff :
    fs.writeText p s = .ok fs' ↔ fs.CanWrite p ∧ fs' = fs.put p (Text.encodeUtf8 s) := by
  unfold writeText write
  constructor
  · intro h
    by_cases hpass : (!fs.isPassable p) = true
    · rw [if_pos hpass] at h
      cases h
    rw [if_neg hpass] at h
    split_ifs at h with hdir hparent
    rw [Bool.or_eq_true, not_or, Bool.not_eq_true, Bool.not_eq_true] at hdir
    exact ⟨⟨by simpa using hpass, hdir.1, hdir.2, hparent⟩, (Except.ok.inj h).symm⟩
  · rintro ⟨⟨hpass, hdir, hend, hparent⟩, rfl⟩
    rw [hpass, hdir, hend, hparent]
    rfl

theorem writeText_eq_ok (h : fs.writeText p s = .ok fs') :
    fs' = fs.put p (Text.encodeUtf8 s) ∧ fs.isDir p = false ∧ Text.endsWith p "/" = false := by
  obtain ⟨hcan, hput⟩ := writeText_eq_ok_iff.1 h
  exact ⟨hput, hcan.free, hcan.named⟩

theorem any_setEntry (f : String → Bool) (k : String) (bytes : List UInt8)
    (es : List (String × List UInt8)) :
    (setEntry k bytes es).any (fun e => f e.1) = (es.any (fun e => f e.1) || f k) := by
  induction es with
  | nil => simp [setEntry]
  | cons e es ih =>
    rw [setEntry]
    split_ifs with hk
    · simp only [List.any_cons, eq_of_beq hk]
      cases f k <;> simp
    · rw [List.any_cons, ih, List.any_cons, Bool.or_assoc]

/-- **The directories after a file is put in place** are those from before and
those above the file. -/
theorem isDir_put (fs : Files) (p q : String) (bytes : List UInt8) :
    (fs.put q bytes).isDir p = (fs.isDir p || isBelow (key p) (key q)) := by
  simp only [isDir, put, any_setEntry (isBelow (key p))]
  cases isBelow (key p) (key q) <;> simp

theorem isPassable_put (h : fs.isPassable p = true) (q : String) (bytes : List UInt8) :
    (fs.put q bytes).isPassable p = true := by
  unfold isPassable at h ⊢
  rw [List.all_eq_true] at h ⊢
  intro n hn
  have hold := h n hn
  rw [Bool.or_eq_true] at hold ⊢
  refine hold.imp_right fun hdir => ?_
  rw [isDir_put, hdir, Bool.true_or]

/-- A file can still be written after another, unless that is below it. -/
theorem CanWrite.put (h : fs.CanWrite p) (hbelow : isBelow (key p) (key q) = false)
    (bytes : List UInt8) : (fs.put q bytes).CanWrite p where
  passable := isPassable_put h.passable q bytes
  free := by rw [isDir_put, h.free, hbelow, Bool.or_self]
  named := h.named
  placed := by rw [isDir_put, h.placed, Bool.true_or]

/-! ## Looking up -/

/-- The system lets the path be looked up, whatever files there are: neither it nor a name on its way
is too long, and no directory on its way is closed. -/
structure IsOpen (closed : List String) (p : String) : Prop where
  short : p.utf8ByteSize < pathLimit
  names : ∀ c ∈ Path.components p, c.utf8ByteSize ≤ nameLimit
  way : ∀ n < (Path.components p).length,
    key (Path.build (Path.rootOf p) ((Path.components p).take n)) ∉ closed

instance (closed : List String) (p : String) : Decidable (IsOpen closed p) :=
  decidable_of_iff (p.utf8ByteSize < pathLimit ∧
      (∀ c ∈ Path.components p, c.utf8ByteSize ≤ nameLimit) ∧
      ∀ n < (Path.components p).length,
        key (Path.build (Path.rootOf p) ((Path.components p).take n)) ∉ closed)
    ⟨fun h => ⟨h.1, h.2.1, h.2.2⟩, fun h => ⟨h.short, h.names, h.way⟩⟩

variable {closed : List String} {question : Files → String → Bool} {b : Bool} {e : Failure}

theorem obstacle?_of_long (h : pathLimit ≤ p.utf8ByteSize) (fs : Files) (closed : List String) :
    fs.obstacle? closed p = some (.nameTooLong p) :=
  if_pos h

theorem obstacle?_of_isOpen (h : IsOpen closed p) (fs : Files) : fs.obstacle? closed p = none := by
  rw [obstacle?, if_neg (Nat.not_le.2 h.short), List.findSome?_eq_none_iff]
  intro n hn
  rw [List.mem_range] at hn
  have hname : ((Path.components p).getD n "").utf8ByteSize ≤ nameLimit := by
    rw [List.getD_eq_getElem?_getD, List.getElem?_eq_getElem hn]
    exact h.names _ (List.getElem_mem hn)
  dsimp only
  split_ifs with hdir hclosed hlong
  · rfl
  · exact absurd (List.contains_iff_mem.1 hclosed) (h.way n hn)
  · exact absurd hname (Nat.not_le.2 hlong)
  · rfl

theorem look_eq_ok (h : fs.look closed question p = .ok b) : b = question fs p := by
  unfold look at h
  split at h
  · cases h
  · exact (Except.ok.inj h).symm

theorem look_eq_error (h : fs.look closed question p = .error e) : fs.obstacle? closed p = some e := by
  unfold look at h
  split at h
  · next hobstacle =>
    cases h
    exact hobstacle
  · cases h

end Files

end SecureReview
