import Mathlib.Tactic.Linarith
import SecureReview.Proofs.Text.Search
import SecureReview.World.Files
/-!
# Paths and the names of files

A path is taken apart into its root and its components, and these can be
put together again (`components_build`, `rootOf_build`): **the normal form of
a path leads to the same file** (`key_normal`). On the way along the
components the directory reached is a stack, on which `..` undoes the last
step. A path that goes back to a file has to go through it
(`isBlocked_of_back`), and so cannot be followed. For every other path
the name of the last component is the end of the file's name, and **a text
written after the one is written after the other** (`key_withSuffix`).
-/

namespace SecureReview

theorem Text.joinWith_append (sep p e : String) (ps : List String) :
    joinWith sep (ps ++ [p ++ e]) = joinWith sep (ps ++ [p]) ++ e := by
  induction ps with
  | nil => rfl
  | cons q ps ih =>
    cases ps with
    | nil => simp [joinWith, String.append_assoc]
    | cons r ps =>
      simp only [List.cons_append, joinWith, String.append_assoc] at ih ⊢
      rw [ih]

namespace Path

variable {root p c e : String} {cs : List String}

/-! ## Taking apart and putting together -/

/-- What can stand between two slashes of a path in normal form. -/
def IsComponent (c : String) : Prop :=
  '/' ∉ c.toList ∧ c ≠ "" ∧ c ≠ "."

/-- What a path can start with. -/
def IsRoot (root : String) : Prop :=
  root = "" ∨ root = "/" ∨ root = "//"

theorem isRoot_rootOf (p : String) : IsRoot (rootOf p) := by
  unfold rootOf IsRoot
  split_ifs <;> simp

theorem isComponent_of_mem (h : c ∈ components p) : IsComponent c := by
  obtain ⟨hsplit, hne⟩ := List.mem_filter.1 h
  obtain ⟨piece, hpiece, rfl⟩ := List.mem_map.1 hsplit
  have hslash : '/' ∉ piece := Text.not_mem_of_mem_splitAtEach hpiece
  simp only [Bool.and_eq_true, bne_iff_ne] at hne
  refine ⟨?_, hne⟩
  rw [String.toList_ofList]
  exact hslash

theorem split_append (h : '/' ∉ c.toList) (p : String) :
    Text.split (c ++ "/" ++ p) "/" = c :: Text.split p "/" := by
  have htext : (c ++ "/" ++ p).toList = c.toList ++ '/' :: p.toList := by
    rw [String.toList_append, String.toList_append, List.append_assoc]
    rfl
  have hfirst : Text.splitAtEach "/".toList (c.toList ++ '/' :: p.toList) =
      c.toList :: Text.splitAtEach "/".toList p.toList := Text.splitAtEach_append h p.toList
  rw [Text.split, htext, hfirst, List.map_cons, String.ofList_toList, Text.split]

theorem split_joinWith (hne : cs ≠ []) (h : ∀ c ∈ cs, IsComponent c) :
    Text.split (Text.joinWith "/" cs) "/" = cs := by
  induction cs with
  | nil => exact absurd rfl hne
  | cons c cs ih =>
    have hc := (h c List.mem_cons_self).1
    cases cs with
    | nil => simp [Text.joinWith, Text.split, Text.splitAtEach_of_not_mem hc]
    | cons d cs =>
      have hrest := ih (List.cons_ne_nil d cs) fun x hx => h x (List.mem_cons_of_mem c hx)
      rw [Text.joinWith, split_append hc, hrest]
      exact List.cons_ne_nil d cs

/-- A name with an ending can stand there too. -/
theorem IsComponent.append (h : IsComponent c) (he : '/' ∉ e.toList) (hlong : 2 < e.length) :
    IsComponent (c ++ e) ∧ c ++ e ≠ ".." := by
  have hshort : ∀ s : String, s.length ≤ 2 → c ++ e ≠ s := by
    intro s hs heq
    rw [← heq, String.length_append] at hs
    omega
  have hslash : '/' ∉ (c ++ e).toList := by simp [h.1, he]
  exact ⟨⟨hslash, hshort "" (by decide), hshort "." (by decide)⟩, hshort ".." (by decide)⟩

theorem components_slash (p : String) : components ("/" ++ p) = components p := by
  have hsplit : Text.split ("/" ++ p) "/" = "" :: Text.split p "/" :=
    split_append (c := "") List.not_mem_nil p
  rw [components, hsplit, List.filter_cons_of_neg (by simp), components]

theorem components_joinWith (h : ∀ c ∈ cs, IsComponent c) :
    components (Text.joinWith "/" cs) = cs := by
  by_cases hne : cs = []
  · rw [hne]
    rfl
  · rw [components, split_joinWith hne h, List.filter_eq_self]
    intro c hc
    simpa using (h c hc).2

/-- **A path put together has the components it was made of.** -/
theorem components_build (hroot : IsRoot root) (h : ∀ c ∈ cs, IsComponent c) :
    components (build root cs) = cs := by
  have hjoin := components_joinWith h
  unfold build
  split_ifs with hempty
  · simp only [Bool.and_eq_true, List.isEmpty_iff] at hempty
    rw [hempty.2]
    rfl
  · rcases hroot with rfl | rfl | rfl
    · rw [String.empty_append, hjoin]
    · rw [components_slash, hjoin]
    · rw [show ("//" : String) = "/" ++ "/" from rfl, String.append_assoc, components_slash,
        components_slash, hjoin]

theorem isPrefixOf_joinWith (h : ∀ c ∈ cs, IsComponent c) (t : List Char) :
    ('/' :: t).isPrefixOf (Text.joinWith "/" cs).toList = false := by
  have hfirst : ∀ c ∈ cs, ∀ u, ('/' :: t).isPrefixOf (c.toList ++ u) = false := by
    intro c hc u
    obtain ⟨hslash, hne, -⟩ := h c hc
    cases hlist : c.toList with
    | nil => exact absurd (String.toList_eq_nil_iff.1 hlist) hne
    | cons x xs =>
      have hx : ¬ '/' = x := fun hx => hslash (hlist ▸ hx ▸ List.mem_cons_self)
      simp [List.isPrefixOf, hx]
  cases cs with
  | nil => rfl
  | cons c cs =>
    cases cs with
    | nil => simpa [Text.joinWith] using hfirst c List.mem_cons_self []
    | cons d cs =>
      rw [Text.joinWith, String.toList_append, String.toList_append, List.append_assoc]
      · exact hfirst c List.mem_cons_self _
      · exact List.cons_ne_nil d cs

/-- **And the root.** No component begins with a slash, so there are no more
of them than those of the root. -/
theorem rootOf_build (hroot : IsRoot root) (h : ∀ c ∈ cs, IsComponent c) :
    rootOf (build root cs) = root := by
  have hjoin := isPrefixOf_joinWith h
  unfold build
  split_ifs with hempty
  · simp only [Bool.and_eq_true, beq_iff_eq] at hempty
    rw [hempty.1]
    rfl
  · rcases hroot with rfl | rfl | rfl <;>
      simp [rootOf, Text.startsWith, List.isPrefixOf, hjoin]

/-- The normal form of a path has its parts. -/
theorem components_normal (p : String) : components (normal p) = components p :=
  components_build (isRoot_rootOf p) fun _ => isComponent_of_mem

theorem rootOf_normal (p : String) : rootOf (normal p) = rootOf p :=
  rootOf_build (isRoot_rootOf p) fun _ => isComponent_of_mem

/-- The path above a path that was put together. -/
theorem parent_build (hroot : IsRoot root) (h : ∀ x ∈ cs ++ [c], IsComponent x) :
    parent (build root (cs ++ [c])) = build root cs := by
  rw [parent, components_build hroot h, rootOf_build hroot h, List.dropLast_concat]

/-! ## The ending of a name -/

theorem lastIndex?_lt {x : Char} {t : List Char} {i : ℕ} (h : Text.lastIndex? x t = some i) :
    i < t.length := by
  obtain ⟨k, hk, rfl⟩ := Option.map_eq_some_iff.1 h
  obtain ⟨hlt, -⟩ := List.findIdx?_eq_some_iff_getElem.1 hk
  rw [List.length_reverse] at hlt
  omega

theorem take_length (n : String) : Text.take n n.length = n := by
  rw [Text.take, ← String.length_toList, List.take_length, String.ofList_toList]

theorem take_append_drop (n : String) (i : ℕ) : Text.take n i ++ Text.drop n i = n := by
  rw [← String.toList_inj, String.toList_append, Text.take, Text.drop, String.toList_ofList,
    String.toList_ofList, List.take_append_drop]

/-- A name is its stem and its ending. -/
theorem stem_append_suffix (n : String) :
    Text.take n (n.length - (suffixOfName n).length) ++ suffixOfName n = n := by
  unfold suffixOfName
  split
  · rename_i i hi
    have hlt := lastIndex?_lt hi
    split_ifs
    · have hstem : n.length - (Text.drop n i).length = i := by
        simp only [Text.drop, String.length_ofList, List.length_drop, String.length_toList] at hlt ⊢
        omega
      rw [hstem, take_append_drop]
    · exact (String.append_empty).trans (take_length n)
  · exact (String.append_empty).trans (take_length n)

theorem withSuffix_suffix (p e : String) :
    withSuffix p (suffix p ++ e) =
      build (rootOf p) ((components p).dropLast ++ [name p ++ e]) := by
  rw [withSuffix, suffix, ← String.append_assoc, stem_append_suffix]

theorem build_append (root c e : String) (cs : List String) :
    build root (cs ++ [c ++ e]) = build root (cs ++ [c]) ++ e := by
  simp [build, Text.joinWith_append, String.append_assoc]

end Path

namespace Files

variable {fs : Files} {p c d e : String} {cs done : List String}

/-! ## The way to a file -/

/-- Going on by one component, from a directory that is given from its end. -/
def enter (done : List String) (c : String) : List String :=
  if c = ".." then
    match done with
    | [] => [".."]
    | d :: ds => if d = ".." then ".." :: d :: ds else ds
  else c :: done

theorem resolve_eq (done cs : List String) : resolve done cs = (cs.foldl enter done).reverse := by
  fun_induction resolve done cs with
  | case1 done => rfl
  | _ => simp_all [enter]

theorem enter_of_ne (h : c ≠ "..") : enter done c = c :: done :=
  if_neg h

/-- A step adds its component or goes back by one. -/
theorem enter_cases (done : List String) (c : String) :
    enter done c = c :: done ∨ ∃ d, done = d :: enter done c := by
  unfold enter
  split_ifs with hc
  · cases done with
    | nil => exact Or.inl (by rw [hc])
    | cons d ds =>
      by_cases hd : d = ".."
      · exact Or.inl (by simp [hd, hc])
      · exact Or.inr ⟨d, by simp [hd]⟩
  · exact Or.inl rfl

/-- A directory that is reached has components of a path. -/
theorem isComponent_of_mem_foldl (hdone : ∀ x ∈ done, Path.IsComponent x)
    (hcs : ∀ x ∈ cs, Path.IsComponent x) : ∀ x ∈ cs.foldl enter done, Path.IsComponent x := by
  induction cs generalizing done with
  | nil => exact hdone
  | cons c cs ih =>
    obtain ⟨hc, hrest⟩ := List.forall_mem_cons.1 hcs
    refine ih ?_ hrest
    intro x hx
    rcases enter_cases done c with hadd | ⟨d, hback⟩
    · rw [hadd] at hx
      rcases List.mem_cons.1 hx with rfl | hx
      · exact hc
      · exact hdone x hx
    · rw [hback] at hdone
      exact hdone x (List.mem_cons_of_mem d hx)

/-- So has one that is entered from there. -/
theorem isComponent_of_way (h : ∀ x ∈ cs ++ [c], Path.IsComponent x) :
    ∀ x ∈ (cs.foldl enter []).reverse ++ [c], Path.IsComponent x := by
  intro x hx
  rcases List.mem_append.1 hx with hx | hx
  · exact isComponent_of_mem_foldl (by simp) (fun y hy => h y (List.mem_append_left _ hy)) x
      (List.mem_reverse.1 hx)
  · exact h x (List.mem_append_right _ hx)

/-- **What is below the last component was reached before.** Where the last
step went back, the component it removed was entered from what is below it,
and so was the one before. -/
theorem exists_take_of_foldl (h : cs.foldl enter [] = d :: done) :
    ∃ n < cs.length, (cs.take n).foldl enter [] = done := by
  induction hlen : cs.length using Nat.strong_induction_on generalizing cs d done with
  | _ m ih =>
    rcases List.eq_nil_or_concat cs with rfl | ⟨front, c, rfl⟩
    · simp at h
    · rw [List.concat_eq_append] at h hlen ⊢
      rw [List.foldl_append, List.foldl_cons, List.foldl_nil] at h
      rw [List.length_append, List.length_singleton] at hlen
      rcases enter_cases (front.foldl enter []) c with hadd | ⟨x, hback⟩
      · -- the last step added `d`
        have hdone : front.foldl enter [] = done := by
          rw [h, List.cons.injEq] at hadd
          exact hadd.2.symm
        exact ⟨front.length, by omega, by rw [List.take_left, hdone]⟩
      · rw [h] at hback
        obtain ⟨k, hk, htake⟩ := ih front.length (by omega) hback rfl
        have hshort : (front.take k).length = k := by
          rw [List.length_take]
          omega
        obtain ⟨l, hl, hltake⟩ := ih k (by omega) htake hshort
        refine ⟨l, by omega, ?_⟩
        rw [List.take_append_of_le_length (by omega), ← hltake, List.take_take]
        congr 2
        omega

theorem key_eq (p : String) :
    key p = Path.build (Path.rootOf p) ((Path.components p).foldl enter []).reverse := by
  rw [key, resolve_eq]

theorem key_build {root : String} (hroot : Path.IsRoot root) (h : ∀ c ∈ cs, Path.IsComponent c) :
    key (Path.build root cs) = Path.build root (cs.foldl enter []).reverse := by
  rw [key_eq, Path.components_build hroot h, Path.rootOf_build hroot h]

/-- **The normal form of a path leads to the same file.** -/
theorem key_normal (p : String) : key (Path.normal p) = key p := by
  rw [key_eq, Path.components_normal, Path.rootOf_normal, key_eq p]

/-! ## Normal paths -/

/-- A path goes back only where it begins. -/
def Settled (cs : List String) : Prop :=
  cs.Pairwise fun a b => b = ".." → a = ".."

/-- **One step keeps a way settled.** It goes back only from a name, or where nothing but steps back
came before. -/
theorem Settled.enter (h : Settled done.reverse) (c : String) :
    Settled (Files.enter done c).reverse := by
  unfold Settled at h ⊢
  rw [List.pairwise_reverse] at h ⊢
  by_cases hc : c = ".."
  · cases done with
    | nil => simp [Files.enter, hc]
    | cons d ds =>
      obtain ⟨hd, hds⟩ := List.pairwise_cons.1 h
      by_cases hback : d = ".."
      · rw [Files.enter, if_pos hc]
        simp only [hback, if_true]
        refine List.pairwise_cons.2 ⟨fun a ha _ => ?_, hback ▸ h⟩
        rcases List.mem_cons.1 ha with ha | ha
        · exact ha
        · exact hd a ha hback
      · rw [Files.enter, if_pos hc]
        simpa only [hback, if_false] using hds
  · rw [enter_of_ne hc]
    exact List.pairwise_cons.2 ⟨fun a _ hback => absurd hback hc, h⟩

/-- And so do all steps of a path. -/
theorem Settled.foldl (h : Settled done.reverse) (cs : List String) :
    Settled (cs.foldl Files.enter done).reverse := by
  induction cs generalizing done with
  | nil => exact h
  | cons c cs ih => exact ih (h.enter c)

/-- A way that is settled leads on as it is written. -/
theorem foldl_enter_of_settled (h : Settled (done.reverse ++ cs)) :
    cs.foldl enter done = cs.reverse ++ done := by
  induction cs generalizing done with
  | nil => rfl
  | cons c cs ih =>
    have hstep : enter done c = c :: done := by
      by_cases hc : c = ".."
      · cases done with
        | nil => simp [enter, hc]
        | cons d ds =>
          have hd : d = ".." := (List.pairwise_append.1 h).2.2 d (by simp) c (by simp) hc
          simp [enter, hc, hd]
      · exact enter_of_ne hc
    have hrest : Settled ((c :: done).reverse ++ cs) := by
      rw [List.reverse_cons, List.append_assoc]
      exact h
    rw [List.foldl_cons, hstep, ih hrest, List.reverse_cons, List.append_assoc]
    rfl

/-- So do names, wherever they are gone on with. -/
theorem foldl_enter_of_not_mem (h : ".." ∉ cs) : cs.foldl enter done = cs.reverse ++ done := by
  induction cs generalizing done with
  | nil => rfl
  | cons c cs ih =>
    have hc : c ≠ ".." := fun heq => h (heq ▸ List.mem_cons_self)
    have hcs : ".." ∉ cs := fun hmem => h (List.mem_cons_of_mem c hmem)
    rw [List.foldl_cons, enter_of_ne hc, ih hcs, List.reverse_cons, List.append_assoc]
    rfl

theorem isComponent_of_resolved (p : String) :
    ∀ x ∈ ((Path.components p).foldl enter []).reverse, Path.IsComponent x := by
  intro x hx
  exact isComponent_of_mem_foldl (by simp) (fun y => Path.isComponent_of_mem) x
    (List.mem_reverse.1 hx)

theorem components_key (p : String) :
    Path.components (key p) = ((Path.components p).foldl enter []).reverse := by
  rw [key_eq, Path.components_build (Path.isRoot_rootOf p) (isComponent_of_resolved p)]

theorem rootOf_key (p : String) : Path.rootOf (key p) = Path.rootOf p := by
  rw [key_eq, Path.rootOf_build (Path.isRoot_rootOf p) (isComponent_of_resolved p)]

theorem settled_components_key (p : String) : Settled (Path.components (key p)) := by
  have hstart : Settled ([] : List String).reverse := List.Pairwise.nil
  rw [components_key]
  exact hstart.foldl _

/-- **A file is kept under its normal path**, which leads to it. -/
theorem key_key (p : String) : key (key p) = key p := by
  have hsettled : Settled ([].reverse ++ Path.components (key p)) := by
    rw [List.reverse_nil, List.nil_append]
    exact settled_components_key p
  rw [key_eq (key p), foldl_enter_of_settled hsettled, rootOf_key, List.append_nil,
    List.reverse_reverse, components_key, ← key_eq]

/-- A normal path is put together of its parts. -/
theorem build_of_key {k : String} (h : key k = k) :
    Path.build (Path.rootOf k) (Path.components k) = k := by
  have hparts := components_key k
  rw [h] at hparts
  rw [hparts, ← key_eq, h]

/-- A path that goes back to a file goes through the file. -/
theorem isBlocked_of_back (hcs : Path.components p = cs ++ [c])
    (hback : cs.foldl enter [] = d :: enter (cs.foldl enter []) c) (hfile : fs.isFile p = true) :
    fs.isBlocked p = true := by
  obtain ⟨n, hn, htake⟩ := exists_take_of_foldl hback
  have hparts : ∀ x ∈ cs.take n, Path.IsComponent x := by
    intro x hx
    apply Path.isComponent_of_mem (p := p)
    rw [hcs]
    exact List.mem_append_left _ (List.mem_of_mem_take hx)
  have hkey : key (Path.build (Path.rootOf p) (cs.take n)) = key p := by
    rw [key_build (Path.isRoot_rootOf p) hparts, htake, key_eq p, hcs, List.foldl_append]
    rfl
  have hthrough : fs.isFile (Path.build (Path.rootOf p) ((Path.components p).take n)) = true := by
    rw [hcs, List.take_append_of_le_length (by omega)]
    unfold isFile get? at hfile ⊢
    rw [hkey]
    exact hfile
  have hlt : n < (Path.components p).length := by
    rw [hcs, List.length_append]
    omega
  unfold isBlocked
  rw [Bool.or_eq_true]
  exact Or.inl (List.any_eq_true.2 ⟨n, List.mem_range.2 hlt, hthrough⟩)

/-- **The last step of a path that can be followed** adds its component, so
the file has it for its name. -/
theorem key_of_file (hcs : Path.components p = cs ++ [c]) (hfile : fs.isFile p = true)
    (hblocked : fs.isBlocked p = false) :
    key p = Path.build (Path.rootOf p) ((cs.foldl enter []).reverse ++ [c]) := by
  rcases enter_cases (cs.foldl enter []) c with hadd | ⟨d, hback⟩
  · rw [key_eq, hcs, List.foldl_append, List.foldl_cons, List.foldl_nil, hadd, List.reverse_cons]
  · rw [isBlocked_of_back hcs hback hfile] at hblocked
    exact absurd hblocked (by decide)

/-- So does a step that does not go back. -/
theorem key_build_of_ne {root : String} (hroot : Path.IsRoot root)
    (h : ∀ x ∈ cs ++ [c], Path.IsComponent x) (hc : c ≠ "..") :
    key (Path.build root (cs ++ [c])) = Path.build root ((cs.foldl enter []).reverse ++ [c]) := by
  rw [key_build hroot h, List.foldl_append, List.foldl_cons, List.foldl_nil, enter_of_ne hc,
    List.reverse_cons]

/-- **The path with a text written after its last component.** -/
theorem exists_withSuffix (hne : Path.components p ≠ []) (he : '/' ∉ e.toList)
    (hlong : 2 < e.length) :
    ∃ cs c, Path.components p = cs ++ [c] ∧ (∀ x ∈ cs ++ [c ++ e], Path.IsComponent x) ∧
      c ++ e ≠ ".." ∧
      Path.withSuffix p (Path.suffix p ++ e) = Path.build (Path.rootOf p) (cs ++ [c ++ e]) := by
  obtain ⟨cs, c, hcs⟩ : ∃ cs c, Path.components p = cs ++ [c] :=
    ⟨_, _, (List.dropLast_concat_getLast hne).symm⟩
  have hparts : ∀ x ∈ cs ++ [c], Path.IsComponent x := fun x hx =>
    Path.isComponent_of_mem (hcs ▸ hx)
  obtain ⟨hnew, hback⟩ := (hparts c (by simp)).append he hlong
  refine ⟨cs, c, hcs, ?_, hback, ?_⟩
  · intro x hx
    rcases List.mem_append.1 hx with hx | hx
    · exact hparts x (List.mem_append_left _ hx)
    · rwa [List.mem_singleton.1 hx]
  · have hname : Path.name p = c := by simp [Path.name, hcs]
    rw [Path.withSuffix_suffix, hname, hcs, List.dropLast_concat]

/-- **A text written after a path's last component** is written after the
name of the file, if the path can be followed. -/
theorem key_withSuffix (hne : Path.components p ≠ []) (hfile : fs.isFile p = true)
    (hblocked : fs.isBlocked p = false) (he : '/' ∉ e.toList) (hlong : 2 < e.length) :
    key (Path.withSuffix p (Path.suffix p ++ e)) = key p ++ e := by
  obtain ⟨cs, c, hcs, hparts, hback, hpath⟩ := exists_withSuffix hne he hlong
  rw [hpath, key_build_of_ne (Path.isRoot_rootOf p) hparts hback, key_of_file hcs hfile hblocked,
    Path.build_append]

/-- The two files are in one directory. -/
theorem parent_key_withSuffix (hne : Path.components p ≠ []) (hfile : fs.isFile p = true)
    (hblocked : fs.isBlocked p = false) (he : '/' ∉ e.toList) (hlong : 2 < e.length) :
    Path.parent (key (Path.withSuffix p (Path.suffix p ++ e))) = Path.parent (key p) := by
  obtain ⟨cs, c, hcs, hparts, hback, hpath⟩ := exists_withSuffix hne he hlong
  have hown : ∀ x ∈ cs ++ [c], Path.IsComponent x := fun x hx => Path.isComponent_of_mem (hcs ▸ hx)
  rw [hpath, key_build_of_ne (Path.isRoot_rootOf p) hparts hback, key_of_file hcs hfile hblocked,
    Path.parent_build (Path.isRoot_rootOf p) (isComponent_of_way hparts),
    Path.parent_build (Path.isRoot_rootOf p) (isComponent_of_way hown)]

/-- The way to the one is that to the other. -/
theorem isPassable_withSuffix (hne : Path.components p ≠ []) (he : '/' ∉ e.toList)
    (hlong : 2 < e.length) (h : fs.isPassable p = true) :
    fs.isPassable (Path.withSuffix p (Path.suffix p ++ e)) = true := by
  obtain ⟨cs, c, hcs, hparts, hback, hpath⟩ := exists_withSuffix hne he hlong
  have hroot := Path.isRoot_rootOf p
  unfold isPassable at h ⊢
  rw [hpath, Path.components_build hroot hparts, Path.rootOf_build hroot hparts]
  rw [hcs] at h
  simp only [List.all_eq_true, List.mem_range, Bool.or_eq_true, bne_iff_ne, beq_iff_eq,
    List.length_append, List.length_singleton] at h ⊢
  intro n hn
  rcases Nat.lt_or_ge (n + 1) cs.length with hlt | hge
  · have hsame := h n hn
    rwa [List.getElem?_append_left (by omega), List.getElem?_append_left hlt,
      List.take_append_of_le_length (by omega)] at hsame ⊢
  · -- behind the directories there is only the new name
    refine Or.inl (Or.inr ?_)
    rw [List.getElem?_append_right hge]
    intro hlast
    exact hback (List.mem_singleton.1 (List.mem_of_getElem? hlast)).symm

theorem endsWith_withSuffix (hne : Path.components p ≠ []) (he : '/' ∉ e.toList)
    (hlong : 2 < e.length) :
    Text.endsWith (Path.withSuffix p (Path.suffix p ++ e)) "/" = false := by
  obtain ⟨cs, c, -, -, -, hpath⟩ := exists_withSuffix hne he hlong
  rw [hpath, Path.build_append, Text.endsWith, String.toList_append, Bool.eq_false_iff, Ne,
    List.isSuffixOf_iff_suffix]
  intro hslash
  rcases List.suffix_or_suffix_of_suffix hslash (List.suffix_append _ e.toList) with h | h
  · exact he (h.subset (by decide))
  · have hlength := h.length_le
    rw [String.length_toList] at hlength
    exact absurd hlength (by simp; omega)

/-- A path without components is that of a directory. -/
theorem components_ne_nil (hdir : fs.isDir (Path.normal p) = false)
    (hend : Text.endsWith (Path.normal p) "/" = false) : Path.components (Path.normal p) ≠ [] := by
  rw [Path.components_normal]
  intro hnil
  unfold Path.normal at hdir hend
  rw [hnil] at hdir hend
  rcases Path.isRoot_rootOf p with hroot | hroot | hroot
  · rw [hroot] at hdir
    simp [isDir, show key (Path.build "" []) = "." from rfl] at hdir
  · rw [hroot] at hend
    exact absurd hend (by decide)
  · rw [hroot] at hend
    exact absurd hend (by decide)

end Files

end SecureReview
