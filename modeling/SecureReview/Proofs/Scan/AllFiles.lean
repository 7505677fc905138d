import Mathlib.Data.List.Nodup
import SecureReview.Proofs.World.Files
import SecureReview.Scan.Changes
import SecureReview.World.Reader
/-!
# Listings of a repository

A visit of a directory finds each file below it once, by the names on the
way to it (`mem_visit`, `nodup_visit`). A listing leaves out what is in an
ignored directory, but it looks for the ignored names anywhere in the text
of a directory's path. They have no slash, so **one of them occurs in a path
exactly if it occurs in a component of it** (`isIgnored_iff`): in the name of
a directory on the way, as in `.github`, or in the path of the repository
itself.
-/

namespace SecureReview

namespace Path

variable {n p : String} {q : List String}

/-! ## Going on from a path -/

/-- What a file or a directory can be called. -/
def IsName (n : String) : Prop :=
  IsComponent n ∧ n ≠ ".."

/-- **A slash separates** also the components of a path. -/
theorem components_append (p q : String) :
    components (p ++ "/" ++ q) = components p ++ components q := by
  have htext : (p ++ "/" ++ q).toList = p.toList ++ '/' :: q.toList := by
    rw [String.toList_append, String.toList_append, List.append_assoc]
    rfl
  have hsplit : Text.splitAtEach "/".toList (p.toList ++ '/' :: q.toList) =
      Text.splitAtEach "/".toList p.toList ++ Text.splitAtEach "/".toList q.toList :=
    Text.splitAtEach_append_cons '/' p.toList q.toList
  rw [components, Text.split, htext, hsplit, List.map_append, List.filter_append]
  rfl

theorem components_of_isComponent (hn : IsComponent n) : components n = [n] := by
  have hparts : ∀ c ∈ [n], IsComponent c := by simpa using hn
  have hone : Text.joinWith "/" [n] = n := rfl
  have hjoin := components_joinWith hparts
  rw [hone] at hjoin
  exact hjoin

theorem startsWith_slash (hn : IsComponent n) : Text.startsWith n "/" = false := by
  rw [Text.startsWith, Bool.eq_false_iff, Ne, List.isPrefixOf_iff_prefix]
  intro hslash
  exact hn.1 (hslash.subset List.mem_cons_self)

/-- Going on by a name adds it. -/
theorem components_join (p : String) (hn : IsComponent n) :
    components (join p n) = components p ++ [n] := by
  rw [join, if_neg (by rw [startsWith_slash hn]; decide)]
  split_ifs with hend
  · rw [Bool.or_eq_true, beq_iff_eq] at hend
    rcases hend with rfl | hslash
    · rw [String.empty_append, components_of_isComponent hn]
      rfl
    · -- the slash that the path ends with separates
      obtain ⟨front, hfront⟩ := List.isSuffixOf_iff_suffix.1 hslash
      obtain rfl : p = String.ofList front ++ "/" := by
        rw [← String.toList_inj, String.toList_append, String.toList_ofList]
        exact hfront.symm
      have hclosed := components_append (String.ofList front) ""
      rw [String.append_empty] at hclosed
      rw [components_append, hclosed, components_of_isComponent hn, List.append_assoc]
      rfl
  · rw [components_append, components_of_isComponent hn]

/-- Only the slashes before any other character count for the root. -/
theorem rootOf_append_cons {x : Char} (hx : x ≠ '/') (s t : List Char) :
    rootOf (String.ofList (s ++ x :: t)) = rootOf (String.ofList s) := by
  have hlead (k : String) (hk : x ∉ k.toList) :
      Text.startsWith (String.ofList (s ++ x :: t)) k = Text.startsWith (String.ofList s) k := by
    rw [Text.startsWith, Text.startsWith, String.toList_ofList, String.toList_ofList, Bool.eq_iff_iff,
      List.isPrefixOf_iff_prefix, List.isPrefixOf_iff_prefix, Text.prefix_append_cons_iff hk]
  unfold rootOf
  rw [hlead "///" (by simp [hx]), hlead "//" (by simp [hx]), hlead "/" (by simp [hx])]

theorem rootOf_join (p : String) (hn : IsComponent n) : rootOf (join p n) = rootOf p := by
  obtain ⟨x, xs, hname, hx⟩ : ∃ x xs, n.toList = x :: xs ∧ x ≠ '/' := by
    cases hlist : n.toList with
    | nil => exact absurd (String.toList_eq_nil_iff.1 hlist) hn.2.1
    | cons x xs => exact ⟨x, xs, rfl, fun hx => hn.1 (hlist ▸ hx ▸ List.mem_cons_self)⟩
  rw [join, if_neg (by rw [startsWith_slash hn]; decide)]
  split_ifs with hend
  · have hjoined : p ++ n = String.ofList (p.toList ++ x :: xs) := by
      rw [← hname, String.ofList_append, String.ofList_toList, String.ofList_toList]
    rw [hjoined, rootOf_append_cons hx, String.ofList_toList]
  · -- the last character of the path is none of the slashes it begins with
    simp only [Bool.or_eq_true, beq_iff_eq, not_or] at hend
    obtain ⟨s, y, hlast⟩ : ∃ s y, p.toList = s ++ [y] := by
      rcases List.eq_nil_or_concat p.toList with hnil | ⟨s, y, hs⟩
      · exact absurd (String.toList_eq_nil_iff.1 hnil) hend.1
      · exact ⟨s, y, by rw [hs, List.concat_eq_append]⟩
    have hy : y ≠ '/' := by
      rintro rfl
      exact hend.2 (List.isSuffixOf_iff_suffix.2 ⟨s, hlast.symm⟩)
    have hjoined : p ++ "/" ++ n = String.ofList (s ++ y :: '/' :: n.toList) := by
      rw [← String.toList_inj]
      simp [hlast]
    have hown : p = String.ofList (s ++ y :: []) := by rw [← hlast, String.ofList_toList]
    rw [hjoined, rootOf_append_cons hy, hown, rootOf_append_cons hy]

/-- **Going on by names** adds them one after the other. -/
theorem components_foldl_join (p : String) (hq : ∀ n ∈ q, IsName n) :
    components (q.foldl join p) = components p ++ q ∧ rootOf (q.foldl join p) = rootOf p := by
  induction q generalizing p with
  | nil => exact ⟨(List.append_nil _).symm, rfl⟩
  | cons n q ih =>
    obtain ⟨hn, hrest⟩ := List.forall_mem_cons.1 hq
    obtain ⟨hcomponents, hroot⟩ := ih (join p n) hrest
    rw [List.foldl_cons, hcomponents, hroot, components_join p hn.1, rootOf_join p hn.1,
      List.append_assoc]
    exact ⟨rfl, rfl⟩

end Path

namespace Files

variable {fs : Files} {d k : String} {q : List String}

open SecureReview.Path (IsName)

/-! ## Visits -/

theorem not_mem_of_isName (hq : ∀ n ∈ q, IsName n) : ".." ∉ q :=
  fun hback => (hq ".." hback).2 rfl

/-- The file that names lead to is kept under the names behind the directory. -/
theorem components_key_foldl_join (d : String) (hq : ∀ n ∈ q, IsName n) :
    Path.components (key (q.foldl Path.join d)) = Path.components (key d) ++ q := by
  rw [components_key, (Path.components_foldl_join d hq).1, List.foldl_append,
    foldl_enter_of_not_mem (not_mem_of_isName hq), List.reverse_append, List.reverse_reverse,
    ← components_key]

/-- **What lies below a directory** by some names is what the names lead to. -/
theorem isBelow_and_relative_iff (hk : key k = k) :
    isBelow (key d) k = true ∧ relative (key d) k = q ↔
      q ≠ [] ∧ (∀ n ∈ q, IsName n) ∧ k = key (q.foldl Path.join d) := by
  constructor
  · rintro ⟨hbelow, hq⟩
    obtain ⟨hroot, c, cs, hparts, hc⟩ := isBelow_iff.1 hbelow
    rw [relative, hparts, List.drop_left] at hq
    subst hq
    have hnames : ∀ n ∈ c :: cs, IsName n := by
      intro n hn
      refine ⟨Path.isComponent_of_mem (p := k) (hparts ▸ List.mem_append_right _ hn), ?_⟩
      rcases List.mem_cons.1 hn with rfl | hn
      · exact hc
      · -- a step back behind the name `c` would have been undone
        have hsettled := settled_components_key k
        rw [hk, hparts] at hsettled
        obtain ⟨hlater, -⟩ := List.pairwise_cons.1 (List.pairwise_append.1 hsettled).2.1
        exact fun hback => hc (hlater n hn hback)
    refine ⟨List.cons_ne_nil c cs, hnames, ?_⟩
    rw [← build_of_key hk, ← build_of_key (key_key ((c :: cs).foldl Path.join d)),
      components_key_foldl_join d hnames, hparts, hroot, rootOf_key, rootOf_key,
      (Path.components_foldl_join d hnames).2]
  · rintro ⟨hne, hnames, rfl⟩
    have hparts := components_key_foldl_join d hnames
    obtain ⟨c, cs, rfl⟩ := List.exists_cons_of_ne_nil hne
    refine ⟨isBelow_iff.2 ⟨?_, c, cs, hparts, (hnames c List.mem_cons_self).2⟩, ?_⟩
    · rw [rootOf_key, rootOf_key, (Path.components_foldl_join d hnames).2]
    · rw [relative, hparts, List.drop_left]

/-- Names go back from nothing, so they can be followed if the directory can be reached. -/
theorem isPassable_foldl_join (fs : Files) (d : String) (hq : ∀ n ∈ q, IsName n) :
    fs.isPassable (q.foldl Path.join d) = fs.isPassable d := by
  obtain ⟨hparts, hroot⟩ := Path.components_foldl_join d hq
  have hback := not_mem_of_isName hq
  unfold isPassable
  rw [hparts, hroot]
  generalize Path.components d = cs
  rw [Bool.eq_iff_iff]
  simp only [List.all_eq_true, List.mem_range, Bool.or_eq_true, bne_iff_ne, beq_iff_eq,
    List.length_append]
  constructor
  · intro h n hn
    have hsame := h n (by omega)
    rcases Nat.lt_or_ge (n + 1) cs.length with hlt | hge
    · rwa [List.getElem?_append_left (by omega), List.getElem?_append_left hlt,
        List.take_append_of_le_length (by omega)] at hsame
    · refine Or.inl (Or.inr ?_)
      rw [List.getElem?_eq_none hge]
      exact fun hnone => nomatch hnone
  · intro h n hn
    rcases Nat.lt_or_ge (n + 1) cs.length with hlt | hge
    · have hsame := h n (by omega)
      rwa [List.getElem?_append_left (by omega), List.getElem?_append_left hlt,
        List.take_append_of_le_length (by omega)]
    · refine Or.inl (Or.inr ?_)
      rw [List.getElem?_append_right hge]
      exact fun hlast => hback (List.mem_of_getElem? hlast)

/-- **A visit finds the files below a directory**, each by the names that lead to it. -/
theorem mem_visit (hfs : fs.Proper) :
    q ∈ fs.visit d ↔ q ≠ [] ∧ (∀ n ∈ q, IsName n) ∧ fs.hasFile (q.foldl Path.join d) = true := by
  have hentry (e : String × List UInt8) (he : e ∈ fs.entries) :
      isBelow (key d) e.1 = true ∧ relative (key d) e.1 = q ↔
        q ≠ [] ∧ (∀ n ∈ q, IsName n) ∧ e.1 = key (q.foldl Path.join d) :=
    isBelow_and_relative_iff (hfs.normal e he)
  have hfile : q ∈ ((fs.entries.filter fun e => isBelow (key d) e.1).map fun e =>
      relative (key d) e.1) ↔
        q ≠ [] ∧ (∀ n ∈ q, IsName n) ∧ fs.isFile (q.foldl Path.join d) = true := by
    rw [isFile_iff]
    simp only [List.mem_map, List.mem_filter, and_assoc]
    constructor
    · rintro ⟨e, he, hbelow⟩
      obtain ⟨hne, hnames, hkey⟩ := (hentry e he).1 hbelow
      exact ⟨hne, hnames, e, he, hkey⟩
    · rintro ⟨hne, hnames, e, he, hkey⟩
      exact ⟨e, he, (hentry e he).2 ⟨hne, hnames, hkey⟩⟩
  unfold visit hasFile
  split_ifs with hpass
  · rw [List.mem_mergeSort, hfile]
    refine and_congr_right fun _ => and_congr_right fun hnames => ?_
    rw [isPassable_foldl_join fs d hnames, hpass, Bool.true_and]
  · rw [Bool.not_eq_true] at hpass
    refine iff_of_false List.not_mem_nil ?_
    rintro ⟨-, hnames, hhas⟩
    rw [isPassable_foldl_join fs d hnames, hpass] at hhas
    cases hhas

/-- **And each file once.** -/
theorem nodup_visit (hfs : fs.Proper) (d : String) : (fs.visit d).Nodup := by
  unfold visit
  split_ifs
  · have hpaths : ((fs.entries.filter fun e => isBelow (key d) e.1).map Prod.fst).Nodup :=
      hfs.once.sublist (List.filter_sublist.map Prod.fst)
    rw [(List.mergeSort_perm _ _).nodup_iff]
    have hmap : ((fs.entries.filter fun e => isBelow (key d) e.1).map fun e =>
        relative (key d) e.1) = ((fs.entries.filter fun e => isBelow (key d) e.1).map Prod.fst).map
          (relative (key d)) := by
      rw [List.map_map, Function.comp_def]
    rw [hmap]
    refine hpaths.map_on fun k hk l hl hsame => ?_
    obtain ⟨e, he, rfl⟩ := List.mem_map.1 hk
    obtain ⟨e', he', rfl⟩ := List.mem_map.1 hl
    obtain ⟨hentry, hbelow⟩ := List.mem_filter.1 he
    obtain ⟨hentry', hbelow'⟩ := List.mem_filter.1 he'
    -- two files with the same names behind the directory are what these names lead to
    have hkey := (isBelow_and_relative_iff (hfs.normal e hentry)).1 ⟨hbelow, hsame⟩
    have hkey' := (isBelow_and_relative_iff (hfs.normal e' hentry')).1 ⟨hbelow', rfl⟩
    exact hkey.2.2.trans hkey'.2.2.symm
  · exact List.nodup_nil

/-- The files of a description are kept under normal paths. -/
theorem proper_ofJson (v : Json) : (ofJson v).Proper := by
  have hputs : ∀ (entries : List (String × Json)) (fs : Files), fs.Proper →
      (entries.foldl (fun fs e => fs.put e.1 (contentOf e.2)) fs).Proper := by
    intro entries
    induction entries with
    | nil => exact fun fs hfs => hfs
    | cons e entries ih => exact fun fs hfs => ih _ (hfs.put e.1 _)
  exact hputs v.entries {} proper_empty

end Files

/-! ## Marks in a path -/

namespace Text

variable {sep : Char} {p t : List Char}

theorem infix_join_iff (hne : p ≠ []) (hsep : sep ∉ p) (ps : List (List Char)) :
    p <:+: join [sep] ps ↔ ∃ x ∈ ps, p <:+: x := by
  induction ps with
  | nil =>
    have hnil : ¬ p <:+: [] := fun h => hne (List.infix_nil.1 h)
    simpa [join] using hnil
  | cons x ps ih =>
    by_cases hps : ps = []
    · simp [hps, join]
    · rw [join_cons _ _ hps, List.append_assoc, List.singleton_append, infix_append_cons_iff hsep, ih]
      simp

/-- **A text without the separator** occurs in one of the pieces. -/
theorem infix_iff_splitAtEach (hne : p ≠ []) (hsep : sep ∉ p) :
    p <:+: t ↔ ∃ x ∈ splitAtEach [sep] t, p <:+: x := by
  rw [← infix_join_iff hne hsep, join_splitAtEach]

end Text

/-- A text of two characters or more, without a slash, occurs in a path exactly if it occurs in a
component. -/
theorem Path.infix_iff_components {mark : String} (hslash : '/' ∉ mark.toList)
    (hlong : 2 ≤ mark.length) (p : String) :
    mark.toList <:+: p.toList ↔ ∃ c ∈ components p, mark.toList <:+: c.toList := by
  have hlength : 2 ≤ mark.toList.length := by rwa [String.length_toList]
  have hne : mark.toList ≠ [] := List.ne_nil_of_length_pos (by omega)
  have hpieces : mark.toList <:+: p.toList ↔
      ∃ x ∈ Text.splitAtEach "/".toList p.toList, mark.toList <:+: x :=
    Text.infix_iff_splitAtEach hne hslash
  rw [hpieces, components, Text.split]
  simp only [List.mem_filter, List.mem_map, Bool.and_eq_true, bne_iff_ne, ne_eq]
  constructor
  · rintro ⟨x, hx, hmark⟩
    -- what is left out of the components is shorter than the mark
    have hshort := hlength.trans hmark.length_le
    refine ⟨String.ofList x, ⟨⟨x, hx, rfl⟩, fun hempty => ?_, fun hdot => ?_⟩, ?_⟩
    · rw [← String.toList_inj, String.toList_ofList] at hempty
      rw [hempty] at hshort
      exact absurd hshort (by decide)
    · rw [← String.toList_inj, String.toList_ofList] at hdot
      rw [hdot] at hshort
      exact absurd hshort (by decide)
    · rwa [String.toList_ofList]
  · rintro ⟨c, ⟨⟨x, hx, rfl⟩, -⟩, hmark⟩
    rw [String.toList_ofList] at hmark
    exact ⟨x, hx, hmark⟩

namespace Scan.Repository

variable {r : Repository} {fs : Files} {endings q : List String}

open SecureReview.Path (IsName)

theorem mem_ignored {mark : String} (h : mark ∈ ignored) :
    '/' ∉ mark.toList ∧ 2 ≤ mark.length := by
  simp only [ignored, List.mem_cons, List.not_mem_nil, or_false] at h
  rcases h with rfl | rfl | rfl | rfl | rfl <;> decide

/-- **A directory is ignored** exactly if one of the ignored names occurs in a component of its
path. -/
theorem isIgnored_iff (dir : String) : isIgnored dir = true ↔
    ∃ c ∈ Path.components dir, ∃ mark ∈ ignored, mark.toList <:+: c.toList := by
  rw [isIgnored, List.any_eq_true]
  constructor
  · rintro ⟨mark, hmark, hoccurs⟩
    obtain ⟨hslash, hlong⟩ := mem_ignored hmark
    obtain ⟨c, hc, hin⟩ :=
      (Path.infix_iff_components hslash hlong dir).1 (Text.contains_iff.1 hoccurs)
    exact ⟨c, hc, mark, hmark, hin⟩
  · rintro ⟨c, hc, mark, hmark, hin⟩
    obtain ⟨hslash, hlong⟩ := mem_ignored hmark
    exact ⟨mark, hmark,
      Text.contains_iff.2 ((Path.infix_iff_components hslash hlong dir).2 ⟨c, hc, hin⟩)⟩

/-! ## Listings -/

/-- The names lead from the repository to a file with one of the endings, if any are given. -/
structure Offers (r : Repository) (endings : List String) (fs : Files) (q : List String) : Prop where
  below : q ≠ []
  names : ∀ n ∈ q, IsName n
  file : fs.hasFile (r.reach q) = true
  ending : endings = [] ∨ ∃ e ∈ endings, ∃ n, q.getLast? = some n ∧ e.toList <:+ n.toList

/-- One of the ignored names occurs in the path of the repository or in one of these names. -/
def IsMarked (r : Repository) (names : List String) : Prop :=
  ∃ c ∈ Path.components r.path ++ names, ∃ mark ∈ ignored, mark.toList <:+: c.toList

theorem hasEnding_iff (hne : q ≠ []) : hasEnding endings (q.getLast?.getD "") = true ↔
    endings = [] ∨ ∃ e ∈ endings, ∃ n, q.getLast? = some n ∧ e.toList <:+ n.toList := by
  obtain ⟨n, hlast⟩ := Option.ne_none_iff_exists'.1 (List.getLast?_eq_none_iff.not.2 hne)
  rw [hasEnding, hlast, Bool.or_eq_true, List.isEmpty_iff, List.any_eq_true]
  simp [Text.endsWith, List.isSuffixOf_iff_suffix]

/-- **What is listed**: the files below the repository with one of the endings, unless an ignored name
occurs on the way. -/
theorem mem_allFiles (hfs : fs.Proper) (r : Repository) (endings : List String) (path : String) :
    path ∈ r.allFiles endings fs ↔
      ∃ q, r.Offers endings fs q ∧ ¬ r.IsMarked q.dropLast ∧ path = r.reach q := by
  have hmarked (q : List String) (hq : ∀ n ∈ q, IsName n) :
      isIgnored (r.reach q.dropLast) = true ↔ r.IsMarked q.dropLast := by
    have hfront : ∀ n ∈ q.dropLast, IsName n := fun n hn => hq n (List.mem_of_mem_dropLast hn)
    rw [isIgnored_iff, reach, (Path.components_foldl_join r.path hfront).1, IsMarked]
  simp only [allFiles, List.mem_map, List.mem_filter, Bool.and_eq_true, Bool.not_eq_true',
    Files.mem_visit hfs]
  constructor
  · rintro ⟨q, ⟨⟨hne, hnames, hfile⟩, hkept, hending⟩, rfl⟩
    refine ⟨q, ⟨hne, hnames, hfile, (hasEnding_iff hne).1 hending⟩, fun hmark => ?_, rfl⟩
    rw [(hmarked q hnames).2 hmark] at hkept
    cases hkept
  · rintro ⟨q, hq, hmark, rfl⟩
    refine ⟨q, ⟨⟨hq.below, hq.names, hq.file⟩, ?_, (hasEnding_iff hq.below).2 hq.ending⟩, rfl⟩
    rw [Bool.eq_false_iff, Ne, hmarked q hq.names]
    exact hmark

/-- Different names lead to different paths. -/
theorem reach_inj {q' : List String} (hq : ∀ n ∈ q, IsName n) (hq' : ∀ n ∈ q', IsName n)
    (h : r.reach q = r.reach q') : q = q' := by
  have hparts := congrArg Path.components h
  rw [reach, reach, (Path.components_foldl_join r.path hq).1,
    (Path.components_foldl_join r.path hq').1] at hparts
  exact List.append_cancel_left hparts

theorem nodup_allFiles (hfs : fs.Proper) (r : Repository) (endings : List String) :
    (r.allFiles endings fs).Nodup := by
  refine ((Files.nodup_visit hfs r.path).filter _).map_on fun q hq q' hq' hsame => ?_
  have hnames := ((Files.mem_visit hfs).1 (List.mem_of_mem_filter hq)).2.1
  have hnames' := ((Files.mem_visit hfs).1 (List.mem_of_mem_filter hq')).2.1
  exact reach_inj hnames hnames' hsame

/-- **When a listing leaves out just the ignored directories.** Every path is listed once, and what is
listed are the files below the repository with one of the endings, unless an ignored name occurs in
the path of the repository or in the name of a directory on the way. That is: unless a directory on
the way has an ignored name, exactly if no other file has an ignored name occur on the way to it. -/
theorem allFiles_exact_iff (hfs : fs.Proper) (r : Repository) (endings : List String) :
    (r.allFiles endings fs).Nodup ∧
    (∀ path, path ∈ r.allFiles endings fs ↔
      ∃ q, r.Offers endings fs q ∧ ¬ r.IsMarked q.dropLast ∧ path = r.reach q) ∧
    ((∀ path, path ∈ r.allFiles endings fs ↔
        ∃ q, r.Offers endings fs q ∧ (∀ d ∈ q.dropLast, d ∉ ignored) ∧ path = r.reach q) ↔
      ∀ q, r.Offers endings fs q → r.IsMarked q.dropLast → ∃ d ∈ q.dropLast, d ∈ ignored) := by
  refine ⟨nodup_allFiles hfs r endings, mem_allFiles hfs r endings, fun hexact q hq hmark => ?_,
    fun hmarks path => ?_⟩
  · -- a file that should be listed is listed by its own names, which are marked
    by_contra hnone
    push Not at hnone
    obtain ⟨q', hq', hunmarked, hsame⟩ :=
      (mem_allFiles hfs r endings _).1 ((hexact _).2 ⟨q, hq, hnone, rfl⟩)
    obtain rfl := reach_inj hq.names hq'.names hsame
    exact hunmarked hmark
  · rw [mem_allFiles hfs]
    refine exists_congr fun q => and_congr_right fun hq => and_congr_left fun _ => ?_
    constructor
    · intro hunmarked d hd hignored
      exact hunmarked ⟨d, List.mem_append_right _ hd, d, hignored, List.infix_rfl⟩
    · intro hnone hmark
      obtain ⟨d, hd, hignored⟩ := hmarks q hq hmark
      exact hnone d hd hignored

/-! ## Small repositories -/

/-- The names stand behind the repository in the path of a file. -/
theorem Offers.exists_path (h : r.Offers endings fs q) :
    ∃ k ∈ fs.entries.map Prod.fst,
      Path.components k = Path.components (Files.key r.path) ++ q :=
  ⟨_, Files.isFile_iff.1 (Bool.and_eq_true_iff.1 h.file).2,
    Files.components_key_foldl_join r.path h.names⟩

def smallRepository : Repository :=
  ⟨"r", false⟩

/-- A file in the repository, and one in an ignored directory. -/
def smallTree : Files :=
  Files.ofJson (.obj [("r/a.py", .str "import md5"), ("r/venv/b.py", .str "")])

/-- The file in the directory `venv` is left out, and nothing else is. -/
theorem allFiles_exact_small : smallTree.Proper ∧
    ∀ path, path ∈ smallRepository.allFiles [".py"] smallTree ↔
      ∃ q, smallRepository.Offers [".py"] smallTree q ∧ (∀ d ∈ q.dropLast, d ∉ ignored) ∧
        path = smallRepository.reach q := by
  have hproper : smallTree.Proper := Files.proper_ofJson _
  refine ⟨hproper, (allFiles_exact_iff hproper smallRepository [".py"]).2.2.2 fun q hq hmark => ?_⟩
  obtain ⟨k, hk, hparts⟩ := hq.exists_path
  have hpaths : smallTree.entries.map Prod.fst = ["r/a.py", "r/venv/b.py"] := rfl
  rw [hpaths, List.mem_pair] at hk
  rcases hk with rfl | rfl
  · have hnames : ["r"] ++ ["a.py"] = ["r"] ++ q := hparts
    obtain rfl := List.append_cancel_left hnames
    -- the name of the repository is too short for a mark
    obtain ⟨c, hc, mark, hignored, hin⟩ := hmark
    obtain rfl : c = "r" := List.mem_singleton.1 hc
    have hlength := hin.length_le
    have hlong := (mem_ignored hignored).2
    rw [String.length_toList, String.length_toList] at hlength
    exact absurd (hlong.trans hlength) (by decide)
  · have hnames : ["r"] ++ ["venv", "b.py"] = ["r"] ++ q := hparts
    obtain rfl := List.append_cancel_left hnames
    exact ⟨"venv", by decide, by decide⟩

/-- A file in a directory that has no ignored name. -/
def workflowTree : Files :=
  Files.ofJson (.obj [("r/.github/y.py", .str "x")])

/-- **A directory that only resembles an ignored one is left out**: `.git` occurs in `.github`. -/
theorem allFiles_skips_github : workflowTree.Proper ∧
    smallRepository.Offers [] workflowTree [".github", "y.py"] ∧
    (∀ d ∈ [".github", "y.py"].dropLast, d ∉ ignored) ∧
    smallRepository.allFiles [] workflowTree = [] := by
  have hproper : workflowTree.Proper := Files.proper_ofJson _
  refine ⟨hproper, ⟨List.cons_ne_nil _ _, ?_, by decide +kernel, Or.inl rfl⟩, ?_, ?_⟩
  · simp [IsName, Path.IsComponent]
  · simp [ignored]
  · refine List.eq_nil_iff_forall_not_mem.2 fun path hpath => ?_
    obtain ⟨q, hq, hunmarked, -⟩ := (mem_allFiles hproper _ _ _).1 hpath
    obtain ⟨k, hk, hparts⟩ := hq.exists_path
    have hpaths : workflowTree.entries.map Prod.fst = ["r/.github/y.py"] := rfl
    rw [hpaths, List.mem_singleton] at hk
    subst hk
    have hnames : ["r"] ++ [".github", "y.py"] = ["r"] ++ q := hparts
    obtain rfl := List.append_cancel_left hnames
    exact hunmarked ⟨".github", by decide, ".git", by decide, [], "hub".toList, rfl⟩

end Scan.Repository

end SecureReview
