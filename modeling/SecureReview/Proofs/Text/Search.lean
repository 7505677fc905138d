import Mathlib.Data.List.DropRight
import Mathlib.Data.List.Infix
import SecureReview.Text.Blank
import SecureReview.Text.Lines
/-!
# Occurrences and pieces

A search finds a text exactly where it occurs (`contains_iff`). A text
without a separator occurs on one side of it (`infix_append_cons_iff`), and
**a separator separates** also when a text is split at it
(`splitAtEach_append_cons`): the pieces have none, and put together again
they are the text (`join_splitAtEach`). So lines are read back from the text
that they were put in (`feedLines_unlines`).
-/

namespace SecureReview.Text

variable {sep : Char} {p s t : List Char}

/-! ## Occurrences -/

theorem occurs_iff : occurs p t = true ↔ p <:+: t := by
  unfold occurs
  induction t with
  | nil => cases p <;> simp [find?]
  | cons c t ih =>
    have hhere : p.isPrefixOf (c :: t) = true ↔ p <+: c :: t := List.isPrefixOf_iff_prefix
    rw [find?, List.infix_cons_iff, ← ih, ← hhere]
    split_ifs with h
    · simp [h]
    · simp [h]

theorem contains_iff {s p : String} : contains s p = true ↔ p.toList <:+: s.toList :=
  occurs_iff

/-! ## Texts on one side of a character -/

theorem prefix_append_cons_iff (h : sep ∉ p) : p <+: s ++ sep :: t ↔ p <+: s := by
  constructor
  · intro hp
    have hs : s <+: s ++ sep :: t := List.prefix_append _ _
    rcases Nat.le_total p.length s.length with hlength | hlength
    · exact List.prefix_of_prefix_length_le hp hs hlength
    · obtain ⟨rest, rfl⟩ := List.prefix_of_prefix_length_le hs hp hlength
      -- what is left over of `p` would begin with the separator
      cases rest with
      | nil => simp
      | cons d rest =>
        rw [List.prefix_append_right_inj, List.cons_prefix_cons] at hp
        exact absurd (by simp [hp.1]) h
  · intro hp
    exact hp.trans (List.prefix_append _ _)

/-- **A text without the separator** occurs on one side of it. -/
theorem infix_append_cons_iff (h : sep ∉ p) : p <:+: s ++ sep :: t ↔ p <:+: s ∨ p <:+: t := by
  induction s with
  | nil =>
    have hnil := prefix_append_cons_iff (s := []) (t := t) h
    rw [List.nil_append] at hnil ⊢
    rw [List.infix_cons_iff, hnil, List.prefix_nil, List.infix_nil]
  | cons c s ih =>
    have hcons := prefix_append_cons_iff (s := c :: s) (t := t) h
    rw [List.cons_append] at hcons ⊢
    rw [List.infix_cons_iff, List.infix_cons_iff, hcons, ih, or_assoc]

theorem infix_cons_iff_of_not_mem (hne : p ≠ []) (h : sep ∉ p) : p <:+: sep :: t ↔ p <:+: t := by
  have hcons := infix_append_cons_iff (s := []) (t := t) h
  rw [List.nil_append, List.infix_nil] at hcons
  rw [hcons]
  exact or_iff_right hne

/-- An occurrence begins where its first character is. -/
theorem infix_append_iff_of_not_mem (h : sep ∉ s) : sep :: p <:+: s ++ t ↔ sep :: p <:+: t := by
  induction s with
  | nil => rfl
  | cons c s ih =>
    obtain ⟨hc, hs⟩ := not_or.1 (List.mem_cons.not.1 h)
    rw [List.cons_append, List.infix_cons_iff, ih hs, List.cons_prefix_cons]
    exact or_iff_right fun hprefix => hc hprefix.1

/-! ## The last occurrence of a character -/

theorem lastIndex?_append_cons (h : sep ∉ t) (s : List Char) :
    lastIndex? sep (s ++ sep :: t) = some s.length := by
  have hnone : t.reverse.findIdx? (· == sep) = none := by
    rw [List.findIdx?_eq_none_iff]
    intro x hx
    have hne : x ≠ sep := fun hxc => h (hxc ▸ List.mem_reverse.1 hx)
    simpa using hne
  have hlength : (s ++ sep :: t).length - 1 - t.length = s.length := by
    simp only [List.length_append, List.length_cons]
    omega
  rw [lastIndex?, List.reverse_append, List.reverse_cons, List.append_assoc, List.findIdx?_append,
    hnone, Option.none_or, List.singleton_append, List.findIdx?_cons, beq_self_eq_true, if_pos rfl,
    Option.map_some, Option.map_some, List.length_reverse, Nat.zero_add, hlength]

/-- **The last occurrence of a character** is the one behind which there is no other. -/
theorem lastIndex?_eq_some_iff {i : ℕ} :
    lastIndex? sep t = some i ↔ ∃ s u, t = s ++ sep :: u ∧ sep ∉ u ∧ i = s.length := by
  constructor
  · intro h
    have hmem : sep ∈ t := by
      obtain ⟨k, hk, -⟩ := Option.map_eq_some_iff.1 h
      obtain ⟨hlt, hc, -⟩ := List.findIdx?_eq_some_iff_getElem.1 hk
      rw [← eq_of_beq hc]
      exact List.mem_reverse.1 (List.getElem_mem hlt)
    obtain ⟨u, s, hsplit, hu⟩ := List.eq_append_cons_of_mem (List.mem_reverse.2 hmem)
    have ht : t = s.reverse ++ sep :: u.reverse := by
      rw [← List.reverse_reverse t, hsplit]
      simp
    have hlast : sep ∉ u.reverse := fun hc => hu (List.mem_reverse.1 hc)
    rw [ht, lastIndex?_append_cons hlast] at h
    exact ⟨_, _, ht, hlast, (Option.some.inj h).symm⟩
  · rintro ⟨s, u, rfl, hu, rfl⟩
    exact lastIndex?_append_cons hu s

/-! ## Splitting at one character -/

theorem pieces_cons (sep c : Char) (t : List Char) :
    pieces [sep] 0 (c :: t) =
      if sep = c then ([], (pieces [sep] 0 t).1 :: (pieces [sep] 0 t).2)
      else (c :: (pieces [sep] 0 t).1, (pieces [sep] 0 t).2) := by
  simp [pieces, List.isPrefixOf]

/-- What is between the separators has none. -/
theorem not_mem_of_mem_splitAtEach (h : p ∈ splitAtEach [sep] t) : sep ∉ p := by
  unfold splitAtEach at h
  induction t generalizing p with
  | nil =>
    simp only [pieces, List.mem_singleton] at h
    simp [h]
  | cons c t ih =>
    rw [pieces_cons] at h
    split_ifs at h with hc
    · rcases List.mem_cons.1 h with rfl | h
      · exact List.not_mem_nil
      · exact ih h
    · rcases List.mem_cons.1 h with rfl | h
      · have hfirst := ih List.mem_cons_self
        intro hmem
        rcases List.mem_cons.1 hmem with hmem | hmem
        · exact hc hmem
        · exact hfirst hmem
      · exact ih (List.mem_cons_of_mem _ h)

theorem splitAtEach_of_not_mem (h : sep ∉ p) : splitAtEach [sep] p = [p] := by
  unfold splitAtEach
  induction p with
  | nil => rfl
  | cons c p ih =>
    obtain ⟨hc, hp⟩ := not_or.1 (List.mem_cons.not.1 h)
    have ih := ih hp
    simp only [List.cons.injEq] at ih
    rw [pieces_cons, if_neg hc, ih.1, ih.2]

/-- **A separator separates**: what is on either side of it is split by
itself. -/
theorem splitAtEach_append_cons (sep : Char) (s t : List Char) :
    splitAtEach [sep] (s ++ sep :: t) = splitAtEach [sep] s ++ splitAtEach [sep] t := by
  unfold splitAtEach
  induction s with
  | nil => rw [List.nil_append, pieces_cons, if_pos rfl, pieces, List.singleton_append]
  | cons c s ih =>
    obtain ⟨hfirst, hrest⟩ := List.cons.inj ih
    rw [List.cons_append, pieces_cons, pieces_cons]
    split_ifs with hc
    · exact congrArg ([] :: ·) ih
    · rw [hfirst, hrest]
      rfl

theorem splitAtEach_append (h : sep ∉ p) (t : List Char) :
    splitAtEach [sep] (p ++ sep :: t) = p :: splitAtEach [sep] t := by
  rw [splitAtEach_append_cons, splitAtEach_of_not_mem h, List.singleton_append]

theorem join_splitAtEach (sep : Char) (t : List Char) : join [sep] (splitAtEach [sep] t) = t := by
  unfold splitAtEach
  induction t with
  | nil => rfl
  | cons c t ih =>
    have hlonger (p : List Char) (ps : List (List Char)) :
        join [sep] ((c :: p) :: ps) = c :: join [sep] (p :: ps) := by cases ps <;> rfl
    rw [pieces_cons]
    split_ifs with hc
    · rw [join_cons _ _ (List.cons_ne_nil _ _), ih, hc]
      rfl
    · exact (hlonger _ _).trans (congrArg (c :: ·) ih)

theorem splitAtEach_join {ps : List (List Char)} (hne : ps ≠ []) (h : ∀ p ∈ ps, sep ∉ p) :
    splitAtEach [sep] (join [sep] ps) = ps := by
  induction ps with
  | nil => exact absurd rfl hne
  | cons p ps ih =>
    obtain ⟨hp, hps⟩ := List.forall_mem_cons.1 h
    by_cases hnil : ps = []
    · rw [hnil]
      exact splitAtEach_of_not_mem hp
    · rw [join_cons _ _ hnil, List.append_assoc, List.singleton_append, splitAtEach_append hp,
        ih hnil hps]

theorem toList_joinWith (sep : String) (ps : List String) :
    (joinWith sep ps).toList = join sep.toList (ps.map String.toList) := by
  induction ps with
  | nil => rfl
  | cons p ps ih =>
    cases ps with
    | nil => rfl
    | cons q ps =>
      rw [joinWith, String.toList_append, String.toList_append, ih]
      · rfl
      · exact List.cons_ne_nil q ps

theorem unlines_map_ofList (ls : List (List Char)) :
    unlines (ls.map String.ofList) = String.ofList (join ['\n'] ls) := by
  have htoList : String.toList ∘ String.ofList = id := funext fun _ => String.toList_ofList
  have hfeed : "\n".toList = ['\n'] := rfl
  rw [← String.toList_inj, unlines, toList_joinWith, hfeed, List.map_map, htoList, List.map_id,
    String.toList_ofList]

/-- **Lines are read back.** -/
theorem feedLines_unlines {ls : List String} (hne : ls ≠ []) (h : ∀ l ∈ ls, '\n' ∉ l.toList) :
    feedLines (unlines ls).toList = ls.map String.toList := by
  rw [feedLines, unlines, toList_joinWith]
  refine splitAtEach_join (List.map_eq_nil_iff.not.2 hne) fun p hp => ?_
  obtain ⟨l, hl, rfl⟩ := List.mem_map.1 hp
  exact h l hl

/-! ## Slices -/

/-- A part of a sequence between two of its positions. -/
theorem slice_natCast {α : Type} (xs : List α) (a b : ℕ) : slice xs a b = (xs.take b).drop a := by
  have hposition : ∀ i : ℕ, position xs.length i = min i xs.length := by
    intro i
    rw [position, if_neg (by omega), Int.toNat_natCast]
  have htake : xs.take (min b xs.length) = xs.take b := by
    rw [List.take_eq_take_iff]
    omega
  rw [slice, hposition, hposition, htake]
  rcases Nat.le_total a xs.length with ha | ha
  · rw [Nat.min_eq_left ha]
  · have hlength : (xs.take b).length ≤ xs.length := List.length_take_le' b xs
    rw [Nat.min_eq_right ha, List.drop_of_length_le hlength, List.drop_of_length_le (hlength.trans ha)]

/-! ## Blanks at the ends -/

theorem trim_cons_blank {c : Char} (h : isBlank c = true) (t : List Char) : trim (c :: t) = trim t := by
  rw [trim, List.dropWhile_cons_of_pos h, trim]

theorem trim_append_blank {c : Char} (h : isBlank c = true) (t : List Char) :
    trim (t ++ [c]) = trim t := by
  unfold trim
  rw [List.dropWhile_append]
  split_ifs with hblank
  · -- there was nothing but blanks before
    rw [List.isEmpty_iff.1 hblank, List.dropWhile_cons_of_pos h, List.dropWhile_nil]
  · exact List.rdropWhile_concat_pos isBlank _ c h

/-- A text that begins and ends with something else has no blanks to drop. -/
theorem trim_of_ends {c : Char} (ha : isBlank c = false) (hb : isBlank sep = false) (t : List Char) :
    trim (c :: t ++ [sep]) = c :: t ++ [sep] := by
  rw [trim, List.cons_append, List.dropWhile_cons_of_neg (by simp [ha]), ← List.cons_append]
  exact List.rdropWhile_concat_neg isBlank _ sep (by simp [hb])

/-- Something is left of a text that begins with something else. -/
theorem trim_cons_ne_nil {c : Char} (h : isBlank c = false) (t : List Char) : trim (c :: t) ≠ [] := by
  intro hnil
  rw [trim, List.dropWhile_cons_of_neg (by simp [h])] at hnil
  have hblank := List.rdropWhile_eq_nil_iff.1 hnil c List.mem_cons_self
  rw [h] at hblank
  cases hblank

theorem trim_eq_self (h : ∀ c ∈ t, isBlank c = false) : trim t = t := by
  have hkeep : ∀ u : List Char, (∀ c ∈ u, isBlank c = false) → u.dropWhile isBlank = u := by
    intro u hu
    cases u with
    | nil => rfl
    | cons c u => rw [List.dropWhile_cons_of_neg (by simp [hu c List.mem_cons_self])]
  rw [trim, dropRightWhile, hkeep t h, hkeep t.reverse fun c hc => h c (List.mem_reverse.1 hc),
    List.reverse_reverse]

end SecureReview.Text
