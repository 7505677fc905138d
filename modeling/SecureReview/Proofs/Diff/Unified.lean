import Mathlib.Data.List.Basic
import SecureReview.Diff.Unified
/-!
# Differences of texts

The search for the longest common stretch goes through a table, row by row;
`scan_induction` is the induction along its cells. What it finds is common
to both sequences (`cuts_longest`), so the matching blocks are common
stretches in order (`alignment_blocksFrom`), and **sequences between which
nothing is changed are equal** (`Alignment.eq_of_unchanged`).

A sequence compared with itself has its longest stretch on the diagonal,
also where popular elements start none, and from there it extends over the
whole (`longest_self`). So the difference of two texts is empty exactly if
they are equal (`unified_eq_empty_iff`).
-/

namespace SecureReview

namespace Diff

variable {α : Type} [BEq α] {usable : α → Bool} {as bs : List α} {i j : ℕ}

/-! ## The table of a search -/

/-- The length of the common beginning of two sequences, as far as it is made
of usable elements. -/
def usableLead (usable : α → Bool) : List α → List α → ℕ
  | a :: as, b :: bs => if b == a && usable b then usableLead usable as bs + 1 else 0
  | _, _ => 0

/-- The length of the usable common stretch that ends at two positions. -/
def cell (usable : α → Bool) (as bs : List α) (i j : ℕ) : ℕ :=
  usableLead usable (as.take (i + 1)).reverse (bs.take (j + 1)).reverse

/-- The stretch of a cell. -/
def cellBlock (usable : α → Bool) (as bs : List α) (i j : ℕ) : Block :=
  ⟨i + 1 - cell usable as bs i j, j + 1 - cell usable as bs i j, cell usable as bs i j⟩

/-- A cell goes on from the one before it in both sequences. -/
theorem cell_eq (hi : i < as.length) (hj : j < bs.length) :
    cell usable as bs i j = if bs[j] == as[i] && usable bs[j] then
      usableLead usable (as.take i).reverse (bs.take j).reverse + 1 else 0 := by
  rw [cell, List.take_succ_eq_append_getElem hi, List.take_succ_eq_append_getElem hj,
    List.reverse_append, List.reverse_append]
  rfl

theorem length_nextRow (usable : α → Bool) (a : α) (bs : List α) (prev : List ℕ) :
    (nextRow usable a bs prev).length = bs.length := by
  induction bs generalizing prev with
  | nil => rfl
  | cons b bs ih => rw [nextRow, List.length_cons, List.length_cons, ih]

theorem getD_nextRow (a : α) (prev : List ℕ) (h : j < bs.length) :
    (nextRow usable a bs prev).getD j 0 =
      if bs[j] == a && usable bs[j] then prev.getD j 0 + 1 else 0 := by
  induction bs generalizing prev j with
  | nil => exact absurd h (Nat.not_lt_zero j)
  | cons b bs ih =>
    cases j with
    | zero => cases prev <;> rfl
    | succ j =>
      have hj : j < bs.length := Nat.lt_of_succ_lt_succ h
      have htail : prev.tail.getD j 0 = prev.getD (j + 1) 0 := by cases prev <;> simp
      rw [nextRow, List.getD_cons_succ, ih prev.tail hj, htail]
      rfl

/-- **A row of the search has the cells of its position.** -/
theorem getD_nextRow_eq_cell {row : List ℕ} (hi : i < as.length)
    (hrow : ∀ j < bs.length,
      row.getD j 0 = usableLead usable (as.take i).reverse (bs.take (j + 1)).reverse)
    (hj : j < bs.length) :
    (nextRow usable as[i] bs (0 :: row)).getD j 0 = cell usable as bs i j := by
  have hprev : (0 :: row).getD j 0 = usableLead usable (as.take i).reverse (bs.take j).reverse := by
    cases j with
    | zero => cases (as.take i).reverse <;> rfl
    | succ j => exact hrow j (by omega)
  rw [getD_nextRow _ _ hj, cell_eq hi hj, hprev]

/-- **Induction along a row.** -/
theorem bestInRow_induction {P : ℕ → Block → Prop} {row : List ℕ} {best : Block}
    (hrow : ∀ k < row.length, row.getD k 0 = cell usable as bs i (j + k)) (start : P j best)
    (step : ∀ k best, k < j + row.length → P k best →
      P (k + 1) (if best.size < cell usable as bs i k then cellBlock usable as bs i k else best)) :
    P (j + row.length) (bestInRow i j row best) := by
  induction row generalizing j best with
  | nil => exact start
  | cons k row ih =>
    have hk : k = cell usable as bs i j := hrow 0 (Nat.succ_pos _)
    have hfirst := step j best (by simp) start
    rw [List.length_cons, ← Nat.add_assoc, Nat.add_right_comm]
    refine ih (fun l hl => ?_) ?_ fun l best hl => step l best ?_
    · have hnext := hrow (l + 1) (Nat.succ_lt_succ hl)
      rw [List.getD_cons_succ] at hnext
      rw [hnext, Nat.add_right_comm, Nat.add_assoc]
    · rw [hk]
      exact hfirst
    · rw [List.length_cons]
      omega

/-- **Induction along a search.** It goes through the table cell by cell and
takes a stretch that is longer than the best so far. -/
theorem scan_induction {P : ℕ → ℕ → Block → Prop} (start : P 0 0 ⟨0, 0, 0⟩)
    (step : ∀ i j best, i < as.length → j < bs.length → P i j best →
      P i (j + 1)
        (if best.size < cell usable as bs i j then cellBlock usable as bs i j else best))
    (next : ∀ i best, i < as.length → P i bs.length best → P (i + 1) 0 best) :
    P as.length 0 (bestOfRows usable bs 0 as [] ⟨0, 0, 0⟩) := by
  -- the same of the rows from position `i` on
  suffices hrows : ∀ rest i row best, as.drop i = rest → i ≤ as.length →
      (∀ j < bs.length,
        row.getD j 0 = usableLead usable (as.take i).reverse (bs.take (j + 1)).reverse) →
      P i 0 best → P as.length 0 (bestOfRows usable bs i rest row best) from
    hrows as 0 [] ⟨0, 0, 0⟩ rfl (Nat.zero_le _) (fun _ _ => rfl) start
  intro rest
  induction rest with
  | nil =>
    intro i row best hrest hle _ hP
    obtain rfl : i = as.length := Nat.le_antisymm hle (List.drop_eq_nil_iff.1 hrest)
    exact hP
  | cons a rest ih =>
    intro i row best hrest hle hrow hP
    have hi : i < as.length := by
      rw [← List.drop_eq_nil_iff.not.trans Nat.not_le, hrest]
      exact List.cons_ne_nil a rest
    obtain ⟨rfl, hrest'⟩ : as[i] = a ∧ as.drop (i + 1) = rest := by
      rw [List.drop_eq_getElem_cons hi] at hrest
      exact List.cons.inj hrest
    have hlength := length_nextRow usable as[i] bs (0 :: row)
    have hline : P i bs.length
        (bestInRow i 0 (nextRow usable as[i] bs (0 :: row)) best) := by
      rw [← hlength, ← Nat.zero_add (List.length _)]
      refine bestInRow_induction (fun k hk => ?_) hP fun k best hk => step i k best hi ?_
      · rw [Nat.zero_add]
        exact getD_nextRow_eq_cell hi hrow (hlength ▸ hk)
      · rw [← hlength, ← Nat.zero_add (List.length _)]
        exact hk
    exact ih (i + 1) _ _ hrest' hi (fun j => getD_nextRow_eq_cell hi hrow) (next i _ hi hline)

omit [BEq α] in
theorem take_cut (a u c : List α) : (a ++ u ++ c).take a.length = a := by
  rw [List.append_assoc, List.take_left]

omit [BEq α] in
theorem drop_cut (a u c : List α) : (a ++ u ++ c).drop (a.length + u.length) = c := by
  rw [← List.length_append, List.drop_left]

/-- How the stretch that is found is extended. -/
theorem longest_eq {a b u c d : List α} (has : as = a ++ u ++ c) (hbs : bs = b ++ u ++ d)
    (h : bestOfRows usable bs 0 as [] ⟨0, 0, 0⟩ = ⟨a.length, b.length, u.length⟩) :
    longest usable as bs =
      ⟨a.length - commonLead a.reverse b.reverse, b.length - commonLead a.reverse b.reverse,
        commonLead a.reverse b.reverse + u.length + commonLead c d⟩ := by
  rw [longest, h, has, hbs]
  simp only [take_cut, drop_cut]

/-! ## Common stretches -/

variable [LawfulBEq α]

theorem commonLead_eq (as bs : List α) : commonLead as bs = usableLead (fun _ => true) as bs := by
  induction as generalizing bs with
  | nil => cases bs <;> rfl
  | cons a as ih =>
    cases bs with
    | nil => rfl
    | cons b bs => rw [commonLead, usableLead, ih, Bool.and_true, BEq.comm]

/-- The common beginning is a beginning of both. -/
theorem exists_usableLead (usable : α → Bool) (as bs : List α) :
    ∃ u as' bs', as = u ++ as' ∧ bs = u ++ bs' ∧ u.length = usableLead usable as bs ∧
      ∀ x ∈ u, usable x = true := by
  induction as generalizing bs with
  | nil => exact ⟨[], [], bs, rfl, rfl, by cases bs <;> rfl, by simp⟩
  | cons a as ih =>
    cases bs with
    | nil => exact ⟨[], a :: as, [], rfl, rfl, rfl, by simp⟩
    | cons b bs =>
      by_cases hab : (b == a && usable b) = true
      · obtain ⟨u, as', bs', rfl, rfl, hu, hall⟩ := ih bs
        obtain ⟨hb, husable⟩ := Bool.and_eq_true_iff.1 hab
        obtain rfl : b = a := beq_iff_eq.1 hb
        refine ⟨b :: u, as', bs', rfl, rfl, ?_, List.forall_mem_cons.2 ⟨husable, hall⟩⟩
        simp only [usableLead, if_pos hab, List.length_cons, hu]
      · refine ⟨[], a :: as, b :: bs, rfl, rfl, ?_, by simp⟩
        simp only [usableLead, if_neg hab, List.length_nil]

/-- A stretch that is common to two sequences. -/
def Cuts (as bs : List α) (m : Block) : Prop :=
  ∃ a b u c d, as = a ++ u ++ c ∧ bs = b ++ u ++ d ∧ m = ⟨a.length, b.length, u.length⟩

/-- The stretch of a cell is common. -/
theorem cuts_cellBlock (hi : i < as.length) (hj : j < bs.length) :
    Cuts as bs (cellBlock usable as bs i j) := by
  obtain ⟨u, a, b, ha, hb, hu, -⟩ :=
    exists_usableLead usable (as.take (i + 1)).reverse (bs.take (j + 1)).reverse
  rw [List.reverse_eq_append_iff] at ha hb
  have hcell : cell usable as bs i j = u.length := hu.symm
  refine ⟨a.reverse, b.reverse, u.reverse, as.drop (i + 1), bs.drop (j + 1), ?_, ?_, ?_⟩
  · rw [← ha, List.take_append_drop]
  · rw [← hb, List.take_append_drop]
  · have hai := congrArg List.length ha
    have hbj := congrArg List.length hb
    simp only [List.length_take, List.length_append, List.length_reverse] at hai hbj ⊢
    rw [cellBlock, hcell, Block.mk.injEq]
    omega

/-- So is the one that a search finds. -/
theorem cuts_bestOfRows (usable : α → Bool) (as bs : List α) :
    Cuts as bs (bestOfRows usable bs 0 as [] ⟨0, 0, 0⟩) := by
  refine scan_induction (P := fun _ _ best => Cuts as bs best) ?_ ?_ fun _ _ _ h => h
  · exact ⟨[], [], [], as, bs, rfl, rfl, rfl⟩
  · intro i j best hi hj h
    split
    · exact cuts_cellBlock hi hj
    · exact h

/-- **The longest stretch is common**, also where it was extended. -/
theorem cuts_longest (usable : α → Bool) (as bs : List α) : Cuts as bs (longest usable as bs) := by
  obtain ⟨a, b, u, c, d, has, hbs, hm⟩ := cuts_bestOfRows usable as bs
  rw [longest_eq has hbs hm, commonLead_eq, commonLead_eq]
  obtain ⟨x, a', b', ha, hb, hx, -⟩ := exists_usableLead (fun _ => true) a.reverse b.reverse
  obtain ⟨y, c', d', rfl, rfl, hy, -⟩ := exists_usableLead (fun _ => true) c d
  rw [← hx, ← hy]
  rw [List.reverse_eq_append_iff] at ha hb
  refine ⟨a'.reverse, b'.reverse, x.reverse ++ u ++ y, c', d', ?_, ?_, ?_⟩
  · simp [has, ha]
  · simp [hbs, hb]
  · simp [ha, hb, Nat.add_assoc]

/-! ## A sequence compared with itself -/

/-- Of a sequence and itself every usable beginning is common. -/
theorem length_le_usableLead {u : List α} (h : ∀ x ∈ u, usable x = true) (t : List α) :
    u.length ≤ usableLead usable (u ++ t) (u ++ t) := by
  induction u with
  | nil => exact Nat.zero_le _
  | cons x u ih =>
    obtain ⟨hx, hu⟩ := List.forall_mem_cons.1 h
    simpa [usableLead, hx] using ih hu

/-- A cell is no longer than those of the diagonal in its row and its column. -/
theorem cell_le_diagonal (usable : α → Bool) (as : List α) (i j : ℕ) :
    cell usable as as i j ≤ cell usable as as i i ∧
      cell usable as as i j ≤ cell usable as as j j := by
  unfold cell
  obtain ⟨u, as', bs', hi, hj, hu, hall⟩ :=
    exists_usableLead usable (as.take (i + 1)).reverse (as.take (j + 1)).reverse
  rw [← hu, hi, hj]
  exact ⟨length_le_usableLead hall as', length_le_usableLead hall bs'⟩

/-- **A search in a sequence for itself stays on the diagonal.** To a cell off
the diagonal it comes after one on it that is at least as long. -/
theorem bestOfRows_self (usable : α → Bool) (as : List α) :
    (bestOfRows usable as 0 as [] ⟨0, 0, 0⟩).i = (bestOfRows usable as 0 as [] ⟨0, 0, 0⟩).j := by
  refine (scan_induction (P := fun i j best => best.i = best.j ∧
    ∀ k, k < i ∨ k = i ∧ k < j → cell usable as as k k ≤ best.size) ?_ ?_ ?_).1
  · exact ⟨rfl, fun k hk => by omega⟩
  · rintro i j best - - ⟨heq, hbest⟩
    obtain ⟨hrow, hcolumn⟩ := cell_le_diagonal usable as i j
    split_ifs with hlonger
    · obtain rfl : i = j := by
        rcases Nat.lt_trichotomy i j with hlt | heq | hgt
        · have := hbest i (Or.inr ⟨rfl, hlt⟩)
          omega
        · exact heq
        · have := hbest j (Or.inl hgt)
          omega
      refine ⟨rfl, fun k hk => ?_⟩
      by_cases hki : k = i
      · rw [hki]
        exact Nat.le_refl _
      · have hold := hbest k (by omega)
        exact Nat.le_trans hold (Nat.le_of_lt hlonger)
    · refine ⟨heq, fun k hk => ?_⟩
      by_cases hkj : k = i ∧ k = j
      · obtain ⟨rfl, rfl⟩ := hkj
        omega
      · exact hbest k (by omega)
  · rintro i best hi ⟨heq, hbest⟩
    exact ⟨heq, fun k hk => hbest k (by omega)⟩

theorem commonLead_self (as : List α) : commonLead as as = as.length := by
  induction as with
  | nil => rfl
  | cons a as ih => simp [commonLead, ih]

/-- **A sequence is its own longest common stretch.** -/
theorem longest_self (usable : α → Bool) (as : List α) :
    longest usable as as = ⟨0, 0, as.length⟩ := by
  have hsame := bestOfRows_self usable as
  obtain ⟨a, b, u, c, d, ha, hb, hm⟩ := cuts_bestOfRows usable as as
  rw [hm] at hsame
  obtain ⟨hfront, rfl⟩ := List.append_inj (ha.symm.trans hb) (by simpa using hsame)
  obtain ⟨rfl, -⟩ := List.append_inj hfront hsame
  rw [longest_eq ha ha hm, commonLead_self, commonLead_self, List.length_reverse, Block.mk.injEq,
    ha, List.length_append, List.length_append]
  omega

/-! ## Matching blocks -/

omit [BEq α] [LawfulBEq α]

/-- Common stretches of two sequences that start at the positions `i` and `j`,
from left to right. -/
inductive Alignment : ℕ → ℕ → List α → List α → List Block → Prop where
  | nil {i j : ℕ} {as bs : List α} : Alignment i j as bs []
  | cons {i j : ℕ} {m : Block} {ms : List Block} (a b u : List α) {c d : List α}
      (hi : m.i = i + a.length) (hj : m.j = j + b.length) (hsize : m.size = u.length)
      (rest : Alignment (m.i + m.size) (m.j + m.size) c d ms) :
      Alignment i j (a ++ u ++ c) (b ++ u ++ d) (m :: ms)

namespace Alignment

variable {a b c d : List α} {m : Block} {ms ns : List Block}

/-- What comes before may be passed over. -/
theorem skip (h : Alignment (i + a.length) (j + b.length) c d ms) :
    Alignment i j (a ++ c) (b ++ d) ms := by
  cases h with
  | nil => exact .nil
  | cons a' b' u hi hj hsize rest =>
    have hall := Alignment.cons (i := i) (j := j) (a ++ a') (b ++ b') u
      (by rw [hi, List.length_append, Nat.add_assoc])
      (by rw [hj, List.length_append, Nat.add_assoc]) hsize rest
    simpa only [List.append_assoc] using hall

/-- Stretches of the parts are stretches of the whole. -/
theorem append (h : Alignment i j a b ms) (hrest : Alignment (i + a.length) (j + b.length) c d ns) :
    Alignment i j (a ++ c) (b ++ d) (ms ++ ns) := by
  induction h with
  | nil => exact hrest.skip
  | @cons i j m ms a b u c' d' hi hj hsize rest ih =>
    have hsum (x y : List α) (k : ℕ) :
        k + (x ++ u ++ y).length = k + x.length + u.length + y.length := by
      simp only [List.length_append, Nat.add_assoc]
    rw [hsum, hsum, ← hi, ← hj, ← hsize] at hrest
    have hall := Alignment.cons a b u hi hj hsize (ih hrest)
    simpa only [List.append_assoc, List.cons_append] using hall

/-- **Joining stretches that touch** leaves common stretches. -/
theorem joinBlocks (h : Alignment i j as bs (m :: ms)) :
    Alignment i j as bs (joinBlocks m ms) := by
  induction ms generalizing m i j as bs with
  | nil =>
    rw [Diff.joinBlocks]
    split_ifs
    · exact .nil
    · exact h
  | cons n ms ih =>
    obtain _ | ⟨a, b, u, hi, hj, hsize, rest⟩ := h
    rw [Diff.joinBlocks]
    split_ifs with htouch hempty
    · obtain _ | ⟨a', b', u', hi', hj', hsize', rest'⟩ := rest
      simp only [Bool.and_eq_true, beq_iff_eq] at htouch
      obtain rfl : a' = [] := List.eq_nil_of_length_eq_zero (by omega)
      obtain rfl : b' = [] := List.eq_nil_of_length_eq_zero (by omega)
      rw [← htouch.1, ← htouch.2, Nat.add_assoc, Nat.add_assoc] at rest'
      have hjoined := Alignment.cons (m := ⟨m.i, m.j, m.size + n.size⟩) a b (u ++ u') hi hj
        (by rw [List.length_append, hsize, hsize']) rest'
      exact ih (by simpa using hjoined)
    · obtain rfl : u = [] := List.eq_nil_of_length_eq_zero (by simpa [← hsize] using hempty)
      rw [hsize, List.length_nil, Nat.add_zero, Nat.add_zero, hi, hj] at rest
      rw [List.append_nil, List.append_nil]
      exact ih rest.skip
    · exact .cons a b u hi hj hsize (ih rest)

end Alignment

/-- What the edits up to the first stretch say, if they change nothing. -/
theorem unchanged_cons {m : Block} {ms : List Block}
    (h : ∀ e ∈ editsFrom i j (m :: ms), e.tag = .equal) :
    m.i ≤ i ∧ m.j ≤ j ∧ ∀ e ∈ editsFrom (m.i + m.size) (m.j + m.size) ms, e.tag = .equal := by
  rw [editsFrom, List.forall_mem_append, List.forall_mem_append] at h
  obtain ⟨⟨hchange, -⟩, hrest⟩ := h
  have hnone : ¬ i < m.i ∧ ¬ j < m.j := by
    split_ifs at hchange <;> simp_all
  exact ⟨Nat.not_lt.1 hnone.1, Nat.not_lt.1 hnone.2, hrest⟩

/-- **Where nothing is changed the sequences are equal.** -/
theorem Alignment.eq_of_unchanged {ms : List Block} (h : Alignment i j as bs ms)
    (hequal : ∀ e ∈ editsFrom i j (ms ++ [⟨i + as.length, j + bs.length, 0⟩]), e.tag = .equal) :
    as = bs := by
  induction h with
  | @nil i j as bs =>
    obtain ⟨has, hbs, -⟩ := unchanged_cons hequal
    obtain rfl : as = [] := List.eq_nil_of_length_eq_zero (by simp only at has; omega)
    obtain rfl : bs = [] := List.eq_nil_of_length_eq_zero (by simp only at hbs; omega)
    rfl
  | @cons i j m ms a b u c d hi hj hsize rest ih =>
    obtain ⟨ha, hb, hequal⟩ := unchanged_cons hequal
    obtain rfl : a = [] := List.eq_nil_of_length_eq_zero (by omega)
    obtain rfl : b = [] := List.eq_nil_of_length_eq_zero (by omega)
    have hend (k : ℕ) (x : List α) :
        k + ([] ++ u ++ x).length = k + ([] : List α).length + m.size + x.length := by
      simp [hsize, Nat.add_assoc]
    rw [hend, hend, ← hi, ← hj] at hequal
    rw [ih hequal]

variable [BEq α] [LawfulBEq α]

/-- The matching blocks are common stretches, from left to right. -/
theorem alignment_blocksFrom (usable : α → Bool) (as bs : List α) (i j : ℕ) :
    Alignment i j as bs (blocksFrom usable as bs i j) := by
  fun_induction blocksFrom usable as bs i j with
  | case1 as bs i j m h ih₁ ih₂ =>
    obtain ⟨a, b, u, c, d, rfl, rfl, hm⟩ := cuts_longest usable as bs
    change m = _ at hm
    clear_value m
    subst hm
    simp only [take_cut, drop_cut] at ih₁ ih₂ ⊢
    have hstretch := Alignment.cons (i := i + a.length) (j := j + b.length)
      (m := ⟨i + a.length, j + b.length, u.length⟩) [] [] u rfl rfl rfl ih₂
    rw [List.append_assoc, List.append_assoc]
    exact ih₁.append hstretch
  | case2 as bs i j m h => exact .nil

/-- **Texts between which nothing is changed are equal.** -/
theorem eq_of_edits_equal (h : ∀ e ∈ edits as bs, e.tag = .equal) : as = bs := by
  have hblocks := alignment_blocksFrom (fun b => !isPopular bs b) as bs 0 0
  have hstart := Alignment.cons (i := 0) (j := 0) (m := ⟨0, 0, 0⟩) [] [] [] rfl rfl rfl hblocks
  refine hstart.joinBlocks.eq_of_unchanged ?_
  simpa [edits, blocks] using h

/-- The blocks of a sequence and itself are one. -/
theorem blocksFrom_self (usable : α → Bool) (as : List α) :
    blocksFrom usable as as 0 0 = if as = [] then [] else [⟨0, 0, as.length⟩] := by
  have hnil (i j : ℕ) : blocksFrom usable ([] : List α) [] i j = [] := by
    rw [blocksFrom, dif_neg (by simp [longest_self])]
  split_ifs with has
  · rw [has, hnil]
  · have hlength : 0 < as.length := List.length_pos_iff.2 has
    rw [blocksFrom, dif_pos (by simp [longest_self, hlength])]
    simp [longest_self, hnil]

/-- **Between a sequence and itself nothing is changed**: there is one edit at
most. -/
theorem edits_self (as : List α) :
    edits as as = if as = [] then [] else [⟨.equal, 0, as.length, 0, as.length⟩] := by
  rw [edits, blocks, blocksFrom_self]
  split_ifs with has
  · simp [has, joinBlocks, editsFrom]
  · simp [has, joinBlocks, editsFrom]

/-! ## Groups of edits -/

omit [BEq α] [LawfulBEq α]

variable {es group : List Edit}

@[simp] theorem tag_headOnly (e : Edit) : e.headOnly.tag = e.tag := by
  unfold Edit.headOnly
  split_ifs <;> rfl

@[simp] theorem tag_tailOnly (e : Edit) : e.tailOnly.tag = e.tag := by
  unfold Edit.tailOnly
  split_ifs <;> rfl

/-- Shortening the edits at the ends keeps what they do. -/
theorem map_tag_trimEnds (h : es ≠ []) : (trimEnds es).map Edit.tag = es.map Edit.tag := by
  obtain ⟨e, rest, rfl⟩ := List.exists_cons_of_ne_nil h
  rw [trimEnds]
  obtain ⟨l, ls, hlast⟩ := List.exists_cons_of_ne_nil
    (List.reverse_ne_nil_iff.2 (List.cons_ne_nil e.tailOnly rest))
  rw [hlast]
  have htags := congrArg (List.map Edit.tag) (List.reverse_eq_iff.1 hlast)
  simp only [List.map_reverse, List.map_cons, tag_tailOnly] at htags
  simp only [List.map_reverse, List.map_cons, tag_headOnly, htags]

/-- Without a group that is shown, all edits would make up one that is not. -/
theorem isShown_of_groupsFrom (h : groupsFrom group es = []) : isShown (group ++ es) = false := by
  induction es generalizing group with
  | nil =>
    rw [groupsFrom] at h
    split_ifs at h with hshown
    rw [List.append_nil]
    exact Bool.eq_false_iff.2 hshown
  | cons e es ih =>
    rw [groupsFrom] at h
    split_ifs at h with hlong
    rw [List.append_cons]
    exact ih h

theorem unchanged_of_not_isShown (h : isShown es = false) : ∀ t ∈ es.map Edit.tag, t = .equal := by
  rcases es with _ | ⟨e, _ | ⟨e', es⟩⟩
  · simp
  · simpa [isShown] using h
  · cases h

/-- **Where no group is shown nothing is changed.** -/
theorem unchanged_of_groups (h : groups es = []) : ∀ e ∈ es, e.tag = .equal := by
  by_cases hne : es = []
  · simp [hne]
  · have htags := unchanged_of_not_isShown (isShown_of_groupsFrom h)
    rw [List.nil_append, map_tag_trimEnds hne] at htags
    exact fun e he => htags e.tag (List.mem_map_of_mem he)

theorem groups_of_equal (n : ℕ) : groups [⟨.equal, 0, n, 0, n⟩] = [] := by
  have hshort : ¬ 6 < min n (n - 3 + 3) - (n - 3) := by omega
  simp [groups, trimEnds, groupsFrom, Edit.tailOnly, Edit.headOnly, context, isShown, hshort]

/-! ## Empty differences -/

/-- **The difference of two sequences of lines** is empty exactly if they are
the same. -/
theorem unifiedLines_eq_nil_iff {as bs : List (List Char)} : unifiedLines as bs = [] ↔ as = bs := by
  constructor
  · intro h
    apply eq_of_edits_equal
    apply unchanged_of_groups
    rw [unifiedLines] at h
    split at h
    · assumption
    · simp at h
  · rintro rfl
    have hgroups : groups (edits as as) = [] := by
      rw [edits_self]
      split_ifs
      · rfl
      · exact groups_of_equal as.length
    rw [unifiedLines, hgroups]

/-- **The difference of two texts** is empty exactly if they are equal. -/
theorem unified_eq_empty_iff (old fixed : String) : unified old fixed = "" ↔ old = fixed := by
  rw [unified, String.ofList_eq_empty_iff, unifiedLines_eq_nil_iff]
  constructor
  · intro h
    have htext := congrArg List.flatten h
    rw [Text.flatten_fullLines, Text.flatten_fullLines] at htext
    exact String.toList_inj.1 htext
  · rintro rfl
    rfl

end Diff

end SecureReview
