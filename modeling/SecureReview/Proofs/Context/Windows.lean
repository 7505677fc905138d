import SecureReview.Proofs.Context.Extraction
import SecureReview.Proofs.Text.Search
/-!
# Windows of lines

Where the structure of a file is of no use, the context of a line is a
window: some lines before it and some after it, as far as the text goes.
A window is cut out by positions, which count from zero and may lie past
the end of the text, and it is told by the numbers of its first and its
last line, which count from one. **Both mean the same lines**
(`slice_eq_numbered`), so the context shows exactly the lines that it tells
(`lineContext_shows_window`). This is what is shown of every file whose
structure does not lead to a place (`exists_extract_window`).
-/

namespace SecureReview.Context

variable {α β : Type} {path context : Json} {language source : String} {line around : Int} {w : World}

/-! ## Lines by their numbers -/

/-- The lines with the numbers from `first` to `last`. The first line of a
text has the number one. -/
def numbered (first last : Int) (lines : List α) : List α :=
  ((lines.zipIdx 1).filter fun l => first ≤ l.2 ∧ l.2 ≤ last).map Prod.fst

theorem numbered_map (f : α → β) (first last : Int) (lines : List α) :
    numbered first last (lines.map f) = (numbered first last lines).map f := by
  simp only [numbered, List.zipIdx_map, List.filter_map, List.map_map]
  rfl

/-- There are no lines past the end of a text. -/
theorem numbered_eq_nil_of_lt {first : Int} {lines : List α} (h : lines.length < first) (last : Int) :
    numbered first last lines = [] := by
  rw [numbered, List.map_eq_nil_iff, List.filter_eq_nil_iff]
  intro l hl
  have hnumber := List.snd_lt_add_of_mem_zipIdx hl
  simp only [decide_eq_true_eq, not_and]
  omega

/-- Members are selected by their numbers, which begin anywhere, just as they
are by taking and dropping. -/
theorem filter_zipIdx_eq (ls : List α) (k a b : ℕ) :
    ((ls.zipIdx k).filter fun l => a ≤ l.2 ∧ l.2 < b).map Prod.fst =
      (ls.take (b - k)).drop (a - k) := by
  induction ls generalizing k with
  | nil => simp
  | cons l ls ih =>
    -- the rest is numbered from one later on, so both bounds come one nearer
    have hrest := ih (k + 1)
    rw [List.zipIdx_cons, List.filter_cons]
    by_cases hb : k < b
    · have htake : b - k = b - (k + 1) + 1 := by omega
      rw [htake, List.take_succ_cons]
      by_cases ha : a ≤ k
      · have hdrop : a - k = 0 := by omega
        have hdrop' : a - (k + 1) = 0 := by omega
        rw [if_pos (by simp [ha, hb]), List.map_cons, hrest, hdrop, hdrop', List.drop_zero,
          List.drop_zero]
      · have hdrop : a - k = a - (k + 1) + 1 := by omega
        rw [if_neg (by simp [ha]), hrest, hdrop, List.drop_succ_cons]
    · have htake : b - k = 0 := by omega
      have htake' : b - (k + 1) = 0 := by omega
      rw [if_neg (by simp [hb]), hrest, htake, htake', List.take_zero, List.take_zero, List.drop_nil,
        List.drop_nil]

/-- **Positions and numbers mean the same lines.** A slice has the lines
after those that are skipped, up to and with the one that is last. -/
theorem slice_eq_numbered {skipped last : Int} (hskipped : 0 ≤ skipped) (hlast : 0 ≤ last)
    (lines : List α) : Text.slice lines skipped last = numbered (skipped + 1) last lines := by
  obtain ⟨a, rfl⟩ := Int.eq_ofNat_of_zero_le hskipped
  obtain ⟨b, rfl⟩ := Int.eq_ofNat_of_zero_le hlast
  have hnumbers : ∀ i : ℕ, ((a : Int) + 1 ≤ i ∧ (i : Int) ≤ b) ↔ (a + 1 ≤ i ∧ i < b + 1) := by
    intro i
    omega
  have hfilter := filter_zipIdx_eq lines 1 (a + 1) (b + 1)
  rw [Nat.add_sub_cancel, Nat.add_sub_cancel] at hfilter
  rw [Text.slice_natCast, ← hfilter, numbered]
  simp only [hnumbers]

/-! ## The window around a line -/

/-- A context shows the lines of a text from one number to another: these
lines are its text, and it tells the two numbers. -/
structure ShowsLines (source : String) (first last : Int) (context : Json) : Prop where
  start : context.get? "context_start_line" = some (.int first)
  stop : context.get? "context_end_line" = some (.int last)
  code : context.get? "context_code" =
    some (.str (Text.unlines (numbered first last (Text.lines source))))

/-- The number of the first line in a window. -/
theorem skipped_add_one (n : ℕ) (line around : Int) :
    (window n line around).skipped + 1 = max 1 (line - around) := by
  simp only [window]
  omega

/-- The text in a window is that of the lines from its first number to its
last. -/
theorem text_window (h : 0 ≤ line + around) (lines : List (List Char)) :
    String.ofList ((window lines.length line around).text lines) =
      Text.unlines (numbered (max 1 (line - around)) (min lines.length (line + around))
        (lines.map String.ofList)) := by
  have hskipped : 0 ≤ (window lines.length line around).skipped := Int.le_max_left _ _
  -- a negative end would be counted from the end of the text
  have hlast : 0 ≤ (window lines.length line around).last := Int.le_min.2 ⟨Int.natCast_nonneg _, h⟩
  have hslice := slice_eq_numbered hskipped hlast lines
  rw [skipped_add_one] at hslice
  rw [Window.text, hslice, numbered_map, Text.unlines_map_ofList]
  rfl

/-- The context of a line is the window around it, as far as the text goes. -/
theorem exists_lineContext (source : String) (h : 0 ≤ line + around) :
    ∃ context, lineContext source (.int line) around = .ok context ∧
      ShowsLines source (max 1 (line - around)) (min (Text.lines source).length (line + around))
        context := by
  have hlength : (Text.lines source).length = (Text.feedLines source.toList).length := by
    rw [Text.lines, List.length_map]
  rw [hlength]
  refine ⟨_, rfl, ?_, rfl, ?_⟩
  · rw [← skipped_add_one (Text.feedLines source.toList).length]
    rfl
  · rw [Text.lines, ← text_window h]
    rfl

/-- **The window is exact.** For every line and every number of lines around
it there is a context. It shows the lines from the first one around the line
to the last one, or from where the text begins and to where it ends, and
it is empty if they are all past the end. -/
theorem lineContext_shows_window (source : String) (hline : 1 ≤ line) (haround : 0 ≤ around) :
    ∃ context, lineContext source (.int line) around = .ok context ∧
      ShowsLines source (max 1 (line - around)) (min (Text.lines source).length (line + around))
        context ∧
      ((Text.lines source).length < line - around →
        context.get? "context_code" = some (.str "")) := by
  obtain ⟨context, hcontext, hshows⟩ := exists_lineContext source (show 0 ≤ line + around by omega)
  refine ⟨context, hcontext, hshows, ?_⟩
  intro hpast
  rw [hshows.code, numbered_eq_nil_of_lt (by omega)]
  rfl

/-- A window that the end of the text cuts short, and one that is past it. -/
theorem lineContext_shows_window_at_end :
    (Text.lines "a\nb\n\nd").length = 4 ∧
    (∃ context, lineContext "a\nb\n\nd" (.int 4) 1 = .ok context ∧
      ShowsLines "a\nb\n\nd" 3 4 context ∧ context.get? "context_code" = some (.str "\nd")) ∧
    ∃ context, lineContext "a\nb\n\nd" (.int 7) 2 = .ok context ∧
      ShowsLines "a\nb\n\nd" 5 4 context ∧ context.get? "context_code" = some (.str "") := by
  have hlength : (Text.lines "a\nb\n\nd").length = 4 := by decide +kernel
  refine ⟨hlength, ?_, ?_⟩
  · obtain ⟨context, hcontext, hshows, -⟩ :=
      lineContext_shows_window "a\nb\n\nd" (show (1 : Int) ≤ 4 by decide)
        (show (0 : Int) ≤ 1 by decide)
    rw [hlength] at hshows
    have hcode : Text.unlines (numbered 3 4 (Text.lines "a\nb\n\nd")) = "\nd" := by decide +kernel
    exact ⟨context, hcontext, hshows, hcode ▸ hshows.code⟩
  · obtain ⟨context, hcontext, hshows, hempty⟩ :=
      lineContext_shows_window "a\nb\n\nd" (show (1 : Int) ≤ 7 by decide)
        (show (0 : Int) ≤ 2 by decide)
    rw [hlength] at hshows hempty
    exact ⟨context, hcontext, hshows, hempty (by decide)⟩

/-! ## Files without a structure -/

/-- **The window is what is shown of a file** that can be read and whose
structure does not lead to a place: it is in another language, it cannot be
parsed, or the line is not in its tree. -/
theorem exists_extract_window (hread : readSource path w.files = .ok source)
    (hnot : ∀ root p, ¬ Leads path (.int line) language w source root p) (h : 0 ≤ line + around) :
    ∃ context w', (extract path (.int line) language around).run.run w = (.ok context, w') ∧
      ShowsLines source (max 1 (line - around)) (min (Text.lines source).length (line + around))
        context := by
  obtain ⟨context, hcontext, hshows⟩ := exists_lineContext source h
  obtain ⟨w', hrun⟩ := exists_lines hread hcontext hnot
  exact ⟨context, w', hrun, hshows⟩

end SecureReview.Context
