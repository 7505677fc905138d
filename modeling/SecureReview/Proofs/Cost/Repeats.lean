import SecureReview.Proofs.Cost.Breakdown
import SecureReview.Proofs.Cost.Queries
import SecureReview.Proofs.World.Run
/-!
# Costs that are recorded twice

An entry is kept under its own text, so a charge that is recorded again
at the same microsecond leaves the store as it was. What a query about a
span finds of the recordings of one month is therefore **each entry once**
(`mem_entries_of_answers`), and the repetitions are lost (`exists_lost`),
with their tokens. A query that cannot be gone through, or that leaves
the month out, finds nothing (`entries_of_not_answers`).
-/

namespace SecureReview

namespace CostLedger

open DateTime

variable {l : CostLedger} {s : Store} {rs : List Recording} {e : CostEntry}
variable {start stop : DateTime} {k : ℕ}

/-! ## Entries of a history -/

/-- The entries of a history of recordings, in their order. A charge that is
refused has none. -/
def recorded (rs : List Recording) : List CostEntry :=
  rs.filterMap fun r => (CostEntry.ofCharge r.now r.charge).toOption

theorem mem_recorded :
    e ∈ recorded rs ↔ ∃ r ∈ rs, CostEntry.ofCharge r.now r.charge = .ok e := by
  simp only [recorded, List.mem_filterMap, Run.except_toOption_eq_some]

theorem length_recorded (hvalid : ∀ r ∈ rs, ∃ e, CostEntry.ofCharge r.now r.charge = .ok e) :
    (recorded rs).length = rs.length := by
  induction rs with
  | nil => rfl
  | cons r rs ih =>
    obtain ⟨⟨e, he⟩, hrest⟩ := List.forall_mem_cons.1 hvalid
    have hhead : (CostEntry.ofCharge r.now r.charge).toOption = some e :=
      Run.except_toOption_eq_some.2 he
    have hcons : recorded (r :: rs) = e :: recorded rs := by
      simp only [recorded, List.filterMap_cons, hhead]
    rw [hcons, List.length_cons, List.length_cons, ih hrest]

/-- **What is lost** when each entry is found once: the repetitions. -/
theorem exists_lost {found all : List CostEntry} (hnodup : found.Nodup)
    (hsame : ∀ e, e ∈ found ↔ e ∈ all) :
    ∃ lost, (found ++ lost).Perm all ∧ (∀ e ∈ lost, e ∈ found) ∧
      (found.length = all.length ↔ all.Nodup) := by
  obtain ⟨found', hfound, hsub⟩ := hnodup.subperm fun e he => (hsame e).1 he
  obtain ⟨lost, hrest⟩ := hsub.exists_perm_append
  have hperm : all.Perm (found ++ lost) := hrest.trans (hfound.append_right lost)
  have hlost : ∀ e ∈ lost, e ∈ found := by
    intro e he
    rw [hsame, hperm.mem_iff]
    exact List.mem_append_right _ he
  have hlength : found.length + lost.length = all.length := by
    rw [← List.length_append, hperm.length_eq]
  refine ⟨lost, hperm.symm, hlost, ?_⟩
  constructor
  · intro hall
    have hnil : lost = [] := List.eq_nil_of_length_eq_zero (by omega)
    rw [hperm.nodup_iff, hnil, List.append_nil]
    exact hnodup
  · intro hdistinct
    -- a repetition would be in both parts
    have hdisjoint := List.disjoint_of_nodup_append (hperm.nodup_iff.1 hdistinct)
    have hnil : lost = [] := List.eq_nil_iff_forall_not_mem.2 fun e he =>
      hdisjoint (hlost e he) he
    rw [hnil, List.length_nil] at hlength
    omega

/-! ## Spans that have an answer -/

/-- **A span has an answer for a month**: its start has a number of seconds,
it ends before the last month of the calendar, and the month is gone
through. -/
structure Answers (start stop : DateTime) (k : ℕ) : Prop where
  told : firstTold ≤ start.localSeconds
  ends : monthsEnd start stop ≤ 120000
  reached : k < monthsEnd start stop

/-- The recordings are all of one month, and the span covers them. -/
structure Covers (start stop : DateTime) (k : ℕ) (rs : List Recording) : Prop where
  month : ∀ r ∈ rs, r.now.month12 = k
  after : ∀ r ∈ rs, start.ordinal ≤ r.now.ordinal
  before : ∀ r ∈ rs, r.now.ordinal ≤ stop.ordinal

/-- **Without an answer** nothing is found. -/
theorem entries_of_not_answers (hl : l.store = some s) (h : Keeps s rs) (hstart : start.Plain)
    (hstop : stop.Plain) (hle : start.ordinal ≤ stop.ordinal) (hcovers : Covers start stop k rs)
    (hnone : ¬ Answers start stop k) (now : DateTime) :
    l.entries now ⟨some start, some stop, .null⟩ = [] := by
  rcases Nat.lt_or_ge 120000 (monthsEnd start stop) with hlate | hend
  · exact entries_of_endless hl hstart hstop hlate now .null
  rcases Int.lt_or_le start.localSeconds firstTold with huntold | htold
  · exact entries_of_early hl hstart hstop huntold hle hend now .null
  · -- the month of the recordings is not gone through
    obtain ⟨-, hmem⟩ := entries_spec_of_end hl h hstart hstop htold hle hend now .null
    rw [List.eq_nil_iff_forall_not_mem]
    intro e he
    obtain ⟨⟨⟨r, hr, hcharge, -⟩, -⟩, -, -, hreached⟩ := (hmem e).1 he
    rw [CostEntry.timestamp_of_ofCharge hcharge, hcovers.month r hr] at hreached
    exact hnone ⟨htold, hend, hreached⟩

/-- **With an answer** each entry is found once. -/
theorem mem_entries_of_answers (hl : l.store = some s) (h : Keeps s rs) (hstart : start.Plain)
    (hstop : stop.Plain) (hle : start.ordinal ≤ stop.ordinal) (hcovers : Covers start stop k rs)
    (hanswers : Answers start stop k) (now : DateTime) :
    (l.entries now ⟨some start, some stop, .null⟩).Nodup ∧
      ∀ e, e ∈ l.entries now ⟨some start, some stop, .null⟩ ↔ e ∈ recorded rs := by
  obtain ⟨hnodup, hmem⟩ := entries_spec_of_end hl h hstart hstop hanswers.told hle hanswers.ends
    now .null
  refine ⟨hnodup, fun e => ?_⟩
  rw [hmem, mem_recorded]
  constructor
  · rintro ⟨⟨⟨r, hr, hcharge, -⟩, -⟩, -⟩
    exact ⟨r, hr, hcharge⟩
  · rintro ⟨r, hr, hcharge⟩
    have htime : e.timestamp = r.now := CostEntry.timestamp_of_ofCharge hcharge
    have hafter := hcovers.after r hr
    have hbefore := hcovers.before r hr
    -- a recording after the start can be told, since the start can
    have htold := told_of_le hstart r.plain hafter hanswers.told
    have hlow := score_mono hstart r.plain hanswers.told hafter
    have hhigh := score_mono r.plain hstop htold hbefore
    have hmonth := month_le_of_ordinal_le hstart r.plain hafter
    have hreached : r.now.month12 < monthsEnd start stop := by
      rw [hcovers.month r hr]
      exact hanswers.reached
    rw [htime]
    exact ⟨⟨⟨r, hr, hcharge, htold⟩, rfl⟩, ⟨hlow, hhigh⟩, hmonth, hreached⟩

/-- **What a query leaves out** of the recordings: repetitions if the span has
an answer, and all of them if it has none. -/
theorem exists_lost_recordings (hl : l.store = some s) (h : Keeps s rs)
    (hvalid : ∀ r ∈ rs, ∃ e, CostEntry.ofCharge r.now r.charge = .ok e) (hstart : start.Plain)
    (hstop : stop.Plain) (hle : start.ordinal ≤ stop.ordinal) (hcovers : Covers start stop k rs)
    (now : DateTime) :
    ∃ lost, (l.entries now ⟨some start, some stop, .null⟩ ++ lost).Perm (recorded rs) ∧
      ((l.entries now ⟨some start, some stop, .null⟩).length = rs.length ↔
        rs = [] ∨ Answers start stop k ∧ (recorded rs).Nodup) ∧
      (Answers start stop k →
        ∀ e ∈ lost, e ∈ l.entries now ⟨some start, some stop, .null⟩) := by
  have hlength := length_recorded hvalid
  by_cases hanswers : Answers start stop k
  · obtain ⟨hnodup, hmem⟩ := mem_entries_of_answers hl h hstart hstop hle hcovers hanswers now
    obtain ⟨lost, hperm, hlost, hcount⟩ := exists_lost hnodup hmem
    refine ⟨lost, hperm, ?_, fun _ => hlost⟩
    rw [← hlength, hcount]
    constructor
    · exact fun hdistinct => Or.inr ⟨hanswers, hdistinct⟩
    · rintro (rfl | ⟨-, hdistinct⟩)
      · exact List.nodup_nil
      · exact hdistinct
  · rw [entries_of_not_answers hl h hstart hstop hle hcovers hanswers now]
    refine ⟨recorded rs, List.Perm.refl _, ?_, fun h => absurd h hanswers⟩
    rw [List.length_nil, eq_comm, List.length_eq_zero_iff]
    exact ⟨Or.inl, fun h => h.resolve_right fun h => hanswers h.1⟩

/-- A microsecond after noon in the middle of January. -/
def januaryTick : DateTime :=
  { january15 with micro := 1 }

/-- The same charge at noon, and again at a later time. -/
def centTwice (t : DateTime) (h : t.Plain) : List Recording :=
  [centAt january15 ⟨by decide, rfl⟩, centAt t h]

theorem recorded_centTwice {t : DateTime} (h : t.Plain) :
    recorded (centTwice t h) = [centEntry january15, centEntry t] :=
  rfl

theorem valid_centTwice {t : DateTime} (h : t.Plain) :
    ∀ r ∈ centTwice t h, ∃ e, CostEntry.ofCharge r.now r.charge = .ok e :=
  List.forall_mem_cons.2 ⟨⟨_, rfl⟩, List.forall_mem_singleton.2 ⟨_, rfl⟩⟩

/-- A span that begins at noon and ends in February covers both. -/
theorem covers_centTwice {t : DateTime} (h : t.Plain) (hmonth : t.month12 = january15.month12)
    (hafter : january15.ordinal ≤ t.ordinal) (hbefore : t.ordinal ≤ (february1 12).ordinal) :
    Covers january15 (february1 12) january15.month12 (centTwice t h) where
  month := List.forall_mem_cons.2 ⟨rfl, List.forall_mem_singleton.2 hmonth⟩
  after := List.forall_mem_cons.2 ⟨le_rfl, List.forall_mem_singleton.2 hafter⟩
  before := List.forall_mem_cons.2 ⟨by decide, List.forall_mem_singleton.2 hbefore⟩

theorem answers_january : Answers january15 (february1 12) january15.month12 :=
  ⟨by decide, by decide, by decide⟩

end CostLedger

end SecureReview
