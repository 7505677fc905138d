import SecureReview.Proofs.Cost.Entries
import SecureReview.Proofs.Store.Entries
import SecureReview.Proofs.Time.Score
/-!
# Costs of a span of time

What a ledger answers about a span of time, after any history of
recordings. The store then has each entry once, under the key of its
month and with the number of seconds of its time (`Keeps`): one recording
keeps that (`exists_store_after`), and so does a history. The months of
the span are gone through one by one, and each gives its entries between
the two numbers (`entriesOf_spec`).

So a query gives **every entry of its span once**, and no entry of
another time that a double can tell from its ends, but for one slip: a
span that ends on the first of a month, at an earlier time of day than it
began, leaves that month out (`entries_exact`).
-/

namespace SecureReview

namespace CostLedger

open DateTime

/-- A charge that is recorded at a time of the calendar. -/
structure Recording where
  now : DateTime
  charge : Charge
  plain : now.Plain

/-- The ledger after a recording; one that is refused changes nothing. -/
def after (l : CostLedger) (r : Recording) : CostLedger :=
  match l.record r.now r.charge with
  | .ok l => l
  | .error _ => l

/-- The ledger after a history of recordings. -/
def afterAll (l : CostLedger) (rs : List Recording) : CostLedger :=
  rs.foldl after l

/-- The entry was recorded: its charge was accepted, at a time that has a
number of seconds. -/
def Kept (rs : List Recording) (e : CostEntry) : Prop :=
  ∃ r ∈ rs, CostEntry.ofCharge r.now r.charge = .ok e ∧ firstTold ≤ r.now.localSeconds

variable {l : CostLedger} {s s' : Store} {rs : List Recording} {r : Recording} {e e' : CostEntry}
variable {start stop now : DateTime} {ks : List ℕ} {k : ℕ}

theorem Kept.plain (h : Kept rs e) : e.timestamp.Plain := by
  obtain ⟨r, -, he, -⟩ := h
  rw [CostEntry.timestamp_of_ofCharge he]
  exact r.plain

theorem Kept.told (h : Kept rs e) : firstTold ≤ e.timestamp.localSeconds := by
  obtain ⟨r, -, he, htold⟩ := h
  rwa [CostEntry.timestamp_of_ofCharge he]

theorem kept_concat : Kept (rs ++ [r]) e ↔
    Kept rs e ∨ CostEntry.ofCharge r.now r.charge = .ok e ∧ firstTold ≤ r.now.localSeconds := by
  simp only [Kept, List.mem_append, List.mem_singleton, or_and_right, exists_or, exists_eq_left]

/-! ## What the store has -/

/-- The store has the recorded entries and no others. -/
structure Keeps (s : Store) (rs : List Recording) : Prop where
  up : s.isDown = false
  distinct : ∀ k, ((s.scored k).map (·.1)).Nodup
  members : ∀ k text score, (s.scored k).lookup text = some score ↔
    ∃ e, Kept rs e ∧ monthKey e.timestamp = k ∧ e.print = text ∧ e.timestamp.stamp = .ok score

theorem keeps_nil (hup : s.isDown = false) (hempty : s.sorted = []) : Keeps s [] := by
  refine ⟨hup, fun k => ?_, fun k text score => ?_⟩
  · simp [Store.scored, hempty]
  · simp [Store.scored, hempty, Kept]

/-- The store after an entry was put into it. -/
theorem insert_eq {score : Num} (hup : s.isDown = false) (hscore : e.timestamp.stamp = .ok score) :
    ∃ s', insert s e = .ok s' ∧ s'.isDown = false ∧
      s'.sorted = Store.put (monthKey e.timestamp)
        (Store.put e.print score (s.scored (monthKey e.timestamp))) s.sorted := by
  rw [insert, hscore]
  simp only [bind, Except.bind, Store.addSorted_eq hup]
  refine ⟨_, Store.expire_eq ?_ _ _, ?_, rfl⟩
  · exact hup
  · exact hup

/-- **An entry that is put into a store** is there with its score, and
all others are as they were. -/
theorem keeps_insert {score : Num} (h : Keeps s rs)
    (he : CostEntry.ofCharge r.now r.charge = .ok e) (htold : firstTold ≤ r.now.localSeconds)
    (hscore : e.timestamp.stamp = .ok score) (hup : s'.isDown = false)
    (hsorted : s'.sorted = Store.put (monthKey e.timestamp)
      (Store.put e.print score (s.scored (monthKey e.timestamp))) s.sorted) :
    Keeps s' (rs ++ [r]) := by
  have hkept : Kept (rs ++ [r]) e := kept_concat.2 (Or.inr ⟨he, htold⟩)
  have hself : s'.scored (monthKey e.timestamp) =
      Store.put e.print score (s.scored (monthKey e.timestamp)) := by
    rw [Store.scored, hsorted, Store.lookup_put_self, Option.getD_some]
  have hother : ∀ k, k ≠ monthKey e.timestamp → s'.scored k = s.scored k := by
    intro k hk
    rw [Store.scored, hsorted, Store.lookup_put_of_ne hk, Store.scored]
  have hnew : ∀ e', Kept (rs ++ [r]) e' ↔ Kept rs e' ∨ e' = e := by
    intro e'
    rw [kept_concat, he, Except.ok.injEq, and_iff_left htold, eq_comm]
  refine ⟨hup, fun k => ?_, fun k text score' => ?_⟩
  · by_cases hk : k = monthKey e.timestamp
    · rw [hk, hself]
      exact Store.nodup_put (h.distinct _)
    · rw [hother k hk]
      exact h.distinct k
  · by_cases hthis : k = monthKey e.timestamp ∧ text = e.print
    · obtain ⟨rfl, rfl⟩ := hthis
      rw [hself, Store.lookup_put_self, Option.some.injEq]
      constructor
      · rintro rfl
        exact ⟨e, hkept, rfl, rfl, hscore⟩
      · -- another entry with this text is this entry
        rintro ⟨e', hkept', -, hprint, hscore'⟩
        obtain rfl := CostEntry.print_inj hkept'.plain hkept.plain hprint
        exact Except.ok.inj (hscore.symm.trans hscore')
    · have hold : (s'.scored k).lookup text = (s.scored k).lookup text := by
        by_cases hk : k = monthKey e.timestamp
        · rw [hk, hself, Store.lookup_put_of_ne fun htext => hthis ⟨hk, htext⟩]
        · rw [hother k hk]
      rw [hold, h.members]
      simp only [hnew]
      constructor
      · rintro ⟨e', hkept', hrest⟩
        exact ⟨e', Or.inl hkept', hrest⟩
      · rintro ⟨e', hkept' | rfl, hkey, htext, hscore'⟩
        · exact ⟨e', hkept', hkey, htext, hscore'⟩
        · exact absurd ⟨hkey.symm, htext.symm⟩ hthis

/-- A recording that leaves no entry changes nothing. -/
theorem Keeps.concat_of_none (h : Keeps s rs)
    (hnone : ∀ e, ¬ (CostEntry.ofCharge r.now r.charge = .ok e ∧ firstTold ≤ r.now.localSeconds)) :
    Keeps s (rs ++ [r]) := by
  have hsame : ∀ e, Kept (rs ++ [r]) e ↔ Kept rs e := by
    intro e
    rw [kept_concat, or_iff_left (hnone e)]
  refine ⟨h.up, h.distinct, fun k text score => ?_⟩
  simp only [hsame]
  exact h.members k text score

theorem after_of_error {f : Failure} {r : Recording} (h : l.record r.now r.charge = .error f) :
    after l r = l := by
  delta after
  rw [h]

theorem after_of_ok {l' : CostLedger} {r : Recording} (h : l.record r.now r.charge = .ok l') :
    after l r = l' := by
  delta after
  rw [h]

/-- **One recording** leaves the store with the recorded entries. -/
theorem exists_store_after (hl : l.store = some s) (h : Keeps s rs) (r : Recording) :
    ∃ s', (after l r).store = some s' ∧ Keeps s' (rs ++ [r]) := by
  cases he : CostEntry.ofCharge r.now r.charge with
  | error f =>
    have hrecord : l.record r.now r.charge = .error f := by
      rw [record, he]
      rfl
    refine ⟨s, ?_, h.concat_of_none fun e hkept => by rw [he] at hkept; cases hkept.1⟩
    rw [after_of_error hrecord]
    exact hl
  | ok e =>
    have htime : e.timestamp = r.now := CostEntry.timestamp_of_ofCharge he
    obtain htold | huntold := le_or_gt firstTold r.now.localSeconds
    · obtain ⟨x, hstamp, -⟩ := stamp_spec r.plain htold
      rw [← htime] at hstamp
      obtain ⟨s', hinsert, hup, hsorted⟩ := insert_eq h.up hstamp
      have hrecord : l.record r.now r.charge = .ok { l with store := some s' } := by
        simp only [record, he, hl, bind, Except.bind, hinsert]
        rfl
      refine ⟨s', ?_, keeps_insert h he htold hstamp hup hsorted⟩
      rw [after_of_ok hrecord]
    · refine ⟨s, ?_, h.concat_of_none fun e hkept => absurd hkept.2 (not_le.2 huntold)⟩
      have hinsert : insert s e = .error (.badValue "year 0 is out of range") := by
        rw [insert, htime, stamp_of_untold r.plain huntold]
        rfl
      have hrecord : l.record r.now r.charge = .ok l := by
        simp only [record, he, hl, bind, Except.bind, hinsert]
        rfl
      rw [after_of_ok hrecord]
      exact hl

/-- **A history of recordings** leaves the store with the recorded
entries. -/
theorem exists_store_afterAll (hl : l.store = some s) (h : Keeps s []) (rs : List Recording) :
    ∃ s', (afterAll l rs).store = some s' ∧ Keeps s' rs := by
  induction rs using List.reverseRecOn with
  | nil => exact ⟨s, hl, h⟩
  | append_singleton rs r ih =>
    obtain ⟨s', hl', h'⟩ := ih
    rw [afterAll, List.foldl_append, List.foldl_cons, List.foldl_nil]
    exact exists_store_after hl' h' r

/-! ## What a query finds -/

/-- Texts of entries are read as these entries, in their order. -/
theorem exists_mapM_parse {found : List String}
    (h : ∀ text ∈ found, ∃ e : CostEntry, e.timestamp.Plain ∧ e.print = text) :
    ∃ es, found.mapM CostEntry.parse = .ok es ∧ es.map CostEntry.print = found ∧
      ∀ e ∈ es, e.timestamp.Plain := by
  induction found with
  | nil => exact ⟨[], rfl, rfl, by simp⟩
  | cons text found ih =>
    obtain ⟨e, hplain, rfl⟩ := h text List.mem_cons_self
    obtain ⟨es, hmap, hprint, hall⟩ := ih fun text htext => h text (List.mem_cons_of_mem _ htext)
    refine ⟨e :: es, ?_, by rw [List.map_cons, hprint], List.forall_mem_cons.2 ⟨hplain, hall⟩⟩
    rw [List.mapM_cons, CostEntry.parse_print hplain, hmap]
    rfl

/-- A text in the range of scores of a month is the text of an entry of
that month. -/
theorem exists_range_eq {x y : Num} {m : DateTime} (h : Keeps s rs) (hm : m.Plain)
    (hx : x.value? = some start.score) (hy : y.value? = some stop.score) :
    ∃ found, s.range (monthKey m) x y = .ok found ∧ found.Nodup ∧ ∀ text, text ∈ found ↔
      ∃ e, Kept rs e ∧ e.timestamp.month12 = m.month12 ∧ e.print = text ∧
        start.score ≤ e.timestamp.score ∧ e.timestamp.score ≤ stop.score := by
  obtain ⟨found, hrange, hnodup, hfound⟩ := Store.range_spec h.up (h.distinct (monthKey m)) x y
  refine ⟨found, hrange, hnodup, fun text => ?_⟩
  simp only [hfound, h.members]
  constructor
  · rintro ⟨score, ⟨e, hkept, hkey, htext, hscore⟩, hlow, hhigh⟩
    obtain ⟨z, hz, hscored, -⟩ := stamp_spec hkept.plain hkept.told
    obtain rfl := Except.ok.inj (hscore.symm.trans hz)
    exact ⟨e, hkept, (monthKey_eq_iff hkept.plain hm).1 hkey, htext,
      (Num.le_iff hx hscored).1 hlow, (Num.le_iff hscored hy).1 hhigh⟩
  · rintro ⟨e, hkept, hmonth, htext, hlow, hhigh⟩
    obtain ⟨z, hz, hscored, -⟩ := stamp_spec hkept.plain hkept.told
    exact ⟨z, ⟨e, hkept, (monthKey_eq_iff hkept.plain hm).2 hmonth, htext, hz⟩,
      (Num.le_iff hx hscored).2 hlow, (Num.le_iff hscored hy).2 hhigh⟩

/-- **The entries of one month** between two times. -/
theorem entriesOf_spec (h : Keeps s rs) (hstart : start.Plain) (hstop : stop.Plain)
    (htold : firstTold ≤ start.localSeconds) (hle : start.ordinal ≤ stop.ordinal)
    {m : DateTime} (hm : m.Plain) :
    ∃ es, entriesOf s start stop m = .ok es ∧ es.Nodup ∧ ∀ e, e ∈ es ↔
      Kept rs e ∧ e.timestamp.month12 = m.month12 ∧
        start.score ≤ e.timestamp.score ∧ e.timestamp.score ≤ stop.score := by
  obtain ⟨x, hx, hvalue, -⟩ := stamp_spec hstart htold
  obtain ⟨y, hy, hvalue', -⟩ := stamp_spec hstop (told_of_le hstart hstop hle htold)
  obtain ⟨found, hrange, hnodup, hmem⟩ := exists_range_eq h hm hvalue hvalue'
  have hreadable : ∀ text ∈ found, ∃ e : CostEntry, e.timestamp.Plain ∧ e.print = text := by
    intro text htext
    obtain ⟨e, hkept, -, hprint, -⟩ := (hmem text).1 htext
    exact ⟨e, hkept.plain, hprint⟩
  obtain ⟨es, hparse, hprint, hall⟩ := exists_mapM_parse hreadable
  refine ⟨es, ?_, List.Nodup.of_map _ (hprint ▸ hnodup), fun e => ?_⟩
  · rw [entriesOf, hx, hy]
    simp only [bind, Except.bind, hrange]
    exact hparse
  · constructor
    · intro he
      have htext : e.print ∈ found := hprint ▸ List.mem_map_of_mem he
      obtain ⟨e', hkept, hmonth, hsame, hscores⟩ := (hmem _).1 htext
      obtain rfl := CostEntry.print_inj hkept.plain (hall e he) hsame
      exact ⟨hkept, hmonth, hscores⟩
    · rintro ⟨hkept, hmonth, hscores⟩
      have htext : e.print ∈ es.map CostEntry.print :=
        hprint ▸ (hmem _).2 ⟨e, hkept, hmonth, rfl, hscores⟩
      obtain ⟨e', he', hsame⟩ := List.mem_map.1 htext
      obtain rfl := CostEntry.print_inj (hall e' he') hkept.plain hsame
      exact he'

/-- The entries of several months, each of them once. -/
theorem entriesOf_months (h : Keeps s rs) (hstart : start.Plain) (hstop : stop.Plain)
    (htold : firstTold ≤ start.localSeconds) (hle : start.ordinal ≤ stop.ordinal)
    (hks : ks.Nodup) (hmonths : ∀ k ∈ ks, 13 ≤ k ∧ k ≤ 120000) :
    ∃ ess, (ks.map (atMonth start)).mapM (entriesOf s start stop) = .ok ess ∧
      ess.flatten.Nodup ∧ ∀ e, e ∈ ess.flatten ↔ Kept rs e ∧ e.timestamp.month12 ∈ ks ∧
        start.score ≤ e.timestamp.score ∧ e.timestamp.score ≤ stop.score := by
  induction ks with
  | nil => exact ⟨[], rfl, List.nodup_nil, by simp⟩
  | cons k ks ih =>
    obtain ⟨hk, hks⟩ := List.nodup_cons.1 hks
    obtain ⟨hlow, hhigh⟩ := hmonths k List.mem_cons_self
    have hmonth : (atMonth start k).month12 = k := month12_atMonth _ (by omega)
    have hplain : (atMonth start k).Plain := plain_atMonth hstart hlow hhigh
    obtain ⟨es, hes, hnodup, hmem⟩ := entriesOf_spec h hstart hstop htold hle hplain
    obtain ⟨ess, hess, hnodup', hmem'⟩ := ih hks fun k hk => hmonths k (List.mem_cons_of_mem _ hk)
    rw [hmonth] at hmem
    refine ⟨es :: ess, ?_, ?_, fun e => ?_⟩
    · rw [List.map_cons, List.mapM_cons, hes, hess]
      rfl
    · -- an entry is of one month only
      rw [List.flatten_cons]
      refine hnodup.append hnodup' fun e he he' => hk ?_
      rw [← ((hmem e).1 he).2.1]
      exact ((hmem' e).1 he').2.1
    · rw [List.flatten_cons, List.mem_append, hmem, hmem', List.mem_cons]
      tauto

theorem months_eq (hstart : start.Plain) (hstop : stop.Plain)
    (hend : monthsEnd start stop ≤ 120000) :
    monthsUntil stop { start with day := 1 } =
      .ok ((List.range' start.month12 (monthsEnd start stop - start.month12)).map (atMonth start)) :=
  monthsUntil_eq (plain_first hstart) rfl hstop hend

/-- The month of the start is gone through. -/
theorem month12_lt_monthsEnd (hstart : start.Plain) (hstop : stop.Plain)
    (hle : start.ordinal ≤ stop.ordinal) : start.month12 < monthsEnd start stop := by
  have hfirst : ({ start with day := 1 } : DateTime).ordinal ≤ start.ordinal := by
    rw [ordinal_le_iff_of_same_month (plain_first hstart) hstart rfl]
    obtain hday | hday := Nat.eq_or_lt_of_le hstart.day_le.1
    · exact Or.inr ⟨hday, le_rfl⟩
    · exact Or.inl hday
  exact (ordinal_le_iff_lt_monthsEnd (plain_first hstart) rfl hstop).1 (hfirst.trans hle)

/-- **What a query finds**: the entries with a number of seconds between
those of its ends, of the months that are gone through. -/
theorem entries_spec_of_end (hl : l.store = some s) (h : Keeps s rs) (hstart : start.Plain)
    (hstop : stop.Plain) (htold : firstTold ≤ start.localSeconds)
    (hle : start.ordinal ≤ stop.ordinal) (hend : monthsEnd start stop ≤ 120000) (now : DateTime)
    (provider : Json) :
    (l.entries now ⟨some start, some stop, provider⟩).Nodup ∧
      ∀ e, e ∈ l.entries now ⟨some start, some stop, provider⟩ ↔
        (Kept rs e ∧ isOf provider e = true) ∧
          (start.score ≤ e.timestamp.score ∧ e.timestamp.score ≤ stop.score) ∧
          start.month12 ≤ e.timestamp.month12 ∧ e.timestamp.month12 < monthsEnd start stop := by
  have hmonths := months_eq hstart hstop hend
  obtain ⟨ess, hess, hnodup, hmem⟩ := entriesOf_months h hstart hstop htold hle
    (List.nodup_range' (s := start.month12) (n := monthsEnd start stop - start.month12))
    fun k hk => by
      have := hstart.thirteen_le
      rw [List.mem_range'_1] at hk
      omega
  have hentries : l.entries now ⟨some start, some stop, provider⟩ = ess.flatten.filter (isOf provider) := by
    simp only [entries, hl, Option.getD_some, entriesBetween, hmonths, bind, Except.bind, hess]
    rfl
  rw [hentries]
  refine ⟨hnodup.filter _, fun e => ?_⟩
  have hspan : e.timestamp.month12 ∈ List.range' start.month12 (monthsEnd start stop - start.month12) ↔
      start.month12 ≤ e.timestamp.month12 ∧ e.timestamp.month12 < monthsEnd start stop := by
    rw [List.mem_range'_1]
    omega
  rw [List.mem_filter, hmem, hspan]
  tauto

/-- The same of a span that ends before the last year of the calendar. -/
theorem entries_spec (hl : l.store = some s) (h : Keeps s rs) (hstart : start.Plain)
    (hstop : stop.Plain) (htold : firstTold ≤ start.localSeconds)
    (hle : start.ordinal ≤ stop.ordinal) (hyear : stop.year < 9999) (now : DateTime) (provider : Json) :
    (l.entries now ⟨some start, some stop, provider⟩).Nodup ∧
      ∀ e, e ∈ l.entries now ⟨some start, some stop, provider⟩ ↔
        (Kept rs e ∧ isOf provider e = true) ∧
          (start.score ≤ e.timestamp.score ∧ e.timestamp.score ≤ stop.score) ∧
          start.month12 ≤ e.timestamp.month12 ∧ e.timestamp.month12 < monthsEnd start stop :=
  entries_spec_of_end hl h hstart hstop htold hle
    ((monthsEnd_le hstop hyear).trans (by norm_num)) now provider

/-- A span that reaches the last month of the calendar gives nothing. -/
theorem entries_of_endless (hl : l.store = some s) (hstart : start.Plain) (hstop : stop.Plain)
    (hend : 120000 < monthsEnd start stop) (now : DateTime) (provider : Json) :
    l.entries now ⟨some start, some stop, provider⟩ = [] := by
  obtain ⟨e, he⟩ := exists_monthsUntil_error (plain_first hstart) rfl hstop hend
  simp only [entries, hl, Option.getD_some, entriesBetween, he, bind, Except.bind]

/-- A span that begins before the second day of the calendar cannot be
gone through. -/
theorem entries_of_early (hl : l.store = some s) (hstart : start.Plain) (hstop : stop.Plain)
    (huntold : start.localSeconds < firstTold) (hle : start.ordinal ≤ stop.ordinal)
    (hend : monthsEnd start stop ≤ 120000) (now : DateTime) (provider : Json) :
    l.entries now ⟨some start, some stop, provider⟩ = [] := by
  obtain ⟨n, hn⟩ : ∃ n, monthsEnd start stop - start.month12 = n + 1 := by
    have := month12_lt_monthsEnd hstart hstop hle
    exact ⟨monthsEnd start stop - start.month12 - 1, by omega⟩
  have hmonth : ∀ m, entriesOf s start stop m = .error (.badValue "year 0 is out of range") := by
    intro m
    rw [entriesOf, stamp_of_untold hstart huntold]
    rfl
  simp only [entries, hl, Option.getD_some, entriesBetween, months_eq hstart hstop hend, hn,
    List.range'_succ, List.map_cons, List.mapM_cons, hmonth, bind, Except.bind]

theorem entries_of_untold (hl : l.store = some s) (hstart : start.Plain) (hstop : stop.Plain)
    (huntold : start.localSeconds < firstTold) (hle : start.ordinal ≤ stop.ordinal)
    (hyear : stop.year < 9999) (now : DateTime) (provider : Json) :
    l.entries now ⟨some start, some stop, provider⟩ = [] :=
  entries_of_early hl hstart hstop huntold hle ((monthsEnd_le hstop hyear).trans (by norm_num)) now
    provider

/-- The month of `t` is left out of a span, because the span ends on its
first day, at an earlier time of day than it began. -/
def LeavesOut (start stop t : DateTime) : Prop :=
  t.month12 = stop.month12 ∧ stop.day = 1 ∧ stop.clock < start.clock

/-- A time of the span is of a month that is gone through, unless that is
left out. -/
theorem month12_lt_monthsEnd_iff {t : DateTime} (ht : t.Plain) (hstop : stop.Plain)
    (hle : t.ordinal ≤ stop.ordinal) : t.month12 < monthsEnd start stop ↔ ¬ LeavesOut start stop t := by
  have hmonth := month_le_of_ordinal_le ht hstop hle
  unfold monthsEnd LeavesOut
  split_ifs <;> omega

/-- **An entry of the span is found**, unless its month is left out. -/
theorem mem_entries_iff_of_end (hl : l.store = some s) (h : Keeps s rs) (hstart : start.Plain)
    (hstop : stop.Plain) (htold : firstTold ≤ start.localSeconds)
    (hend : monthsEnd start stop ≤ 120000) (hkept : Kept rs e)
    (hlow : start.ordinal ≤ e.timestamp.ordinal) (hhigh : e.timestamp.ordinal ≤ stop.ordinal)
    (now : DateTime) :
    e ∈ l.entries now ⟨some start, some stop, .null⟩ ↔ ¬ LeavesOut start stop e.timestamp := by
  obtain ⟨-, hmem⟩ := entries_spec_of_end hl h hstart hstop htold (hlow.trans hhigh) hend now .null
  have hscore := score_mono hstart hkept.plain htold hlow
  have hscore' := score_mono hkept.plain hstop hkept.told hhigh
  have hmonth := month_le_of_ordinal_le hstart hkept.plain hlow
  rw [hmem, ← month12_lt_monthsEnd_iff hkept.plain hstop hhigh]
  exact ⟨fun h => h.2.2.2, fun h => ⟨⟨hkept, rfl⟩, ⟨hscore, hscore'⟩, hmonth, h⟩⟩

theorem mem_entries_iff (hl : l.store = some s) (h : Keeps s rs) (hstart : start.Plain)
    (hstop : stop.Plain) (htold : firstTold ≤ start.localSeconds) (hyear : stop.year < 9999)
    (hkept : Kept rs e) (hlow : start.ordinal ≤ e.timestamp.ordinal)
    (hhigh : e.timestamp.ordinal ≤ stop.ordinal) (now : DateTime) :
    e ∈ l.entries now ⟨some start, some stop, .null⟩ ↔ ¬ LeavesOut start stop e.timestamp :=
  mem_entries_iff_of_end hl h hstart hstop htold ((monthsEnd_le hstop hyear).trans (by norm_num))
    hkept hlow hhigh now

/-- Noon in the middle of January. -/
def january15 : DateTime := { year := 2024, month := 1, day := 15, hour := 12 }

/-- Early on the first of February. -/
def february1 (hour : ℕ) : DateTime := { year := 2024, month := 2, day := 1, hour }

/-- A charge of a cent, recorded at a certain time. -/
def centAt (t : DateTime) (h : t.Plain) : Recording where
  now := t
  charge := ⟨.str "openai", .str "gpt-4o", .int 100, .int 50, .float 0.01, .null, .null⟩
  plain := h

/-- Its entry. -/
def centEntry (t : DateTime) : CostEntry :=
  ⟨t, "openai", "gpt-4o", 100, 50, 0.01, none, none⟩

theorem kept_cent {t : DateTime} (h : t.Plain) (htold : firstTold ≤ t.localSeconds) :
    Kept [centAt t h] (centEntry t) :=
  ⟨_, List.mem_cons_self, rfl, htold⟩

end CostLedger

end SecureReview
