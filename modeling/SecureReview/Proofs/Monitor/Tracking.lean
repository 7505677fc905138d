import SecureReview.Monitor.Tracker
import SecureReview.Proofs.Number.Double
import SecureReview.Proofs.World.Effect
/-!
# Scan tracking

Any number of trackers follow scans at the same time and count into one
monitor. A history lists what the trackers were asked, the latest first;
the history alone says which scans have **ended**, under which labels and
after how long (`ended`). `Recorded` relates the monitor to the scans
that have begun and ended: `Recorded.begin` and `Recorded.finish` say
that one tracker keeps it, and so every history does
(`follows_afterAll`).
-/

namespace SecureReview

/-! ## Series and histograms -/

namespace Series

variable {α : Type} {zero : α} {f : α → α} {ls ls' : Labels} {p : Labels → Bool}

/-- The value for some labels, which is `zero` if they were never touched. -/
def valueAt (zero : α) (s : Series α) (ls : Labels) : α :=
  (s.get? ls).getD zero

/-- The sum of the counts whose labels are asked for. -/
def totalOf (p : Labels → Bool) (s : Series Nat) : Nat :=
  Number.total ((s.filter (fun e => p e.1)).map Prod.snd)

theorem valueAt_cons {e : Labels × α} {s : Series α} :
    valueAt zero (e :: s) ls = if ls = e.1 then e.2 else valueAt zero s ls := by
  obtain ⟨ls', x⟩ := e
  by_cases h : ls = ls'
  · simp [valueAt, get?, h]
  · simp [valueAt, get?, List.lookup_cons, beq_false_of_ne h, h]

/-- **An update touches the value for its labels and no other.** -/
theorem valueAt_update (s : Series α) : valueAt zero (s.update zero f ls) ls' =
    if ls' = ls then f (valueAt zero s ls') else valueAt zero s ls' := by
  induction s with
  | nil => rw [update, valueAt_cons]; rfl
  | cons e s ih =>
    rw [update]
    by_cases he : e.1 = ls
    · rw [if_pos (beq_iff_eq.2 he), valueAt_cons, valueAt_cons, he]
      by_cases h : ls' = ls
      · simp only [if_pos h]
      · simp only [if_neg h]
    · rw [if_neg (mt beq_iff_eq.1 he), valueAt_cons, valueAt_cons, ih]
      by_cases h : ls' = e.1
      · rw [if_pos h, if_pos h, if_neg (h ▸ he)]
      · rw [if_neg h, if_neg h]

theorem totalOf_cons {e : Labels × Nat} {s : Series Nat} :
    totalOf p (e :: s) = (if p e.1 then e.2 else 0) + totalOf p s := by
  by_cases h : p e.1 = true
  · simp [totalOf, h]
  · simp [totalOf, h]

/-- A count that is raised raises the sums that it is part of. -/
theorem totalOf_update (s : Series Nat) : totalOf p (s.update 0 (· + 1) ls) =
    totalOf p s + if p ls then 1 else 0 := by
  induction s with
  | nil => rw [update, totalOf_cons, Nat.zero_add, Nat.add_comm]
  | cons e s ih =>
    rw [update]
    by_cases he : e.1 = ls
    · rw [if_pos (beq_iff_eq.2 he), totalOf_cons, totalOf_cons, he]
      split <;> omega
    · rw [if_neg (mt beq_iff_eq.1 he), totalOf_cons, totalOf_cons, ih]
      omega

end Series

namespace Histogram

variable {x : Float}

theorem total_place {bs : List (String × Float)} {ns : List Nat} (hlen : ns.length = bs.length)
    (hx : ∃ b ∈ bs, x ≤ b.2) : Number.total (place x bs ns) = Number.total ns + 1 := by
  fun_induction place x bs ns with
  | case1 b bs n ns hle =>
    rw [Number.total_cons, Number.total_cons]
    omega
  | case2 b bs n ns hle ih =>
    -- this bucket does not hold it, so one of the others does
    obtain ⟨c, hc, hxc⟩ := hx
    have hc : c ∈ bs := (List.mem_cons.1 hc).resolve_left (fun h => hle (h ▸ hxc))
    rw [Number.total_cons, Number.total_cons, ih (by simpa using hlen) ⟨c, hc, hxc⟩]
    omega
  | case3 bs ns hno =>
    -- a bound without a count is ruled out by the lengths
    obtain ⟨b, hb, -⟩ := hx
    cases bs with
    | nil => cases hb
    | cons b bs =>
      cases ns with
      | nil => cases hlen
      | cons n ns => exact absurd rfl (hno b bs n ns rfl)

/-- **An observation falls into one bucket**, the last of which holds every number. -/
theorem count_observe {h : Histogram} (hx : x.isNaN = false) : (h.observe x).count = h.count + 1 :=
  total_place h.length_counts ⟨("+Inf", Number.infinity), by simp [bounds], Number.le_infinity hx⟩

end Histogram

/-! ## Histories -/

/-- What a tracker is asked: to begin, to take the name of its scanner, or to end. -/
inductive ScanEvent (ι : Type) where
  | enter (i : ι) (now : Float)
  | assign (i : ι) (scanner : String)
  | leave (i : ι) (failed : Bool) (now : Float)

/-- A scan that has ended. -/
structure EndedScan where
  language : String
  scanner : String
  failed : Bool
  took : Float

namespace EndedScan

/-- The labels under which the end is counted. -/
def requestLabels (e : EndedScan) : Labels :=
  [("language", e.language), ("status", Monitor.status e.failed)]

/-- The labels under which the duration is observed. -/
def durationLabels (e : EndedScan) : Labels :=
  [("language", e.language), ("scanner", e.scanner)]

/-- The scans with some labels. -/
def under (ls : Labels) (scans : List EndedScan) : List EndedScan :=
  scans.filter (fun e => e.durationLabels = ls)

theorem under_cons {ls : Labels} {e : EndedScan} {scans : List EndedScan} :
    under ls (e :: scans) = if e.durationLabels = ls then e :: under ls scans else under ls scans := by
  simp only [under, List.filter_cons, decide_eq_true_eq]

/-- A histogram after the durations of some scans, of which the latest stands first. -/
def observed (h : Histogram) (scans : List EndedScan) : Histogram :=
  scans.foldr (fun e h => h.observe e.took) h

theorem count_observed {h : Histogram} {scans : List EndedScan}
    (hnumber : ∀ e ∈ scans, e.took.isNaN = false) :
    (observed h scans).count = h.count + scans.length := by
  induction scans with
  | nil => rfl
  | cons e scans ih =>
    have hlater := ih (fun e he => hnumber e (List.mem_cons_of_mem _ he))
    have hobserve : observed h (e :: scans) = (observed h scans).observe e.took := rfl
    rw [hobserve, Histogram.count_observe (hnumber e List.mem_cons_self), hlater, List.length_cons,
      Nat.add_assoc]

/-- The labels say that a scan failed. -/
def isError (ls : Labels) : Bool :=
  ls.contains ("status", "error")

theorem isError_requestLabels (e : EndedScan) : isError e.requestLabels = e.failed := by
  cases hfailed : e.failed with
  | false => simp [isError, requestLabels, Monitor.status, hfailed]
  | true => simp [isError, requestLabels, Monitor.status, hfailed]

end EndedScan

namespace ScanEvent

variable {ι : Type}

def isEnter : ScanEvent ι → Bool
  | enter .. => true
  | _ => false

def isLeave : ScanEvent ι → Bool
  | leave .. => true
  | _ => false

/-- The scan is left because of a failure. -/
def isFailure : ScanEvent ι → Bool
  | leave _ failed _ => failed
  | _ => false

/-- The clock, if it is read, shows a finite number. -/
def isTimed : ScanEvent ι → Bool
  | enter _ now => now.isFinite
  | assign .. => true
  | leave _ _ now => now.isFinite

/-- Each tracker is entered before it is left. -/
def Matched : List (ScanEvent ι) → Prop
  | [] => True
  | leave i _ _ :: past => (∃ now, enter i now ∈ past) ∧ Matched past
  | _ :: past => Matched past

variable [DecidableEq ι]

/-- When a tracker was last entered. -/
def startOf (i : ι) : List (ScanEvent ι) → Option Float
  | [] => none
  | enter j now :: past => if j = i then some now else startOf i past
  | _ :: past => startOf i past

/-- The scanner that a tracker was last assigned. -/
def scannerOf (i : ι) : List (ScanEvent ι) → String
  | [] => "unknown"
  | assign j scanner :: past => if j = i then scanner else scannerOf i past
  | _ :: past => scannerOf i past

/-- The scans that have ended, the latest first. -/
def ended (language : ι → String) : List (ScanEvent ι) → List EndedScan
  | [] => []
  | leave i failed now :: past =>
    match startOf i past with
    | some start => ⟨language i, scannerOf i past, failed, now - start⟩ :: ended language past
    | none => ended language past
  | _ :: past => ended language past

variable {language : ι → String} {i : ι} {past : List (ScanEvent ι)}
variable {start now : Float} {failed : Bool}

theorem startOf_mem (h : startOf i past = some start) : enter i start ∈ past := by
  fun_induction startOf i past with
  | case1 => cases h
  | case2 now past =>
    rw [Option.some.injEq] at h
    rw [h]
    exact List.mem_cons_self
  | case3 j now past hne ih => exact List.mem_cons_of_mem _ (ih h)
  | case4 e past hno ih => exact List.mem_cons_of_mem _ (ih h)

theorem startOf_eq_none : startOf i past = none ↔ ∀ now, enter i now ∉ past := by
  constructor
  · intro h now hmem
    fun_induction startOf i past with
    | case1 => cases hmem
    | case2 => cases h
    | case3 j now' past hne ih =>
      obtain heq | hmem := List.mem_cons.1 hmem
      · cases heq
        exact hne rfl
      · exact ih h hmem
    | case4 e past hno ih =>
      obtain rfl | hmem := List.mem_cons.1 hmem
      · exact hno i now rfl
      · exact ih h hmem
  · intro h
    cases hstart : startOf i past with
    | none => rfl
    | some start => exact absurd (startOf_mem hstart) (h start)

theorem ended_leave_of_none (h : startOf i past = none) :
    ended language (leave i failed now :: past) = ended language past := by
  simp only [ended, h]

theorem ended_leave_of_some (h : startOf i past = some start) :
    ended language (leave i failed now :: past) =
      ⟨language i, scannerOf i past, failed, now - start⟩ :: ended language past := by
  simp only [ended, h]

/-- In a matched history every exit is the end of a scan. -/
theorem countP_ended (language : ι → String) (h : Matched past) :
    (ended language past).length = past.countP isLeave ∧
      (ended language past).countP EndedScan.failed = past.countP isFailure := by
  induction past with
  | nil => exact ⟨rfl, rfl⟩
  | cons e past ih =>
    cases e with
    | enter i now => exact ih h
    | assign i scanner => exact ih h
    | leave i failed now =>
      obtain ⟨⟨t, ht⟩, h⟩ := h
      cases hstart : startOf i past with
      | none => exact absurd ht (startOf_eq_none.1 hstart t)
      | some start =>
        obtain ⟨hlen, hfailed⟩ := ih h
        rw [ended_leave_of_some hstart]
        constructor
        · rw [List.length_cons, hlen, List.countP_cons, isLeave, if_pos rfl]
        · rw [List.countP_cons, List.countP_cons, hfailed]
          rfl

/-- The time between two finite readings of the clock is a number. -/
theorem isNaN_took (h : ∀ e ∈ past, e.isTimed = true) :
    ∀ s ∈ ended language past, s.took.isNaN = false := by
  induction past with
  | nil =>
    intro s hs
    cases hs
  | cons e past ih =>
    have hpast : ∀ e ∈ past, e.isTimed = true := fun e he => h e (List.mem_cons_of_mem _ he)
    cases e with
    | enter i now => exact ih hpast
    | assign i scanner => exact ih hpast
    | leave i failed now =>
      cases hstart : startOf i past with
      | none =>
        rw [ended_leave_of_none hstart]
        exact ih hpast
      | some start =>
        rw [ended_leave_of_some hstart]
        intro s hs
        obtain rfl | hs := List.mem_cons.1 hs
        · exact Number.isNaN_sub (h _ List.mem_cons_self) (hpast _ (startOf_mem hstart))
        · exact ih hpast s hs

end ScanEvent

/-! ## What trackers do to the monitor -/

namespace Monitor

variable {m m' : Monitor} {t : Tracker} {language scanner : String} {start now : Float}
variable {begun : Nat} {scans : List EndedScan} {failed : Bool} {o : Option Float}

/-- **What is recorded** when some scans were begun and some have ended: the
monitor was `m` before the first of them and is `m'` now. -/
structure Recorded (m : Monitor) (begun : Nat) (scans : List EndedScan) (m' : Monitor) : Prop where
  active : m'.activeScans = m.activeScans + begun - scans.length
  requests : ∀ p, m'.scanRequests.totalOf p =
    m.scanRequests.totalOf p + scans.countP (fun e => p e.requestLabels)
  durations : ∀ ls, m'.scanDurations.valueAt {} ls =
    EndedScan.observed (m.scanDurations.valueAt {} ls) (EndedScan.under ls scans)

theorem recorded_refl : Recorded m 0 [] m :=
  ⟨by simp, fun _ => rfl, fun _ => rfl⟩

/-- A tracker that is entered begins a scan. -/
theorem Recorded.begin (h : Recorded m begun scans m') :
    ∃ m'', (Monitor.start ⟨.scan language scanner, o⟩ now).run.run m' =
        (.ok ⟨.scan language scanner, some now⟩, m'') ∧
      Recorded m (begun + 1) scans m'' := by
  refine ⟨_, rfl, ?_, h.requests, h.durations⟩
  have := h.active
  change m'.activeScans + 1 = _
  omega

/-- A tracker that is left ends a scan. -/
theorem Recorded.finish (h : Recorded m begun scans m') :
    ∃ m'', (Monitor.finish ⟨.scan language scanner, some start⟩ failed now).run.run m' = (.ok (), m'') ∧
      Recorded m begun (⟨language, scanner, failed, now - start⟩ :: scans) m'' := by
  refine ⟨_, rfl, ?_, ?_, ?_⟩
  · have := h.active
    change m'.activeScans - 1 = _
    rw [List.length_cons]
    omega
  · intro p
    change Series.totalOf p (m'.scanRequests.update _ _ _) = _
    rw [Series.totalOf_update, h.requests, List.countP_cons, Nat.add_assoc]
    rfl
  · intro ls
    change Series.valueAt _ (m'.scanDurations.update _ _ _) ls = _
    rw [Series.valueAt_update, h.durations, EndedScan.under_cons]
    by_cases hls : ls = EndedScan.durationLabels ⟨language, scanner, failed, now - start⟩
    · rw [if_pos hls.symm]
      exact if_pos hls
    · rw [if_neg (Ne.symm hls)]
      exact if_neg hls

/-- **A tracker that was never entered cannot be left**, and nothing is counted for it. -/
theorem run_finish_of_fresh (h : t.start = none) : (Monitor.finish t failed now).run.run m =
    (.error (.wrongKind "unsupported operand type(s) for -: 'float' and 'NoneType'"), m) := by
  refine Effect.run_ofExcept_bind_error ?_
  rw [Tracker.elapsed, h]

end Monitor

/-! ## What a history does -/

/-- Trackers of scans and the monitor they count into. -/
structure ScanWatch (ι : Type) where
  monitor : Monitor
  trackers : ι → Tracker

namespace ScanWatch

open ScanEvent

variable {ι : Type}

/-- Trackers that were never entered. -/
def fresh (m : Monitor) (language : ι → String) : ScanWatch ι :=
  ⟨m, fun i => .ofScan (language i)⟩

variable [DecidableEq ι]

/-- One tracker does what it is asked. -/
def perform (w : ScanWatch ι) : ScanEvent ι → Except Failure Unit × ScanWatch ι
  | enter i now =>
    match (Monitor.start (w.trackers i) now).run.run w.monitor with
    | (.ok t, m) => (.ok (), ⟨m, Function.update w.trackers i t⟩)
    | (.error e, m) => (.error e, { w with monitor := m })
  | assign i scanner =>
    (.ok (), { w with trackers := Function.update w.trackers i ((w.trackers i).assign scanner) })
  | leave i failed now =>
    let (r, m) := (Monitor.finish (w.trackers i) failed now).run.run w.monitor
    (r, { w with monitor := m })

/-- The trackers and the monitor after a history. -/
def afterAll (w : ScanWatch ι) : List (ScanEvent ι) → ScanWatch ι
  | [] => w
  | e :: past => ((w.afterAll past).perform e).2

variable {m : Monitor} {language : ι → String} {past : List (ScanEvent ι)} {w : ScanWatch ι}

/-- What holds of the trackers and the monitor after a history. -/
structure Follows (m : Monitor) (language : ι → String) (past : List (ScanEvent ι))
    (w : ScanWatch ι) : Prop where
  trackers : ∀ i, w.trackers i = ⟨.scan (language i) (scannerOf i past), startOf i past⟩
  monitor : m.Recorded (past.countP isEnter) (ended language past) w.monitor

/-- A tracker that was never entered leaves everything as it was. -/
theorem Follows.perform_leave (h : w.Follows m language past) {i : ι} (hstart : startOf i past = none)
    (failed : Bool) (now : Float) : w.perform (leave i failed now) =
      (.error (.wrongKind "unsupported operand type(s) for -: 'float' and 'NoneType'"), w) := by
  have hfresh : (w.trackers i).start = none := by rw [h.trackers i, hstart]
  rw [ScanWatch.perform, Monitor.run_finish_of_fresh hfresh]

/-- **What one event does.** -/
theorem Follows.perform (h : w.Follows m language past) (e : ScanEvent ι) :
    (w.perform e).2.Follows m language (e :: past) := by
  cases e with
  | enter i now =>
    obtain ⟨m', hrun, hrecorded⟩ := h.monitor.begin
    rw [ScanWatch.perform, h.trackers i, hrun]
    refine ⟨fun j => ?_, by rwa [List.countP_cons]⟩
    by_cases hj : i = j
    · subst hj
      simp [scannerOf, startOf]
    · simp [scannerOf, startOf, hj, Ne.symm hj, h.trackers j]
  | assign i scanner =>
    refine ⟨fun j => ?_, h.monitor⟩
    by_cases hj : i = j
    · subst hj
      simp [ScanWatch.perform, Tracker.assign, scannerOf, startOf, h.trackers i]
    · simp [ScanWatch.perform, scannerOf, startOf, hj, Ne.symm hj, h.trackers j]
  | leave i failed now =>
    cases hstart : startOf i past with
    | none =>
      -- the attempt fails, and no scan has ended
      rw [h.perform_leave hstart]
      refine ⟨h.trackers, ?_⟩
      rw [ended_leave_of_none hstart]
      exact h.monitor
    | some start =>
      obtain ⟨m', hrun, hrecorded⟩ := h.monitor.finish
      rw [ScanWatch.perform, h.trackers i, hstart, hrun]
      refine ⟨h.trackers, ?_⟩
      rw [ended_leave_of_some hstart]
      exact hrecorded

/-- **What a history does.** -/
theorem follows_afterAll (past : List (ScanEvent ι)) :
    ((fresh m language).afterAll past).Follows m language past := by
  induction past with
  | nil => exact ⟨fun _ => rfl, Monitor.recorded_refl⟩
  | cons e past ih => exact ih.perform e

/-- **Scan tracking never drifts.** However the trackers take turns, as long
as each is entered before it is left: the gauge has gone up by the scans that
began and down by those that ended, every end is counted once, as an error if
there was one, and its duration is observed once, under its labels. A tracker
that was never entered cannot be left, and trying changes nothing. -/
theorem tracking_never_drifts (m : Monitor) (language : ι → String) (past : List (ScanEvent ι)) :
    let w := (fresh m language).afterAll past
    let scans := ended language past
    (Matched past →
      w.monitor.activeScans = m.activeScans + past.countP isEnter - past.countP isLeave ∧
      w.monitor.scanRequests.totalOf (fun _ => true) =
        m.scanRequests.totalOf (fun _ => true) + past.countP isLeave ∧
      w.monitor.scanRequests.totalOf EndedScan.isError =
        m.scanRequests.totalOf EndedScan.isError + past.countP isFailure ∧
      scans.length = past.countP isLeave ∧
      ∀ ls, w.monitor.scanDurations.valueAt {} ls =
          EndedScan.observed (m.scanDurations.valueAt {} ls) (EndedScan.under ls scans) ∧
        ((∀ e ∈ past, e.isTimed = true) → (w.monitor.scanDurations.valueAt {} ls).count =
          (m.scanDurations.valueAt {} ls).count + (EndedScan.under ls scans).length)) ∧
    ∀ i, (∀ now, enter i now ∉ past) → ∀ failed now, w.perform (leave i failed now) =
      (.error (.wrongKind "unsupported operand type(s) for -: 'float' and 'NoneType'"), w) := by
  intro w scans
  have hw : w.Follows m language past := follows_afterAll past
  refine ⟨fun hmatched => ?_, fun i hi => hw.perform_leave (startOf_eq_none.2 hi)⟩
  obtain ⟨hlen, hfailed⟩ := countP_ended language hmatched
  refine ⟨?_, ?_, ?_, hlen, fun ls => ⟨hw.monitor.durations ls, fun htimed => ?_⟩⟩
  · rw [hw.monitor.active, hlen]
  · rw [hw.monitor.requests, List.countP_true, hlen]
  · simp only [hw.monitor.requests, EndedScan.isError_requestLabels]
    rw [hfailed]
  · have hnumber : ∀ e ∈ EndedScan.under ls scans, e.took.isNaN = false :=
      fun e he => isNaN_took htimed e (List.mem_of_mem_filter he)
    rw [hw.monitor.durations, EndedScan.count_observed hnumber]

/-- Two scans that overlap, of which the second fails. -/
def overlapping : List (ScanEvent (Fin 3)) :=
  [leave 1 true 5.0, leave 0 false 4.0, assign 0 "bandit", enter 1 2.0, enter 0 1.0]

theorem tracking_of_overlapping_scans :
    let w := (fresh {} (fun _ => "python")).afterAll overlapping
    Matched overlapping ∧ (∀ e ∈ overlapping, e.isTimed = true) ∧ w.monitor.activeScans = 0 ∧
      w.monitor.scanRequests.totalOf (fun _ => true) = 2 ∧
      w.monitor.scanRequests.totalOf EndedScan.isError = 1 ∧
      (w.monitor.scanDurations.valueAt {} [("language", "python"), ("scanner", "bandit")]).count = 1 ∧
      w.perform (leave 2 false 6.0) =
        (.error (.wrongKind "unsupported operand type(s) for -: 'float' and 'NoneType'"), w) := by
  intro w
  have hmatched : Matched overlapping := by simp [Matched, overlapping]
  have htimed : ∀ e ∈ overlapping, e.isTimed = true := by decide +kernel
  obtain ⟨hruns, hfresh⟩ := tracking_never_drifts {} (fun _ => "python") overlapping
  obtain ⟨hactive, htotal, herrors, -, hdurations⟩ := hruns hmatched
  refine ⟨hmatched, htimed, hactive.trans (by decide), htotal.trans (by decide),
    herrors.trans (by decide), ((hdurations _).2 htimed).trans (by decide +kernel), hfresh 2 ?_ false 6.0⟩
  simp [overlapping]

end ScanWatch

end SecureReview
