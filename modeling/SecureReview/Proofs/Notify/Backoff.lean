import Mathlib.Algebra.Group.Int.Defs
import SecureReview.Notify.Message
import SecureReview.Proofs.World.Run
/-!
# How often and when a message is posted

A delivery is a series of posts with pauses between them. What a run has
done so far is kept in one record, so that its order can be told:
`schedule` is the record of a delivery with a given number of posts. A
sender **posts until the first outcome that is accepted, or until the
attempts are used up**, and leaves exactly that record (`run_sendFrom`).
From it follow the whole trace and the answer of `send`
(`send_backs_off`).
-/

namespace SecureReview

/-- The message was accepted. -/
def PostOutcome.isAccepted : PostOutcome → Bool
  | .status code => code == 200 || code == 204
  | .fault _ => false

namespace World

variable {w : World} {s : DeliveryStep} {steps : List DeliveryStep} {n : Nat}

/-! ## Steps of a delivery -/

/-- What a post to come leads to, counted from zero. Behind the end of the
script every post succeeds. -/
def outcome (w : World) (n : Nat) : PostOutcome :=
  w.posts.getD n (.status 200)

/-- The position, counted from one, of the first post to come that is accepted. -/
def firstAccepted (w : World) : Nat :=
  w.posts.findIdx PostOutcome.isAccepted + 1

/-- The world after a step of a delivery. A clock that cannot show the time
stands still. -/
def afterStep (w : World) (s : DeliveryStep) : World :=
  let w := { w with trace := { w.trace with deliveries := w.trace.deliveries ++ [s] } }
  match s with
  | .post _ => { w with posts := w.posts.tail }
  | .sleep s => { w with clock := (w.clock.add s).toOption.getD w.clock }

/-- The world after steps of a delivery, one after the other. -/
def afterSteps (w : World) (steps : List DeliveryStep) : World :=
  steps.foldl afterStep w

theorem deliveries_afterStep :
    (w.afterStep s).trace.deliveries = w.trace.deliveries ++ [s] := by
  cases s <;> rfl

theorem deliveries_afterSteps :
    (w.afterSteps steps).trace.deliveries = w.trace.deliveries ++ steps := by
  induction steps generalizing w with
  | nil => exact (List.append_nil _).symm
  | cons s steps ih =>
    show ((w.afterStep s).afterSteps steps).trace.deliveries = _
    rw [ih, deliveries_afterStep, List.append_assoc, List.singleton_append]

theorem posts_afterSteps :
    (w.afterSteps steps).trace.posts = w.trace.posts ++ steps.filterMap DeliveryStep.post? := by
  rw [Trace.posts, deliveries_afterSteps, List.filterMap_append, Trace.posts]

theorem sleeps_afterSteps :
    (w.afterSteps steps).trace.sleeps = w.trace.sleeps ++ steps.filterMap DeliveryStep.sleep? := by
  rw [Trace.sleeps, deliveries_afterSteps, List.filterMap_append, Trace.sleeps]

/-! ## The first post that is accepted -/

theorem firstAccepted_of_accepted (h : (w.outcome 0).isAccepted = true) : w.firstAccepted = 1 := by
  rw [firstAccepted]
  rw [outcome] at h
  cases hposts : w.posts with
  | nil => rfl
  | cons o os =>
    rw [hposts, List.getD_cons_zero] at h
    rw [List.findIdx_cons, h]
    rfl

/-- A post that is not accepted brings the first that is nearer. -/
theorem firstAccepted_afterStep_post {p : Post} (h : (w.outcome 0).isAccepted = false) :
    w.firstAccepted = (w.afterStep (.post p)).firstAccepted + 1 := by
  show w.posts.findIdx _ + 1 = w.posts.tail.findIdx _ + 1 + 1
  rw [outcome] at h
  cases hposts : w.posts with
  | nil =>
    rw [hposts] at h
    cases h
  | cons o os =>
    rw [hposts, List.getD_cons_zero] at h
    rw [List.findIdx_cons, h]
    rfl

/-- The first that is accepted is within some posts if any of them is. -/
theorem firstAccepted_le_iff :
    w.firstAccepted ≤ n ↔ ∃ i < n, (w.outcome i).isAccepted = true := by
  rw [firstAccepted]
  simp only [outcome]
  generalize w.posts = os
  induction os generalizing n with
  | nil =>
    -- behind the end of the script every post is accepted
    constructor
    · intro h
      exact ⟨0, h, rfl⟩
    · rintro ⟨i, hi, -⟩
      show 0 + 1 ≤ n
      omega
  | cons o os ih =>
    rw [List.findIdx_cons]
    cases ho : o.isAccepted with
    | true =>
      constructor
      · intro h
        exact ⟨0, h, ho⟩
      · rintro ⟨i, hi, -⟩
        show 0 + 1 ≤ n
        omega
    | false =>
      show os.findIdx _ + 1 + 1 ≤ n ↔ _
      constructor
      · intro h
        obtain ⟨i, hi, hacc⟩ := (ih (n := n - 1)).1 (by omega)
        exact ⟨i + 1, by omega, hacc⟩
      · rintro ⟨i, hi, hacc⟩
        cases i with
        | zero =>
          rw [List.getD_cons_zero, ho] at hacc
          cases hacc
        | succ i =>
          have := (ih (n := n - 1)).2 ⟨i, by omega, hacc⟩
          omega

end World

/-! ## One attempt -/

theorem Run.run_sleep (s : Num) (w : World) :
    (Run.sleep s).run.run w = (.ok (), w.afterStep (.sleep s)) := by
  refine (run_bind_ok rfl).trans ((run_bind_ok rfl).trans ?_)
  rw [World.afterStep]
  dsimp only
  cases w.clock.add s <;> rfl

namespace Notify

variable {url : String} {message : Json} {w : World} {left done : Nat} {p : Post}

/-- The post of an attempt. -/
def postOf (url : String) (message : Json) : Post :=
  ⟨url, message, .float 10.0⟩

/-- **An attempt never fails.** It is a post, and tells whether the outcome was accepted. -/
theorem run_attempt (url : String) (message : Json) (w : World) :
    (attempt url message).run.run w =
      (.ok (w.outcome 0).isAccepted, w.afterStep (.post (postOf url message))) := by
  obtain ⟨_, _, _, _, _, _, _, posts, _, _, _, _, _, _⟩ := w
  rcases posts with _ | ⟨_ | _, posts⟩ <;> rfl

/-- A sender whose message is accepted is done. -/
theorem run_sendFrom_accepted (h : (w.outcome 0).isAccepted = true) :
    (sendFrom url message (left + 1) done).run.run w =
      (.ok true, w.afterStep (.post (postOf url message))) := by
  rw [sendFrom, Run.run_bind_ok (run_attempt url message w), h]
  rfl

/-- After the last attempt there is no pause. -/
theorem run_sendFrom_last (h : (w.outcome 0).isAccepted = false) :
    (sendFrom url message 1 done).run.run w =
      (.ok false, w.afterStep (.post (postOf url message))) := by
  rw [sendFrom, Run.run_bind_ok (run_attempt url message w), h]
  rfl

/-- After another failed attempt the sender pauses and goes on. -/
theorem run_sendFrom_again (h : (w.outcome 0).isAccepted = false) :
    (sendFrom url message (left + 2) done).run.run w =
      (sendFrom url message (left + 1) (done + 1)).run.run
        ((w.afterStep (.post (postOf url message))).afterStep (.sleep (.int (2 ^ done)))) := by
  have htwo : ((Number.twoTo done : Nat) : Int) = 2 ^ done := Int.natCast_pow 2 done
  rw [sendFrom, Run.run_bind_ok (run_attempt url message w), h, htwo]
  exact Run.run_bind_ok (Run.run_sleep _ _)

/-! ## A whole delivery -/

/-- The record of a delivery with a number of posts, the first of them after
`done` failed attempts: each post but the last is followed by a pause, and
the pauses double. -/
def schedule (p : Post) (done : Nat) : Nat → List DeliveryStep
  | 0 => []
  | n + 1 => ((List.range' done n).flatMap fun i => [.post p, .sleep (.int (2 ^ i))]) ++ [.post p]

theorem schedule_succ (n : Nat) : schedule p done (n + 2) =
    .post p :: .sleep (.int (2 ^ done)) :: schedule p (done + 1) (n + 1) := by
  rw [schedule, schedule, List.range'_succ, List.flatMap_cons]
  rfl

theorem posts_schedule (n : Nat) :
    (schedule p done n).filterMap DeliveryStep.post? = List.replicate n p := by
  induction n generalizing done with
  | zero => rfl
  | succ n ih =>
    cases n with
    | zero => rfl
    | succ n =>
      rw [schedule_succ, List.replicate_succ, ← ih]
      rfl

theorem sleeps_schedule (n : Nat) : (schedule p done n).filterMap DeliveryStep.sleep? =
    (List.range' done (n - 1)).map fun i => .int (2 ^ i) := by
  induction n generalizing done with
  | zero => rfl
  | succ n ih =>
    cases n with
    | zero => rfl
    | succ n =>
      have hrest := @ih (done + 1)
      rw [Nat.add_sub_cancel] at hrest ⊢
      rw [schedule_succ, List.range'_succ, List.map_cons, ← hrest]
      rfl

/-- **What a sender does.** It posts up to the first outcome that is
accepted, as far as its attempts go, and leaves the record of these posts. -/
theorem run_sendFrom (left done : Nat) (w : World) :
    (sendFrom url message left done).run.run w =
      (.ok (decide (w.firstAccepted ≤ left)),
        w.afterSteps (schedule (postOf url message) done (min left w.firstAccepted))) := by
  induction left generalizing done w with
  | zero =>
    have hnone : ¬ w.firstAccepted ≤ 0 := Nat.not_succ_le_zero _
    rw [decide_eq_false hnone, Nat.zero_min]
    rfl
  | succ left ih =>
    cases haccepted : (w.outcome 0).isAccepted with
    | true =>
      have hfirst := World.firstAccepted_of_accepted haccepted
      have hone : min (left + 1) 1 = 1 := by omega
      have hle : 1 ≤ left + 1 := by omega
      rw [run_sendFrom_accepted haccepted, hfirst, hone, decide_eq_true hle]
      rfl
    | false =>
      have hfirst := World.firstAccepted_afterStep_post (p := postOf url message) haccepted
      cases left with
      | zero =>
        -- the last attempt, and its outcome is not the first that is accepted
        have hone : min 1 w.firstAccepted = 1 := by omega
        have hbeyond : ¬ w.firstAccepted ≤ 1 := by
          have : 0 < (w.afterStep (.post (postOf url message))).firstAccepted := Nat.succ_pos _
          omega
        rw [run_sendFrom_last haccepted, hone, decide_eq_false hbeyond]
        rfl
      | succ left =>
        -- the pause leaves the outcomes alone, so the rest is the delivery from there
        obtain ⟨k, hk⟩ : ∃ k, (w.afterStep (.post (postOf url message))).firstAccepted = k + 1 :=
          ⟨_, rfl⟩
        have hpause : ((w.afterStep (.post (postOf url message))).afterStep
            (.sleep (.int (2 ^ done)))).firstAccepted = k + 1 := hk
        rw [hk] at hfirst
        have hmin : min (left + 1 + 1) (k + 1 + 1) = min left k + 2 := by omega
        have hmin' : min (left + 1) (k + 1) = min left k + 1 := by omega
        have hiff : k + 1 + 1 ≤ left + 1 + 1 ↔ k + 1 ≤ left + 1 := by omega
        rw [run_sendFrom_again haccepted, ih, hpause, hfirst, hmin, hmin', schedule_succ,
          decide_eq_decide.2 hiff]
        rfl

/-- **Attempts back off.** A message is posted until it is accepted, and at
most `n` times; between two posts the sender pauses, for one second first
and then for twice as long each time, and it does not pause after the last.
It answers whether one of the first `n` outcomes was accepted. Nothing else
happens in the world. -/
theorem send_backs_off (url : String) (message : Json) (n : Int) (w : World) :
    ∃ accepted posts w', posts = min n.toNat w.firstAccepted ∧
      (send url message n).run.run w = (.ok accepted, w') ∧
      (accepted = true ↔ ∃ i : Nat, (i : Int) < n ∧ (w.outcome i).isAccepted = true) ∧
      w' = w.afterSteps (schedule (postOf url message) 0 posts) ∧
      w'.trace.deliveries = w.trace.deliveries ++ schedule (postOf url message) 0 posts ∧
      w'.trace.posts = w.trace.posts ++ List.replicate posts (postOf url message) ∧
      w'.trace.sleeps = w.trace.sleeps ++ (List.range (posts - 1)).map fun i => .int (2 ^ i) := by
  refine ⟨_, _, _, rfl, run_sendFrom n.toNat 0 w, ?_, rfl, World.deliveries_afterSteps, ?_, ?_⟩
  · rw [decide_eq_true_eq, World.firstAccepted_le_iff]
    refine exists_congr fun i => and_congr_left fun _ => ?_
    omega
  · rw [World.posts_afterSteps, posts_schedule]
  · rw [World.sleeps_afterSteps, sleeps_schedule, List.range_eq_range']

end Notify

end SecureReview
