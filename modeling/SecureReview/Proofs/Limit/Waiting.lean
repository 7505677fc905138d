import Mathlib.Data.Rat.Floor
import SecureReview.Proofs.Limit.Bound
/-!
# How long a waiter waits

A waiter asks a bucket for a token, and asks again after each nap. A
request that is refused leaves the bucket with less than one token, and so
below its rate: **no token that came in is lost at the cap**, and at any
later time the bucket has what it would have if nobody had asked
(`level_refused`). So the bucket that was there before the wait tells how
the wait ends: with the first nap after which that bucket has a token
(`untilDone_turn`). Each nap brings in the same share of a token, and so the
wait comes to an end (`wait_ends`).
-/

namespace SecureReview

section Turns

variable {σ ρ : Type} {turn : σ → ρ ⊕ σ} {s s' : σ} {r : ρ}

theorem untilDone_of_inl (h : turn s = .inl r) : untilDone turn s = some r := by
  rw [untilDone, h]

theorem untilDone_of_inr (h : turn s = .inr s') : untilDone turn s = untilDone turn s' := by
  rw [untilDone, h]

end Turns

namespace Bucket

variable {b : Bucket Rat} {now nap t : Rat} {slept : Nat}

/-! ## One request of a waiter -/

/-- The bucket after a request that was refused. -/
def refused (b : Bucket Rat) (now : Rat) : Bucket Rat :=
  { b with lastCheck := now, allowance := b.level now }

/-- The bucket after a request that was granted. -/
def granted (b : Bucket Rat) (now : Rat) : Bucket Rat :=
  { b with lastCheck := now, allowance := b.level now - 1 }

/-- **A refusal takes nothing.** The bucket was below its rate, so that the
cap cut nothing off. -/
theorem level_refused (hrate : 1 ≤ b.rate) (h : b.level now < 1) :
    (b.refused now).level t = b.level t := by
  have huncut : b.level now = b.allowance + (now - b.lastCheck) * (b.rate / b.per) := by
    refine min_eq_right (le_of_lt ?_)
    have hbelow : b.level now < b.rate := h.trans_le hrate
    exact (min_lt_iff.1 hbelow).resolve_left (lt_irrefl b.rate)
  show min b.rate (b.level now + (t - now) * (b.rate / b.per)) = b.level t
  rw [huncut, level]
  congr 1
  ring

theorem granted_refused (hrate : 1 ≤ b.rate) (h : b.level now < 1) :
    (b.refused now).granted t = b.granted t := by
  rw [granted, level_refused hrate h]
  rfl

/-- If there is a token the wait is over. -/
theorem turn_of_le (hper : b.per ≠ 0) (h : 1 ≤ b.level now) :
    Waiter.turn nap ⟨b, now, slept⟩ = .inl ⟨⟨b.granted now, now, slept⟩, .ok true⟩ := by
  rw [Waiter.turn, acquire_eq hper, decide_eq_true h, if_pos h]
  rfl

/-- If there is none the waiter takes a nap. -/
theorem turn_of_lt (hper : b.per ≠ 0) (h : b.level now < 1) :
    Waiter.turn nap ⟨b, now, slept⟩ = .inr ⟨b.refused now, now + nap, slept + 1⟩ := by
  have hnone : ¬ 1 ≤ b.level now := not_le.2 h
  rw [Waiter.turn, acquire_eq hper, decide_eq_false hnone, if_neg hnone, sub_zero]
  rfl

/-! ## A whole wait -/

/-- **A wait ends with the first nap after which there is a token**, and
whether there is one is told by the bucket as it was before the wait. -/
theorem untilDone_turn (hper : b.per ≠ 0) (hrate : 1 ≤ b.rate) (naps : Nat)
    (hbefore : ∀ n < naps, b.level (now + n * nap) < 1) (hend : 1 ≤ b.level (now + naps * nap)) :
    untilDone (Waiter.turn nap) ⟨b, now, slept⟩ =
      some ⟨⟨b.granted (now + naps * nap), now + naps * nap, slept + naps⟩, .ok true⟩ := by
  -- along the wait the bucket changes, but its levels at later times do not
  induction naps generalizing b now slept with
  | zero =>
    rw [Nat.cast_zero, zero_mul, add_zero] at hend ⊢
    exact untilDone_of_inl (turn_of_le hper hend)
  | succ naps ih =>
    have hnow : b.level now < 1 := by
      have := hbefore 0 (by omega)
      rwa [Nat.cast_zero, zero_mul, add_zero] at this
    have hlater : ∀ n : Nat, now + nap + n * nap = now + (n + 1 : Nat) * nap := by
      intro n
      push_cast
      ring
    have hbefore' : ∀ n < naps, (b.refused now).level (now + nap + n * nap) < 1 := by
      intro n hn
      rw [level_refused hrate hnow, hlater]
      exact hbefore (n + 1) (by omega)
    have hend' : 1 ≤ (b.refused now).level (now + nap + naps * nap) := by
      rw [level_refused hrate hnow, hlater]
      exact hend
    have hper' : (b.refused now).per ≠ 0 := hper
    have hrate' : 1 ≤ (b.refused now).rate := hrate
    have hrest := @ih (b.refused now) (now + nap) (slept + 1) hper' hrate' hbefore' hend'
    rewrite [untilDone_of_inr (turn_of_lt hper hnow), hrest, granted_refused hrate hnow, hlater, Nat.add_assoc,
      Nat.add_comm 1 naps]
    rfl

/-! ## The bound -/

/-- After the time that it takes a token to come in there is one. -/
theorem Sound.one_le_level (h : b.Sound) (hrate : 1 ≤ b.rate) (hnow : b.lastCheck ≤ now)
    (ht : now + b.per / b.rate ≤ t) : 1 ≤ b.level t := by
  have hpos : 0 < b.rate := by linarith
  have hfill : 0 ≤ b.rate / b.per := h.fill_nonneg
  have hpassed : b.per / b.rate ≤ t - b.lastCheck := by linarith
  refine le_min hrate ?_
  calc (1 : Rat) = b.per / b.rate * (b.rate / b.per) := by
        rw [div_mul_div_cancel₀ hpos.ne', div_self h.per_pos.ne']
    _ ≤ (t - b.lastCheck) * (b.rate / b.per) := mul_le_mul_of_nonneg_right hpassed hfill
    _ ≤ b.allowance + (t - b.lastCheck) * (b.rate / b.per) :=
        le_add_of_nonneg_left h.allowance_nonneg

/-- So many naps of a tenth of a second are long enough for a token to come in. -/
theorem per_div_rate_le_naps (b : Bucket Rat) :
    b.per / b.rate ≤ (⌈10 * b.per / b.rate⌉₊ : Rat) * (1 / 10) := by
  have hceil : 10 * b.per / b.rate ≤ ⌈10 * b.per / b.rate⌉₊ := Nat.le_ceil _
  rw [mul_div_assoc] at hceil ⊢
  linarith

/-- **Waiting for a token ends.** The clock has not gone back since the
bucket was last asked, and moves on by the naps alone, of a tenth of a
second each. A bucket that can hold a token lets the waiter go after no
more naps than it takes a token to come in, and with the first after which
there is one. What it then has is what it would have had at that time,
less one token. -/
theorem wait_ends (b : Bucket Rat) (now : Rat) (h : b.Sound) (hrate : 1 ≤ b.rate)
    (hnow : b.lastCheck ≤ now) :
    ∃ w, b.wait now (1 / 10) = some w ∧ w.granted = .ok true ∧
      w.sleeps ≤ ⌈10 * b.per / b.rate⌉₊ ∧ w.clock = now + w.sleeps * (1 / 10) ∧
      (∀ n < w.sleeps, b.level (now + n * (1 / 10)) < 1) ∧
      w.bucket = { b with lastCheck := w.clock, allowance := b.level w.clock - 1 } := by
  have hends : 1 ≤ b.level (now + ⌈10 * b.per / b.rate⌉₊ * (1 / 10)) := by
    have := b.per_div_rate_le_naps
    exact h.one_le_level hrate hnow (by linarith)
  have hexists : ∃ n : Nat, 1 ≤ b.level (now + n * (1 / 10)) := ⟨_, hends⟩
  have hbefore : ∀ n < Nat.find hexists, b.level (now + n * (1 / 10)) < 1 := fun n hn =>
    not_le.1 (Nat.find_min hexists hn)
  refine ⟨_, untilDone_turn h.per_pos.ne' hrate _ hbefore (Nat.find_spec hexists), rfl, ?_, ?_, ?_, rfl⟩
  · show 0 + Nat.find hexists ≤ _
    rw [Nat.zero_add]
    exact Nat.find_min' hexists hends
  · show _ = now + ((0 + Nat.find hexists : Nat) : Rat) * (1 / 10)
    rw [Nat.zero_add]
  · rwa [Nat.zero_add]

/-- Three requests every two seconds, and a fifth of a token left: the
waiter is let go within seven naps. -/
theorem wait_ends_within_seven :
    Sound ⟨3, 2, 1 / 5, 1000⟩ ∧ (1 : Rat) ≤ 3 ∧ (1000 : Rat) ≤ 1000 + 1 / 20 ∧
    ∃ w, wait ⟨3, 2, 1 / 5, 1000⟩ (1000 + 1 / 20 : Rat) (1 / 10) = some w ∧
      w.granted = .ok true ∧ w.sleeps ≤ 7 := by
  have hsound : Sound ⟨3, 2, 1 / 5, 1000⟩ := by constructor <;> norm_num
  have hnow : (1000 : Rat) ≤ 1000 + 1 / 20 := by norm_num
  obtain ⟨w, hwait, hgranted, hsleeps, -⟩ := wait_ends _ _ hsound (by decide) hnow
  have hceil : ⌈(10 : Rat) * 2 / 3⌉₊ = 7 := by norm_num [Nat.ceil_eq_iff]
  exact ⟨hsound, by decide, hnow, w, hwait, hgranted, hsleeps.trans hceil.le⟩

end Bucket

end SecureReview
