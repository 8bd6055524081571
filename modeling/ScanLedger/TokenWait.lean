/-
# The wait for a rate token

The loop of `_TokenBucket.acquire`, one `turn` after another with the bucket's
lock held throughout, against a clock that never goes back and sleeps that last
at least as long as they were asked to. A bucket is never filled above its
rate, so one with a rate below 1 never holds the whole token a turn takes: its
loop sleeps and wakes for ever (`not_grantsWithin`). From rate 1 on, the first
sleep brings what was missing. `validate_against` asks only for a positive
rate, and lets both kinds through (`grantsWithin_iff`).

Key definitions: `TokenBucket.turns`, `TokenBucket.GrantsWithin`, `TokenBucket.Timely`.
Key theorems: `turn_after_sleep`, `not_grantsWithin`, `grantsWithin_iff`.
-/
import ScanLedger.RateCeiling

namespace ScanLedger
namespace Governor

open Run

namespace TokenBucket

/-- Turn `n` of the loop of `acquire`, which reads `clock n`. -/
def turns (b : TokenBucket) (clock : ℕ → ℚ) : ℕ → TokenBucket × Option ℚ
  | 0 => b.turn (clock 0)
  | n + 1 => (turns b clock n).1.turn (clock (n + 1))

/-- A turn takes its token after at most `n` sleeps. -/
def GrantsWithin (b : TokenBucket) (clock : ℕ → ℚ) (n : ℕ) : Prop :=
  ∃ k ≤ n, (b.turns clock k).2 = none

/-- The clock does not go back, and a turn that sleeps is followed when its
sleep is over. -/
structure Timely (b : TokenBucket) (clock : ℕ → ℚ) : Prop where
  start : b.updated ≤ clock 0
  mono : Monotone clock
  sleeps : ∀ n wake, (b.turns clock n).2 = some wake → wake ≤ clock (n + 1)

variable {b : TokenBucket} {now later wake : ℚ}

theorem turn_rate (b : TokenBucket) (now : ℚ) : (b.turn now).1.rate = b.rate := by
  unfold turn
  dsimp only
  split_ifs <;> rfl

theorem turn_eq_none : (b.turn now).2 = none ↔ 1 ≤ b.available now := by
  unfold turn refill
  dsimp only
  split_ifs with h <;> simp [h]

/-- A turn that sleeps leaves the bucket refilled, and asks for the time in
which the rest of a token comes. -/
theorem turn_eq_some (h : (b.turn now).2 = some wake) :
    b.available now < 1 ∧ (b.turn now).1 = { b.refill now with locked := true } ∧
      wake = now + (1 - b.available now) / b.rate := by
  unfold turn at h ⊢
  dsimp only at h ⊢
  split_ifs at h ⊢ with h1
  have hlt : b.available now < 1 := not_le.mp h1
  exact ⟨hlt, rfl, (Option.some.inj h).symm⟩

theorem turns_rate (b : TokenBucket) (clock : ℕ → ℚ) (n : ℕ) :
    (b.turns clock n).1.rate = b.rate := by
  induction n with
  | zero => exact turn_rate b _
  | succ n ih => exact (turn_rate _ _).trans ih

/-- **One sleep is enough** for a bucket that can hold a token. -/
theorem turn_after_sleep (hrate : 1 ≤ b.rate) (h : (b.turn now).2 = some wake)
    (hlater : wake ≤ later) : ((b.turn now).1.turn later).2 = none := by
  obtain ⟨-, hturn, rfl⟩ := turn_eq_some h
  have hpos : 0 < b.rate := lt_of_lt_of_le one_pos hrate
  have hmissing : 1 - b.available now ≤ (later - now) * b.rate := by
    have hsleep : (1 - b.available now) / b.rate ≤ later - now := by linarith
    exact (div_le_iff₀ hpos).mp hsleep
  rw [turn_eq_none, hturn]
  refine le_min hrate ?_
  change 1 ≤ b.available now + (later - now) * b.rate
  linarith

/-- A bucket that cannot hold a token never grants one. -/
theorem not_grantsWithin (hrate : b.rate < 1) (clock : ℕ → ℚ) (n : ℕ) :
    ¬ b.GrantsWithin clock n := by
  rintro ⟨k, -, hk⟩
  have hle : ∀ (c : TokenBucket) (now : ℚ), c.rate = b.rate → (c.turn now).2 ≠ none := by
    intro c now hc hnone
    have hav := (turn_eq_none.mp hnone).trans (available_le_rate c now)
    linarith
  cases k with
  | zero => exact hle b _ rfl hk
  | succ k => exact hle _ _ (turns_rate b clock k) hk

/-- A sleep is never longer than the time of a whole token, in a bucket that
owes none. -/
theorem turns_sleep_le (hrate : 0 < b.rate) (htokens : 0 ≤ b.tokens) {clock : ℕ → ℚ}
    (hstart : b.updated ≤ clock 0) (hmono : Monotone clock) (n : ℕ) :
    0 ≤ (b.turns clock n).1.tokens ∧ (b.turns clock n).1.updated = clock n ∧
      ∀ wake, (b.turns clock n).2 = some wake → wake ≤ clock n + 1 / b.rate := by
  have hturn : ∀ (c : TokenBucket) (now : ℚ), c.rate = b.rate → 0 ≤ c.tokens → c.updated ≤ now →
      0 ≤ (c.turn now).1.tokens ∧ (c.turn now).1.updated = now ∧
        ∀ wake, (c.turn now).2 = some wake → wake ≤ now + 1 / b.rate := by
    intro c now hc htok hup
    have hav : 0 ≤ c.available now := by
      refine le_min (hc ▸ hrate.le) (add_nonneg htok ?_)
      exact mul_nonneg (sub_nonneg.mpr hup) (hc ▸ hrate.le)
    refine ⟨?_, ?_, fun wake hw => ?_⟩
    · unfold turn refill
      dsimp only
      split_ifs with h1
      · exact sub_nonneg.mpr h1
      · exact hav
    · unfold turn refill
      dsimp only
      split_ifs <;> rfl
    · obtain ⟨-, -, rfl⟩ := turn_eq_some hw
      rw [hc]
      have hdiv : (1 - c.available now) / b.rate ≤ 1 / b.rate :=
        div_le_div_of_nonneg_right (by linarith) hrate.le
      linarith
  induction n with
  | zero => exact hturn b _ rfl htokens hstart
  | succ n ih =>
    obtain ⟨htok, hup, -⟩ := ih
    exact hturn _ _ (turns_rate b clock n) htok (hup ▸ hmono n.le_succ)

end TokenBucket

open TokenBucket

variable {β : Type} {L : ValidLimits} {s : State β}

/-- Turns a whole token's time apart are timely. -/
theorem BucketInv.timely (h : BucketInv L s) :
    Timely s.bucket fun n => s.clock + n * (1 / s.bucket.rate) := by
  have hrate : 0 < s.bucket.rate := h.rate ▸ L.rate_pos
  have hstart : s.bucket.updated ≤ s.clock + (0 : ℕ) * (1 / s.bucket.rate) := by
    simpa using h.updated
  have hmono : Monotone fun n : ℕ => s.clock + n * (1 / s.bucket.rate) := by
    intro m n hmn
    have hcast : (m : ℚ) ≤ n := Nat.cast_le.mpr hmn
    have hmul := mul_le_mul_of_nonneg_right hcast (one_div_pos.mpr hrate).le
    dsimp only
    linarith
  refine ⟨hstart, hmono, fun n wake hw => ?_⟩
  have hle := (turns_sleep_le hrate h.tokens hstart hmono n).2.2 wake hw
  push_cast
  linarith

/-- **The wait for a token ends** after at most one sleep, from every state of
a governor and for every timely clock, when the rate is at least 1; below that
no clock ends it. -/
theorem grantsWithin_iff (L : ValidLimits) (now : ℚ) (ls : List (Act β))
    (h : exec (step L) (init L now) ls = some s) :
    (∀ clock, Timely s.bucket clock → GrantsWithin s.bucket clock 1) ↔
      1 ≤ L.connectionsPerSecond := by
  have hinv : BucketInv L s :=
    exec_inv (fun _ _ _ hi hs => bucketInv_step hi hs) (bucketInv_init L now) h
  constructor
  · intro hall
    by_contra hlt
    have hrate : s.bucket.rate < 1 := hinv.rate ▸ not_le.mp hlt
    exact not_grantsWithin hrate _ 1 (hall _ hinv.timely)
  · intro hrate clock ht
    rw [← hinv.rate] at hrate
    cases hw : (s.bucket.turns clock 0).2 with
    | none => exact ⟨0, Nat.zero_le 1, hw⟩
    | some wake => exact ⟨1, le_rfl, turn_after_sleep hrate hw (ht.sleeps 0 wake hw)⟩

theorem grantsWithin_atOnce : ∃ s : State Unit,
    exec (step oneEachSecond) (init oneEachSecond 0) atOnce = some s ∧
      ((∀ clock, Timely s.bucket clock → GrantsWithin s.bucket clock 1) ↔
        1 ≤ oneEachSecond.connectionsPerSecond) := by
  have hrun : (exec (step oneEachSecond) (init oneEachSecond 0) atOnce).isSome := by
    decide +kernel
  obtain ⟨s, hs⟩ := Option.isSome_iff_exists.mp hrun
  exact ⟨s, hs, grantsWithin_iff oneEachSecond 0 atOnce hs⟩

/-- One connection in two seconds. -/
def oneInTwoSeconds : ValidLimits where
  globalConcurrency := 2
  perHostConcurrency := 2
  connectionsPerSecond := 1 / 2
  connectTimeout := 1
  perHostBudget := 4
  perScanBudget := 4
  valid := by decide +kernel

/-- A valid rate below one connection per second grants nothing. -/
theorem not_grantsWithin_oneInTwoSeconds :
    ¬ ∀ (L : ValidLimits) (now : ℚ) (ls : List (Act Unit)) (s : State Unit),
      exec (step L) (init L now) ls = some s → ∀ clock, Timely s.bucket clock →
        GrantsWithin s.bucket clock 1 := by
  intro hall
  have hclock := (bucketInv_init (β := Unit) oneInTwoSeconds 0).timely
  have hgrants := hall oneInTwoSeconds 0 [] _ rfl _ hclock
  refine not_grantsWithin (b := (init oneInTwoSeconds 0 : State Unit).bucket) ?_ _ 1 hgrants
  decide +kernel

end Governor
end ScanLedger
