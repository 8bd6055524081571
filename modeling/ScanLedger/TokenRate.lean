/-
# The rate of a token bucket

`_TokenBucket.acquire` by any number of tasks, on a bucket of any rate. What is
available pays for the grants: it rises at the rate, a grant takes one token, and
the bucket never holds more than its rate (`pays_tokenBucket`). So the grants of
any closed interval are bounded by the rate and the length of the interval,
whatever the tasks and their cancellations (`token_rate`). From rate 1 on, no
task sleeps twice.

Key definitions: `tokenBucket`, `Sound`.
Key theorems: `keeps_sound`, `pays_tokenBucket`, `token_rate`, `tokens_sleep_once`.
-/
import ScanLedger.Lib.LockedLoop
import ScanLedger.TokenWait

namespace ScanLedger
namespace Governor

open Run LockedLoop

/-- `acquire`, by any number of tasks. -/
def tokenBucket : LockedLoop TokenBucket ℚ where
  turn b now := b.turn now
  locked b := b.locked
  unlock b := { b with locked := false }
  locked_turn b now := by
    unfold TokenBucket.turn
    dsimp only
    split_ifs <;> rfl
  locked_unlock _ := rfl

/-- A bucket of this rate: it owes no token, and holds no more than its rate. -/
structure Sound (rate : ℚ) (b : TokenBucket) (now : ℚ) : Prop where
  rate_eq : b.rate = rate
  nonneg : 0 ≤ b.tokens
  le_rate : b.tokens ≤ rate
  updated : b.updated ≤ now

variable {rate now : ℚ} {b : TokenBucket}

theorem Sound.available_nonneg (h : Sound rate b now) (hrate : 0 < rate) :
    0 ≤ b.available now := by
  unfold TokenBucket.available
  rw [h.rate_eq]
  exact le_min hrate.le (add_nonneg h.nonneg (mul_nonneg (sub_nonneg.mpr h.updated) hrate.le))

/-- A turn leaves what is available, less the token it takes. -/
theorem sound_turn (hrate : 0 < rate) (h : Sound rate b now) :
    Sound rate (b.turn now).1 now ∧ (b.turn now).1.available now =
      b.available now - if (b.turn now).2.isNone then 1 else 0 := by
  have hle : b.available now ≤ rate := h.rate_eq ▸ available_le_rate b now
  have hpos : 0 ≤ b.available now := h.available_nonneg hrate
  by_cases hone : 1 ≤ b.available now
  · have hturn : b.turn now = (⟨b.rate, b.available now - 1, now, false⟩, none) := by
      simp [TokenBucket.turn, TokenBucket.refill, hone]
    rw [hturn]
    refine ⟨⟨h.rate_eq, sub_nonneg.mpr hone, by linarith, le_rfl⟩, ?_⟩
    exact available_refilled _ _ _ _ (by linarith [h.rate_eq])
  · have hturn : b.turn now = (⟨b.rate, b.available now, now, true⟩,
        some (now + (1 - b.available now) / b.rate)) := by
      simp [TokenBucket.turn, TokenBucket.refill, hone]
    rw [hturn]
    refine ⟨⟨h.rate_eq, hpos, hle, le_rfl⟩, ?_⟩
    exact (available_refilled _ _ _ _ (by linarith [h.rate_eq])).trans (sub_zero _).symm

theorem keeps_sound (hrate : 0 < rate) : Keeps tokenBucket (Sound rate) where
  pass h hle := ⟨h.rate_eq, h.nonneg, h.le_rate, h.updated.trans hle⟩
  turn h := (sound_turn hrate h).1
  unlock h := ⟨h.rate_eq, h.nonneg, h.le_rate, h.updated⟩

/-- **What is available pays** for the grants. -/
theorem pays_tokenBucket (hrate : 0 < rate) :
    Pays tokenBucket (Sound rate) TokenBucket.available rate rate where
  rate_nonneg := hrate.le
  nonneg h := h.available_nonneg hrate
  le_cap {b now} h := h.rate_eq ▸ available_le_rate b now
  pass {b now later} h hle := by
    have hlater := available_later (h.rate_eq ▸ hrate.le) hle
    rwa [h.rate_eq] at hlater
  turn {b now} h := by
    change (b.turn now).1.available now + _ ≤ b.available now
    rw [(sound_turn hrate h).2]
    exact (sub_add_cancel _ _).le
  unlock _ := le_rfl

theorem sound_new (hrate : 0 < rate) (now : ℚ) : Sound rate (.new rate now) now :=
  ⟨rfl, hrate.le, le_rfl, le_rfl⟩

/-- **The rate of a bucket.** In every run its tokens are between none and the
rate, and a closed interval of length `d` holds at most `r + r d` grants. -/
theorem token_rate (rate : ℚ) (hrate : 0 < rate) (now : ℚ) (ls : List (LockedLoop.Act ℚ))
    (s : LockedLoop.State TokenBucket ℚ)
    (h : exec tokenBucket.step (LockedLoop.init (.new rate now) now) ls = some s) :
    (0 ≤ s.resource.tokens ∧ s.resource.tokens ≤ rate) ∧
      ∀ lo hi, lo ≤ hi → ((emitted tokenBucket.step tokenBucket.grants
        (LockedLoop.init (.new rate now) now) ls).countP
          (fun e => decide (lo ≤ e.2) && decide (e.2 ≤ hi)) : ℚ) ≤ rate + rate * (hi - lo) := by
  have hsound : Sound rate s.resource s.clock :=
    exec_resource (keeps_sound hrate) (sound_new hrate now) h
  refine ⟨⟨hsound.nonneg, hsound.le_rate⟩, fun lo hi hle => ?_⟩
  have hmeter := LockedLoop.meter (keeps_sound hrate) (pays_tokenBucket hrate)
  exact hmeter.window hrate.le hle ls _ (sound_new hrate now)
    (meets_of_forall (fun _ _ => trivial) ls _)

/-- Where a bucket can hold a token, no task sleeps twice. -/
theorem tokens_sleep_once (hrate : 1 ≤ rate) (now : ℚ) {ls : List (LockedLoop.Act ℚ)}
    {s : LockedLoop.State TokenBucket ℚ}
    (hm : Meets tokenBucket.step Timely (LockedLoop.init (.new rate now) now) ls)
    (h : exec tokenBucket.step (LockedLoop.init (.new rate now) now) ls = some s) (i : ℕ) :
    (emitted tokenBucket.step tokenBucket.sleeps (LockedLoop.init (.new rate now) now) ls).count i ≤
      1 := by
  have hpos : 0 < rate := lt_of_lt_of_le one_pos hrate
  have hone : OneSleep tokenBucket (Sound rate) := by
    intro b now b' wake hb hturn later hwake
    have hsome : (b.turn now).2 = some wake := congrArg Prod.snd hturn
    have hnone := TokenBucket.turn_after_sleep (hb.rate_eq ▸ hrate) hsome hwake
    have hfst : (b.turn now).1 = b' := congrArg Prod.fst hturn
    rwa [hfst] at hnone
  exact sleeps_le_one (keeps_sound hpos) hone (sound_new hpos now) rfl hm h i

/-- One token in two seconds. -/
theorem token_rate_half : ∃ s, exec tokenBucket.step (LockedLoop.init (.new (1 / 2) 0) 0)
      [.call, .resume 0, .tick 2, .cancel 0] = some s ∧
    (0 ≤ s.resource.tokens ∧ s.resource.tokens ≤ 1 / 2) ∧
      ∀ lo hi, lo ≤ hi → ((emitted tokenBucket.step tokenBucket.grants
        (LockedLoop.init (.new (1 / 2) 0) 0) [.call, .resume 0, .tick 2, .cancel 0]).countP
          (fun e => decide (lo ≤ e.2) && decide (e.2 ≤ hi)) : ℚ) ≤ 1 / 2 + 1 / 2 * (hi - lo) := by
  have hrun : (exec tokenBucket.step (LockedLoop.init (.new (1 / 2) 0) 0)
      [.call, .resume 0, .tick 2, .cancel 0]).isSome := by
    decide +kernel
  obtain ⟨s, hs⟩ := Option.isSome_iff_exists.mp hrun
  exact ⟨s, hs, token_rate (1 / 2) one_half_pos 0 _ s hs⟩

end Governor
end ScanLedger
