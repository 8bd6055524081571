/-
# The rate at which slots are entered

A token is taken before the two semaphores are awaited, so a task can hold a
token for as long as the semaphores keep it waiting, while the bucket refills
to the full rate: when the holders leave, the waiting tasks enter together
(`not_rate_ceiling`). Tokens in the bucket and tokens held by tasks with no
slot yet pay for every slot entered (`level`), and only the first are capped
at the rate. Where both together are at most the rate whenever a slot is
entered, slots start at the rate in every window (`rate_ceiling`).

Key definitions: `holding`, `level`, `TokensWithinRate`.
Key theorems: `meter`, `rate_ceiling`.
-/
import ScanLedger.Lib.Meter
import ScanLedger.Budgets

namespace ScanLedger
namespace Governor

open Run Tasks

variable {β : Type} {L : ValidLimits} {s s' : State β}

/-- Holds a token, and no slot yet. -/
def holding (t : Task β) : Bool :=
  match t.phase with
  | .globalWait | .hostWait => true
  | _ => false

/-- The tokens there are: in the bucket now, and with the waiting tasks. -/
def State.level (s : State β) : ℚ :=
  s.bucket.available s.clock + (s.tasks.countP holding : ℕ)

/-- When a slot is entered, the tokens there are do not exceed the rate. -/
def TokensWithinRate (L : ValidLimits) (s : State β) (a : Act β) : Prop :=
  entered s a ≠ [] → s.level ≤ L.connectionsPerSecond

instance (L : ValidLimits) (s : State β) (a : Act β) : Decidable (TokensWithinRate L s a) :=
  inferInstanceAs (Decidable (_ → _))

/-- The bucket of a governor with limits `L`. -/
structure BucketInv (L : ValidLimits) (s : State β) : Prop where
  rate : s.bucket.rate = L.connectionsPerSecond
  tokens : 0 ≤ s.bucket.tokens
  updated : s.bucket.updated ≤ s.clock

theorem BucketInv.available_nonneg (h : BucketInv L s) : 0 ≤ s.bucket.available s.clock := by
  have hr := L.rate_pos
  have hd := sub_nonneg.mpr h.updated
  unfold TokenBucket.available
  rw [h.rate]
  exact le_min hr.le (add_nonneg h.tokens (mul_nonneg hd hr.le))

/-- A refill changes nothing that is available. -/
theorem available_refilled (b : TokenBucket) (now tokens : ℚ) (l : Bool) (h : tokens ≤ b.rate) :
    (⟨b.rate, tokens, now, l⟩ : TokenBucket).available now = tokens := by
  simp [TokenBucket.available, h]

theorem available_le_rate (b : TokenBucket) (now : ℚ) : b.available now ≤ b.rate := min_le_left _ _

/-- Time brings at most the rate. -/
theorem available_later {b : TokenBucket} {now later : ℚ} (hrate : 0 ≤ b.rate) (h : now ≤ later) :
    b.available later ≤ b.available now + b.rate * (later - now) := by
  have hpass := mul_nonneg hrate (sub_nonneg.mpr h)
  unfold TokenBucket.available
  rw [← min_add_add_right]
  refine le_min ((min_le_left _ _).trans (by linarith)) ((min_le_right _ _).trans (le_of_eq ?_))
  ring

theorem available_tick (h : BucketInv L s) {d : ℚ} (hd : 0 ≤ d) :
    s.bucket.available (s.clock + d) ≤
      s.bucket.available s.clock + L.connectionsPerSecond * d := by
  have hrate : 0 ≤ s.bucket.rate := h.rate ▸ L.rate_pos.le
  have hle := available_later hrate (le_add_of_nonneg_right (a := s.clock) hd)
  rwa [add_sub_cancel_left, h.rate] at hle

theorem bucketInv_init (L : ValidLimits) (now : ℚ) : BucketInv L (init L now : State β) :=
  ⟨rfl, L.rate_pos.le, le_rfl⟩

theorem bucketInv_step {a : Act β} (hi : BucketInv L s) (h : step L s a = some s') :
    BucketInv L s' := by
  cases a with
  | tick d =>
    simp only [step] at h
    split_ifs at h with hd
    cases h
    exact ⟨hi.rate, hi.tokens, hi.updated.trans (by linarith)⟩
  | spawn host body => cases h; exact ⟨hi.rate, hi.tokens, hi.updated⟩
  | reportError host => cases h; exact ⟨hi.rate, hi.tokens, hi.updated⟩
  | reportSuccess host => cases h; exact ⟨hi.rate, hi.tokens, hi.updated⟩
  | leave i =>
    obtain ⟨t, -, -, rfl⟩ := leave_inv h
    exact ⟨hi.rate, hi.tokens, hi.updated⟩
  | cancel i =>
    obtain ⟨t, -, hc⟩ := cancel_cancels h
    cases hc <;> exact ⟨hi.rate, hi.tokens, hi.updated⟩
  | resume i =>
    obtain ⟨t, -, hm⟩ := resume_moves h
    cases hm with
    | turn hp =>
      rcases bucketTurn_cases s i t with ⟨h1, he⟩ | ⟨w, he⟩ <;> rw [he]
      · exact ⟨hi.rate, sub_nonneg.mpr h1, le_rfl⟩
      · exact ⟨hi.rate, hi.available_nonneg, le_rfl⟩
    | refuse | letIn | wake | takeGlobal | enter => exact ⟨hi.rate, hi.tokens, hi.updated⟩

/-- The clock never goes back. -/
theorem clock_step {a : Act β} (h : step L s a = some s') : s.clock ≤ s'.clock := by
  cases a with
  | tick d =>
    simp only [step] at h
    split_ifs at h with hd
    cases h
    exact le_add_of_nonneg_right hd
  | spawn host body => cases h; exact le_rfl
  | reportError host => cases h; exact le_rfl
  | reportSuccess host => cases h; exact le_rfl
  | leave i => obtain ⟨t, -, -, rfl⟩ := leave_inv h; exact le_rfl
  | cancel i =>
    obtain ⟨t, -, hc⟩ := cancel_cancels h
    cases hc <;> exact le_rfl
  | resume i =>
    obtain ⟨t, -, hm⟩ := resume_moves h
    cases hm with
    | turn hp => rw [bucketTurn_clock]
    | refuse | letIn | wake | takeGlobal | enter => exact le_rfl

/-- A step that enters a slot takes no time. -/
theorem clock_entered {a : Act β} (h : step L s a = some s') (he : entered s a ≠ []) :
    s'.clock = s.clock := by
  cases a with
  | resume i =>
    obtain ⟨t, -, hm⟩ := resume_moves h
    cases hm with
    | turn hp => rw [bucketTurn_clock]
    | refuse | letIn | wake | takeGlobal | enter => rfl
  | tick | spawn | cancel | leave | reportError | reportSuccess => exact absurd rfl he

/-- What is available does not change in a move of a task past its bucket. -/
theorem level_set {i : ℕ} {t : Task β} (ht : s.tasks[i]? = some t) (p : Phase) :
    (s.setPhase i t p).level + (if holding t then 1 else 0) =
      s.level + if holding { t with phase := p } then 1 else 0 := by
  have hadd := countP_set_add (y := { t with phase := p }) ht holding
  have hq := congrArg (Nat.cast : ℕ → ℚ) hadd
  push_cast at hq
  unfold State.level
  rw [setPhase_tasks, setPhase_bucket, setPhase_clock]
  linarith

/-- A task that is cancelled gives up the token it holds. -/
theorem level_cancel {i : ℕ} {t : Task β} (ht : s.tasks[i]? = some t) (hc : Cancels s i t s') :
    s'.level ≤ s.level ∧ s'.clock = s.clock := by
  have hset := level_set ht .cancelled
  have hle : (s.setPhase i t .cancelled).level ≤ s.level := by
    rw [show holding { t with phase := .cancelled } = false from rfl] at hset
    by_cases hh : holding t = true
    · simp only [hh, if_true, Bool.false_eq_true, if_false, add_zero] at hset
      linarith
    · simp only [hh, Bool.false_eq_true, if_false, add_zero] at hset
      exact hset.le
  -- what a cancel gives back, a lock or a permit, is not part of the level
  have hout : s'.level = (s.setPhase i t .cancelled).level ∧ s'.clock = s.clock := by
    cases hc <;> exact ⟨rfl, rfl⟩
  rw [hout.1, hout.2]
  exact ⟨hle, rfl⟩

/-- The token a turn takes moves from the bucket to the task. -/
theorem level_turn {i : ℕ} {t : Task β} (ht : s.tasks[i]? = some t) (hno : holding t = false) :
    (bucketTurn s i t).level = s.level := by
  have hrate := available_le_rate s.bucket s.clock
  rcases bucketTurn_cases s i t with ⟨h1, he⟩ | ⟨w, he⟩ <;> rw [he] <;>
    unfold State.level <;> simp only [setPhase_tasks, setPhase_bucket, setPhase_clock]
  · have hadd := countP_set_add (y := { t with phase := .globalWait }) ht holding
    simp only [hno, Bool.false_eq_true, if_false, add_zero] at hadd
    rw [available_refilled _ _ _ _ (by linarith), hadd]
    simp [holding]
  · have hadd := countP_set_eq (y := { t with phase := .bucketSleep w }) ht
      (p := holding) (by rw [hno]; rfl)
    rw [available_refilled _ _ _ _ hrate, hadd]

/-- A task that moves pays for the slot it enters. -/
theorem level_moves {i : ℕ} {t : Task β} (ht : s.tasks[i]? = some t) (hm : Moves L s i t s') :
    s'.level + ((entered s (.resume i)).length : ℚ) ≤ s.level ∧ s'.clock = s.clock := by
  simp only [entered, ht]
  cases hm with
  | refuse e hp hc =>
    have hset := level_set ht (.refused e)
    simp only [holding, hp, Bool.false_eq_true, if_false, add_zero] at hset
    simp [hp, hset]
  | letIn hp hc =>
    have hset := level_set ht (afterCheck s t.host)
    have hno : holding { t with phase := afterCheck s t.host } = false := by
      unfold afterCheck; split_ifs <;> rfl
    rw [hno] at hset
    simp only [holding, hp, Bool.false_eq_true, if_false, add_zero] at hset
    simp [hp, hset]
  | wake w hp =>
    have hset := level_set ht .bucketLock
    simp only [holding, hp, Bool.false_eq_true, if_false, add_zero] at hset
    simp [hp, hset]
  | turn hp =>
    have hne : t.phase ≠ .hostWait ∧ holding t = false := by
      rcases hp with ⟨hp, -⟩ | ⟨w, hp⟩ <;> simp [holding, hp]
    simp only [hne.1, if_false, List.length_nil, Nat.cast_zero, add_zero]
    exact ⟨(level_turn ht hne.2).le, bucketTurn_clock s i t⟩
  | takeGlobal hp hf =>
    have hset := level_set ht .hostWait
    simp only [holding, hp, if_true] at hset
    have hle : ({ s with globalFree := s.globalFree - 1 }.setPhase i t .hostWait).level ≤
        s.level := by
      change (s.setPhase i t .hostWait).level ≤ s.level
      linarith
    exact ⟨by simpa [hp] using hle, rfl⟩
  | enter hp hf =>
    have hset := level_set ht .inSlot
    simp only [holding, hp, if_true, Bool.false_eq_true, if_false, add_zero] at hset
    have hle : (enter L s i t).level + 1 ≤ s.level := hset.le
    exact ⟨by simpa [hp] using hle, rfl⟩

/-- **The level pays for the slots.** -/
theorem level_step {a : Act β} (hi : BucketInv L s) (h : step L s a = some s') :
    s'.level + ((entered s a).length : ℚ) ≤
      s.level + L.connectionsPerSecond * (s'.clock - s.clock) := by
  -- a step that takes no time
  have hnow : s'.level + ((entered s a).length : ℚ) ≤ s.level ∧ s'.clock = s.clock →
      s'.level + ((entered s a).length : ℚ) ≤
        s.level + L.connectionsPerSecond * (s'.clock - s.clock) := by
    rintro ⟨hle, hclock⟩
    rw [hclock, sub_self, mul_zero, add_zero]
    exact hle
  cases a with
  | tick d =>
    simp only [step] at h
    split_ifs at h with hd
    cases h
    have hav := available_tick hi hd
    simp only [State.level, entered, List.length_nil, Nat.cast_zero, add_zero,
      add_sub_cancel_left]
    linarith
  | spawn host body => cases h; simp [State.level, holding, entered]
  | reportError host =>
    cases h
    simp [State.level, entered, State.reportError]
  | reportSuccess host =>
    cases h
    simp [State.level, entered, State.reportSuccess]
  | leave i =>
    obtain ⟨t, ht, hp, rfl⟩ := leave_inv h
    have hset := level_set ht .left
    simp only [holding, hp, Bool.false_eq_true, if_false, add_zero] at hset
    have hle : (s.setPhase i t .left).level ≤ s.level := hset.le
    refine hnow ⟨?_, rfl⟩
    simp only [entered, List.length_nil, Nat.cast_zero, add_zero]
    exact hle
  | cancel i =>
    obtain ⟨t, ht, hc⟩ := cancel_cancels h
    obtain ⟨hle, hclock⟩ := level_cancel ht hc
    exact hnow ⟨by simpa [entered] using hle, hclock⟩
  | resume i =>
    obtain ⟨t, ht, hm⟩ := resume_moves h
    exact hnow (level_moves ht hm)

/-- The level of a governor is the meter of the slots entered. -/
theorem meter (L : ValidLimits) : Meter (step L (β := β)) (BucketInv L) (TokensWithinRate L)
    State.clock State.level entered Prod.snd L.connectionsPerSecond L.connectionsPerSecond where
  rate := L.rate_pos.le
  inv _ _ _ hi _ h := bucketInv_step hi h
  nonneg _ hi := add_nonneg hi.available_nonneg (Nat.cast_nonneg _)
  mono _ _ _ _ _ h := clock_step h
  stamp s a e he := by
    unfold entered at he
    split at he
    · split at he
      · cases he
      · split_ifs at he
        · rw [List.mem_singleton.mp he]
        · cases he
    · cases he
  still _ _ _ h he := clock_entered h he
  pay _ _ _ hi _ h := level_step hi h
  full _ _ _ _ hok _ he := hok he

/-- **The rate ceiling.** In every run in which no slot is entered with more
tokens about than the rate, a window of length `d` sees at most `r + r d` slots
entered. -/
theorem rate_ceiling (L : ValidLimits) (now : ℚ) (ls : List (Act β))
    (hm : Meets (step L) (TokensWithinRate L) (init L now) ls) {lo hi : ℚ} (hle : lo ≤ hi) :
    ((slots L (init L now) ls).countP (fun e => decide (lo ≤ e.2) && decide (e.2 ≤ hi)) : ℚ) ≤
      L.connectionsPerSecond + L.connectionsPerSecond * (hi - lo) :=
  (meter L).window L.rate_pos.le hle ls _ (bucketInv_init L now) hm

/-! ### One connection per second -/

def oneEachSecond : ValidLimits where
  globalConcurrency := 2
  perHostConcurrency := 2
  connectionsPerSecond := 1
  connectTimeout := 1
  perHostBudget := 4
  perScanBudget := 4
  valid := by decide +kernel

/-- A new task passes the checks and takes a token, with or without a sleep. -/
def takesToken (i : ℕ) : List (Act Unit) := [.spawn "10.0.0.1" (), .resume i, .resume i]

/-- Two tasks a second apart, neither waiting after its token. -/
def atOnce : List (Act Unit) :=
  takesToken 0 ++ [.resume 0, .resume 0, .tick 1] ++ takesToken 1 ++ [.resume 1, .resume 1]

/-- Two tasks hold both permits. Two more take their tokens a second apart and
wait; they enter their slots together when the permits come back. -/
def behindPermits : List (Act Unit) :=
  atOnce ++ [.tick 1] ++ takesToken 2 ++ [.tick 1] ++ takesToken 3 ++
    [.leave 0, .leave 1, .resume 2, .resume 3, .resume 2, .resume 3]

theorem rate_ceiling_atOnce :
    ((slots oneEachSecond (init oneEachSecond 0) atOnce).countP
      (fun e => decide (0 ≤ e.2) && decide (e.2 ≤ 1)) : ℚ) ≤ 1 + 1 * (1 - 0) :=
  rate_ceiling oneEachSecond 0 atOnce (by decide +kernel) zero_le_one

/-- The rate does not bound the slots every run enters. -/
theorem not_rate_ceiling : ¬ ∀ (L : ValidLimits) (now : ℚ) (ls : List (Act Unit)) (lo hi : ℚ),
    lo ≤ hi → ((slots L (init L now) ls).countP
      (fun e => decide (lo ≤ e.2) && decide (e.2 ≤ hi)) : ℚ) ≤
        L.connectionsPerSecond + L.connectionsPerSecond * (hi - lo) := by
  intro h
  have h1 := h oneEachSecond 0 behindPermits 3 3 le_rfl
  have h2 : (slots oneEachSecond (init oneEachSecond 0) behindPermits).countP
      (fun e => decide (3 ≤ e.2) && decide (e.2 ≤ 3)) = 2 := by decide +kernel
  rw [h2] at h1
  norm_num [oneEachSecond] at h1

end Governor
end ScanLedger
