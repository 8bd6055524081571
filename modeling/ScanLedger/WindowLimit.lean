/-
# The rolling window of a provider

`_SlidingWindowLimiter` of `app/services/outbound.py`: the times of the latest
grants are kept, those that are a window old are dropped at each turn, and a
turn grants while fewer than the limit are kept. The times that are kept stand
for all grants ever made, as far as the last window goes (`recent`), so no window
of a run holds more grants than the limit (`window_limit`). A full limiter sleeps
until its oldest grant has left the window, so no task sleeps twice.

Key definitions: `WindowLimit`, `SlidingWindowLimiter.turn`, `slidingWindow`.
Key theorems: `History.step`, `oneSleep_slidingWindow`, `window_limit`.
-/
import Mathlib.Algebra.Order.Field.Rat
import Mathlib.Tactic.NormNum
import ScanLedger.Lib.LockedLoop

namespace ScanLedger

open Run LockedLoop

/-- What `_SlidingWindowLimiter` is made with. -/
structure WindowLimit where
  limit : ℕ
  windowSeconds : ℚ
  limit_pos : 0 < limit
  window_pos : 0 < windowSeconds

/-- `_SlidingWindowLimiter`; `locked` is its `asyncio.Lock`. -/
structure SlidingWindowLimiter where
  timestamps : List ℚ
  locked : Bool
  deriving DecidableEq, Repr

namespace SlidingWindowLimiter

def new : SlidingWindowLimiter := ⟨[], false⟩

variable (W : WindowLimit)

/-- The times that are less than a window old. -/
def kept (l : SlidingWindowLimiter) (now : ℚ) : List ℚ :=
  l.timestamps.filter fun t => decide (now - t < W.windowSeconds)

/-- One turn of the loop of `acquire`: grant and give the lock back, or keep it
and sleep. A limiter that is full has a first time. -/
def turn (l : SlidingWindowLimiter) (now : ℚ) : SlidingWindowLimiter × Option ℚ :=
  let timestamps := l.kept W now
  if timestamps.length < W.limit then (⟨timestamps ++ [now], false⟩, none)
  else (⟨timestamps, true⟩,
    some (now + (W.windowSeconds - (now - timestamps.headD now) + 1 / 20)))

end SlidingWindowLimiter

/-- `acquire`, by any number of tasks. -/
def slidingWindow (W : WindowLimit) : LockedLoop SlidingWindowLimiter ℚ where
  turn l now := l.turn W now
  locked l := l.locked
  unlock l := { l with locked := false }
  locked_turn l now := by
    unfold SlidingWindowLimiter.turn
    dsimp only
    split_ifs <;> rfl
  locked_unlock _ := rfl

/-- `PUBLIC_REQUESTS_PER_WINDOW` in `RATE_WINDOW_SECONDS`. -/
def publicLimit : WindowLimit := ⟨5, 30, by decide, by norm_num⟩

/-- `KEYED_REQUESTS_PER_WINDOW` in `RATE_WINDOW_SECONDS`. -/
def keyedLimit : WindowLimit := ⟨50, 30, by decide, by norm_num⟩

variable {W : WindowLimit} {l l' : SlidingWindowLimiter} {now later wake : ℚ}

/-! ### A turn -/

theorem turn_grants (h : l.turn W now = (l', none)) :
    (l.kept W now).length < W.limit ∧ l' = ⟨l.kept W now ++ [now], false⟩ := by
  unfold SlidingWindowLimiter.turn at h
  dsimp only at h
  split_ifs at h with hlt
  · exact ⟨hlt, (Prod.mk.inj h).1.symm⟩
  · cases (Prod.mk.inj h).2

theorem turn_sleeps (h : l.turn W now = (l', some wake)) :
    W.limit ≤ (l.kept W now).length ∧ l' = ⟨l.kept W now, true⟩ ∧
      wake = now + (W.windowSeconds - (now - (l.kept W now).headD now) + 1 / 20) := by
  unfold SlidingWindowLimiter.turn at h
  dsimp only at h
  split_ifs at h with hlt
  · cases (Prod.mk.inj h).2
  · obtain ⟨hl, hwake⟩ := Prod.mk.inj h
    exact ⟨not_lt.mp hlt, hl.symm, (Option.some.inj hwake).symm⟩

theorem turn_eq_none_iff : (l.turn W now).2 = none ↔ (l.kept W now).length < W.limit := by
  unfold SlidingWindowLimiter.turn
  dsimp only
  split_ifs with hlt <;> simp [hlt]

/-- No more are kept than the limit. -/
def WithinLimit (W : WindowLimit) (l : SlidingWindowLimiter) (_now : ℚ) : Prop :=
  l.timestamps.length ≤ W.limit

theorem keeps_withinLimit (W : WindowLimit) : Keeps (slidingWindow W) (WithinLimit W) where
  pass h _ := h
  turn {l now} h := by
    change ((l.turn W now).1).timestamps.length ≤ W.limit
    rcases hturn : l.turn W now with ⟨l', _ | wake⟩
    · obtain ⟨hlt, rfl⟩ := turn_grants hturn
      rw [List.length_append]
      exact hlt
    · obtain ⟨-, rfl, -⟩ := turn_sleeps hturn
      exact (List.length_filter_le _ _).trans h
  unlock h := h

/-- When its sleep is over, the oldest grant has left the window. -/
theorem oneSleep_slidingWindow (W : WindowLimit) : OneSleep (slidingWindow W) (WithinLimit W) := by
  intro l now l' wake hwithin hturn later hwake
  obtain ⟨hfull, rfl, rfl⟩ := turn_sleeps hturn
  have hpos : 0 < (l.kept W now).length := lt_of_lt_of_le W.limit_pos hfull
  have hle : (l.kept W now).length ≤ W.limit := (List.length_filter_le _ _).trans hwithin
  obtain ⟨t, rest, hcons⟩ := List.exists_cons_of_length_pos hpos
  rw [hcons] at hwake hle
  change (SlidingWindowLimiter.turn W ⟨l.kept W now, true⟩ later).2 = none
  rw [turn_eq_none_iff, SlidingWindowLimiter.kept, hcons]
  have hold : ¬ later - t < W.windowSeconds := by
    simp only [List.headD_cons] at hwake
    linarith
  rw [List.filter_cons_of_neg (by simpa using hold)]
  exact lt_of_lt_of_le (Nat.lt_succ_of_le (List.length_filter_le _ rest)) hle

/-! ### All grants so far -/

/-- Times that are all less than a window apart. -/
def Near (W : WindowLimit) (p : ℚ → Bool) : Prop :=
  ∀ t u, p t = true → p u = true → u - t < W.windowSeconds

/-- What is kept stands for all grants, as far as the last window goes, and no
more than the limit are near each other. -/
structure History (W : WindowLimit) (granted : List (ℕ × ℚ)) (s : State SlidingWindowLimiter ℚ) :
    Prop where
  within : s.resource.timestamps.length ≤ W.limit
  recent : ∀ p : ℚ → Bool, (∀ t, p t = true → s.clock - t < W.windowSeconds) →
    granted.countP (fun e => p e.2) = s.resource.timestamps.countP p
  window : ∀ p, Near W p → granted.countP (fun e => p e.2) ≤ W.limit

variable {granted : List (ℕ × ℚ)} {s s' : State SlidingWindowLimiter ℚ} {a : Act ℚ}

theorem countP_kept {p : ℚ → Bool} (hp : ∀ t, p t = true → now - t < W.windowSeconds) :
    (l.kept W now).countP p = l.timestamps.countP p := by
  unfold SlidingWindowLimiter.kept
  rw [List.countP_filter]
  refine List.countP_congr fun t _ => ?_
  rw [Bool.and_eq_true, decide_eq_true_eq]
  exact and_iff_left_of_imp (hp t)

/-- Nothing is granted, and the times that count are kept. -/
theorem History.quiet (h : History W granted s) {new : List (ℕ × ℚ)} (hnew : new = [])
    (hwithin : s'.resource.timestamps.length ≤ W.limit) (hclock : s.clock ≤ s'.clock)
    (hkept : ∀ p : ℚ → Bool, (∀ t, p t = true → s'.clock - t < W.windowSeconds) →
      s'.resource.timestamps.countP p = s.resource.timestamps.countP p) :
    History W (granted ++ new) s' := by
  rw [hnew, List.append_nil]
  refine ⟨hwithin, fun p hp => ?_, h.window⟩
  rw [hkept p hp]
  exact h.recent p fun t ht => lt_of_le_of_lt (sub_le_sub_right hclock t) (hp t ht)

/-- A grant joins the times that are less than a window old. -/
theorem History.grant (h : History W granted s)
    (htimes : s'.resource.timestamps = s.resource.kept W s.clock ++ [s.clock])
    (hclock : s'.clock = s.clock) (hwithin : s'.resource.timestamps.length ≤ W.limit) :
    History W (granted ++ [(i, s.clock)]) s' := by
  have hrecent : ∀ p : ℚ → Bool, (∀ t, p t = true → s'.clock - t < W.windowSeconds) →
      (granted ++ [(i, s.clock)]).countP (fun e => p e.2) =
        s'.resource.timestamps.countP p := by
    intro p hp
    rw [hclock] at hp
    rw [htimes, List.countP_append, List.countP_append, h.recent p hp, countP_kept hp]
    simp only [List.countP_singleton]
  refine ⟨hwithin, hrecent, fun p hp => ?_⟩
  by_cases hnow : p s.clock = true
  · -- what is near this grant is recent
    rw [hrecent p fun t ht => hclock ▸ hp t s.clock ht hnow]
    exact List.countP_le_length.trans hwithin
  · have hother : [(i, s.clock)].countP (fun e => p e.2) = 0 := by
      rw [List.countP_eq_zero]
      intro e he
      rw [List.mem_singleton.mp he]
      exact hnow
    rw [List.countP_append, hother, Nat.add_zero]
    exact h.window p hp

theorem History.step (h : History W granted s) (hs : (slidingWindow W).step s a = some s') :
    History W (granted ++ (slidingWindow W).grants s a) s' := by
  have hkeep : WithinLimit W s'.resource s'.clock := (keeps_withinLimit W).step h.within hs
  cases step_moves hs with
  | tick hd => exact h.quiet rfl h.within (le_add_of_nonneg_right hd) fun _ _ => rfl
  | call => exact h.quiet rfl h.within le_rfl fun _ _ => rfl
  | giveUp hw => exact h.quiet rfl h.within le_rfl fun _ _ => rfl
  | giveBack hw => exact h.quiet rfl h.within le_rfl fun _ _ => rfl
  | @sleep i r wake hc hturn =>
    have hnone : (slidingWindow W).grants s (.resume i) = [] := by
      simp only [grants, hturn]
      rfl
    refine h.quiet hnone hkeep le_rfl fun p hp => ?_
    obtain ⟨-, rfl, -⟩ := turn_sleeps hturn
    exact countP_kept hp
  | @grant i r hc hturn =>
    have hone : (slidingWindow W).grants s (.resume i) = [(i, s.clock)] := by
      simp only [grants, hturn]
      rfl
    obtain ⟨hlt, rfl⟩ := turn_grants hturn
    rw [hone]
    exact h.grant rfl rfl hkeep

theorem history_init (W : WindowLimit) (now : ℚ) : History W [] (init .new now) :=
  ⟨Nat.zero_le _, fun _ _ => rfl, fun _ _ => Nat.zero_le _⟩

theorem history_exec {ls : List (Act ℚ)}
    (h : exec (slidingWindow W).step (init .new now) ls = some s) :
    History W (emitted (slidingWindow W).step (slidingWindow W).grants (init .new now) ls) s := by
  have hmeets : Meets (slidingWindow W).step (fun _ _ => True) (init .new now) ls :=
    meets_of_forall (fun _ _ => trivial) ls _
  exact emitted_inv (J := History W) (fun _ _ _ _ hj _ hs => hj.step hs) (history_init W now)
    hmeets h

/-! ### The limit -/

/-- A half-open interval as long as the window holds at most the limit of grants. -/
def WithinWindows (W : WindowLimit) (granted : List (ℕ × ℚ)) : Prop :=
  ∀ lo, granted.countP (fun e => decide (lo ≤ e.2) && decide (e.2 < lo + W.windowSeconds)) ≤
      W.limit ∧
    granted.countP (fun e => decide (lo < e.2) && decide (e.2 ≤ lo + W.windowSeconds)) ≤ W.limit

/-- If sleeps last as long as they were asked to, each task sleeps once at most,
and one that runs on after its sleep is granted. -/
def SleepsOnce (W : WindowLimit) (now : ℚ) (ls : List (Act ℚ))
    (s : State SlidingWindowLimiter ℚ) : Prop :=
  Meets (slidingWindow W).step Timely (init .new now) ls →
    (∀ i, (emitted (slidingWindow W).step (slidingWindow W).sleeps (init .new now) ls).count i ≤
      1) ∧
    ∀ i wake s', s.tasks[i]? = some (.sleeping wake) → wake ≤ s.clock →
      (slidingWindow W).step s (.resume i) = some s' → s'.tasks[i]? = some .granted

theorem History.withinWindows (h : History W granted s) : WithinWindows W granted := by
  intro lo
  refine ⟨h.window (fun t => decide (lo ≤ t) && decide (t < lo + W.windowSeconds)) ?_,
    h.window (fun t => decide (lo < t) && decide (t ≤ lo + W.windowSeconds)) ?_⟩
  · intro t u ht hu
    simp only [Bool.and_eq_true, decide_eq_true_eq] at ht hu
    linarith
  · intro t u ht hu
    simp only [Bool.and_eq_true, decide_eq_true_eq] at ht hu
    linarith

/-- **The limit of a provider**, in every run. -/
theorem window_limit (W : WindowLimit) (now : ℚ) (ls : List (Act ℚ))
    (s : State SlidingWindowLimiter ℚ)
    (h : exec (slidingWindow W).step (init .new now) ls = some s) :
    WithinWindows W (emitted (slidingWindow W).step (slidingWindow W).grants (init .new now) ls) ∧
      SleepsOnce W now ls s := by
  have hwithin : WithinLimit W .new now := Nat.zero_le _
  have hasleep : Asleep (slidingWindow W) (WithinLimit W) s :=
    exec_inv (fun _ _ _ hi hs =>
      asleep_step (keeps_withinLimit W) (oneSleep_slidingWindow W) hi hs)
      (asleep_init hwithin rfl) h
  refine ⟨(history_exec h).withinWindows, fun hm => ⟨fun i => ?_, fun i wake s' hi hwake hs => ?_⟩⟩
  · exact sleeps_le_one (keeps_withinLimit W) (oneSleep_slidingWindow W) hwithin rfl hm h i
  · exact hasleep.granted hi hwake hs

/-! ### One request in a second -/

def oneInOneSecond : WindowLimit := ⟨1, 1, by decide, by norm_num⟩

/-- Two tasks ask at once; the second is granted after its sleep. -/
def twoAtOnce : List (Act ℚ) :=
  [.call, .call, .resume 0, .resume 1, .tick (21 / 20), .resume 1]

theorem window_limit_twoAtOnce : ∃ s,
    exec (slidingWindow oneInOneSecond).step (init .new 0) twoAtOnce = some s ∧
      WithinWindows oneInOneSecond (emitted (slidingWindow oneInOneSecond).step
        (slidingWindow oneInOneSecond).grants (init .new 0) twoAtOnce) ∧
      SleepsOnce oneInOneSecond 0 twoAtOnce s := by
  have hrun : (exec (slidingWindow oneInOneSecond).step (init .new 0) twoAtOnce).isSome := by
    decide +kernel
  obtain ⟨s, hs⟩ := Option.isSome_iff_exists.mp hrun
  exact ⟨s, hs, window_limit oneInOneSecond 0 twoAtOnce s hs⟩

example : emitted (slidingWindow oneInOneSecond).step (slidingWindow oneInOneSecond).grants
    (init .new 0) twoAtOnce = [(0, 0), (1, 21 / 20)] := by decide +kernel

end ScanLedger
