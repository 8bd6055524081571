/-
# Rate windows

A system with a clock emits events, and a level pays for them: a step that
emits `n` events lowers the level by `n`, and the level rises by at most `r`
for each unit of time. Where the level is at most `cap` whenever something is
emitted, a window of length `d` sees at most `cap + r d` events, whatever the
order of the steps (`Meter.window`). A token bucket of rate `r` and capacity
`r` is the case where the level is its tokens.

Key definition: `Meter`.
Key theorem: `Meter.window`.
-/
import Mathlib.Algebra.Order.Field.Basic
import Mathlib.Tactic.Linarith
import Mathlib.Tactic.Ring
import ScanLedger.Lib.Run

open Run

variable {σ α ε K : Type*} [Field K] [LinearOrder K] [IsStrictOrderedRing K]

/-- The level pays for the events `obs` of the steps that meet `ok`; an event
happens at its `time`. -/
structure Meter (step : σ → α → Option σ) (I : σ → Prop) (ok : σ → α → Prop)
    (clock level : σ → K) (obs : σ → α → List ε) (time : ε → K) (r cap : K) : Prop where
  rate : 0 ≤ r
  inv : ∀ s a s', I s → ok s a → step s a = some s' → I s'
  nonneg : ∀ s, I s → 0 ≤ level s
  mono : ∀ s a s', I s → ok s a → step s a = some s' → clock s ≤ clock s'
  stamp : ∀ s a, ∀ e ∈ obs s a, time e = clock s
  still : ∀ s a s', step s a = some s' → obs s a ≠ [] → clock s' = clock s
  pay : ∀ s a s', I s → ok s a → step s a = some s' →
    level s' + ((obs s a).length : K) ≤ level s + r * (clock s' - clock s)
  full : ∀ s a s', I s → ok s a → step s a = some s' → obs s a ≠ [] → level s ≤ cap

namespace Meter

variable {step : σ → α → Option σ} {I : σ → Prop} {ok : σ → α → Prop} {clock level : σ → K}
  {obs : σ → α → List ε} {time : ε → K} {r cap : K}

omit [IsStrictOrderedRing K] in
/-- The events of a step, counted in a window that holds the clock or does not. -/
theorem countP_obs (h : Meter step I ok clock level obs time r cap) (p : K → Bool) (s : σ) (a : α) :
    (obs s a).countP (fun e => p (time e)) = if p (clock s) then (obs s a).length else 0 := by
  split_ifs with hp
  · rw [List.countP_eq_length]
    intro e he
    rw [h.stamp s a e he]; exact hp
  · rw [List.countP_eq_zero]
    intro e he
    rw [h.stamp s a e he]; exact hp

omit [IsStrictOrderedRing K] in
/-- Nothing happens before the clock. -/
theorem before (h : Meter step I ok clock level obs time r cap) (hi : K) :
    ∀ (ls : List α) (s : σ), I s → Meets step ok s ls → hi < clock s →
      (emitted step obs s ls).countP (fun e => decide (time e ≤ hi)) = 0
  | [], _, _, _, _ => rfl
  | a :: ls, s, hI, hm, hc => by
    cases hs : step s a with
    | none => simp [emitted, hs]
    | some s' =>
      have hc' := lt_of_lt_of_le hc (h.mono s a s' hI hm.1 hs)
      rw [emitted_cons ls hs, List.countP_append, h.countP_obs (fun t => decide (t ≤ hi)),
        before h hi ls s' (h.inv s a s' hI hm.1 hs) (hm.next hs) hc']
      simp [not_le.mpr hc]

/-- Up to `hi`, a run emits no more than the level and the time left pay for. -/
theorem upto (h : Meter step I ok clock level obs time r cap) (hi : K) :
    ∀ (ls : List α) (s : σ), I s → Meets step ok s ls → clock s ≤ hi →
      ((emitted step obs s ls).countP (fun e => decide (time e ≤ hi)) : K) ≤
        level s + r * (hi - clock s)
  | [], s, hI, _, hc => by
    have h1 := h.nonneg s hI
    have h2 := mul_nonneg h.rate (sub_nonneg.mpr hc)
    simp only [emitted, List.countP_nil, Nat.cast_zero]
    linarith
  | a :: ls, s, hI, hm, hc => by
    cases hs : step s a with
    | none =>
      have h1 := h.nonneg s hI
      have h2 := mul_nonneg h.rate (sub_nonneg.mpr hc)
      simp only [emitted, hs, List.countP_nil, Nat.cast_zero]
      linarith
    | some s' =>
      have hI' := h.inv s a s' hI hm.1 hs
      have hpay := h.pay s a s' hI hm.1 hs
      rw [emitted_cons ls hs, List.countP_append, h.countP_obs (fun t => decide (t ≤ hi))]
      simp only [hc, decide_true, if_true, Nat.cast_add]
      by_cases hc' : clock s' ≤ hi
      · have ih := upto h hi ls s' hI' (hm.next hs) hc'
        have hsplit : r * (hi - clock s) = r * (clock s' - clock s) + r * (hi - clock s') := by ring
        linarith
      · -- the clock passes `hi`, so this step emits nothing
        have hnil : obs s a = [] := by
          by_contra hne
          exact hc' (h.still s a s' hs hne ▸ hc)
        have h1 := h.nonneg s hI
        have h2 := mul_nonneg h.rate (sub_nonneg.mpr hc)
        rw [before h hi ls s' hI' (hm.next hs) (not_le.mp hc'), hnil]
        simp only [List.length_nil, Nat.cast_zero, add_zero]
        linarith

/-- **The window bound.** Any closed window of a run whose steps all meet the
condition holds at most `cap` events more than the rate gives for its length. -/
theorem window (h : Meter step I ok clock level obs time r cap) (hcap : 0 ≤ cap) {lo hi : K}
    (hle : lo ≤ hi) : ∀ (ls : List α) (s : σ), I s → Meets step ok s ls →
      ((emitted step obs s ls).countP (fun e => decide (lo ≤ time e) && decide (time e ≤ hi)) : K) ≤
        cap + r * (hi - lo)
  | [], s, _, _ => by
    have h2 := mul_nonneg h.rate (sub_nonneg.mpr hle)
    simp only [emitted, List.countP_nil, Nat.cast_zero]
    linarith
  | a :: ls, s, hI, hm => by
    have h2 := mul_nonneg h.rate (sub_nonneg.mpr hle)
    cases hs : step s a with
    | none =>
      simp only [emitted, hs, List.countP_nil, Nat.cast_zero]
      linarith
    | some s' =>
      have ih := window h hcap hle ls s' (h.inv s a s' hI hm.1 hs) (hm.next hs)
      by_cases hw : obs s a ≠ [] ∧ lo ≤ clock s ∧ clock s ≤ hi
      · -- the first event of the window: from here on, `upto`
        obtain ⟨hne, hlo, hhi⟩ := hw
        have hall := upto h hi (a :: ls) s hI hm hhi
        have hsub : ((emitted step obs s (a :: ls)).countP
            (fun e => decide (lo ≤ time e) && decide (time e ≤ hi)) : K) ≤
            ((emitted step obs s (a :: ls)).countP (fun e => decide (time e ≤ hi)) : K) := by
          refine Nat.cast_le.mpr (List.countP_mono_left fun e _ ht => ?_)
          simp only [Bool.and_eq_true] at ht
          exact ht.2
        have hfull := h.full s a s' hI hm.1 hs hne
        have hmul : r * (hi - clock s) ≤ r * (hi - lo) :=
          mul_le_mul_of_nonneg_left (by linarith) h.rate
        linarith
      · rw [emitted_cons ls hs, List.countP_append,
          h.countP_obs (fun t => decide (lo ≤ t) && decide (t ≤ hi))]
        have hzero : (if (decide (lo ≤ clock s) && decide (clock s ≤ hi)) = true
            then (obs s a).length else 0) = 0 := by
          split_ifs with hp
          · simp only [Bool.and_eq_true, decide_eq_true_eq] at hp
            have hnil : obs s a = [] := by
              by_contra hne
              exact hw ⟨hne, hp.1, hp.2⟩
            rw [hnil]; rfl
          · rfl
        rw [hzero, Nat.zero_add]
        exact ih

end Meter
