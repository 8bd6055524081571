/-
# Runs of a labelled step function

A system is a partial step function `step : σ → α → Option σ`; a label carries
all that the environment chooses. A run is a list of labels that can be taken
one after the other (`exec`). Three rules carry a property from one step to a
run: an invariant of every step (`exec_inv`), an invariant of the steps that
meet a condition, for the runs whose steps all meet it (`exec_inv_of_meets`),
and an invariant over what a run has emitted so far (`emitted_inv`). Where a
step that misses the condition does lasting harm, the condition is exact
(`exec_iff_meets`, `forall_exec_iff_meets`). A run that leaves a set of states
leaves it in one step (`exec_leaves`). An endless run is a sequence of labels
(`states`).

Key definitions: `Run.exec`, `Run.Meets`, `Run.emitted`, `Run.states`.
Key theorems: `Run.exec_inv`, `Run.exec_inv_of_meets`, `Run.exec_iff_meets`,
`Run.forall_exec_iff_meets`, `Run.exec_append`, `Run.exec_leaves`, `Run.emitted_inv`,
`Run.emitted_forall`, `Run.states_inv`.
-/
import Mathlib.Data.List.Basic
import Mathlib.Data.List.Count

namespace Run

variable {σ α ε : Type*} (step : σ → α → Option σ)

/-- The state after the labels `ls`, if they can be taken in turn. -/
def exec : σ → List α → Option σ
  | s, [] => some s
  | s, a :: ls => (step s a).bind fun s' => exec s' ls

@[simp] theorem exec_nil (s : σ) : exec step s [] = some s := rfl

theorem exec_cons {s : σ} {a : α} {ls : List α} {s'' : σ} :
    exec step s (a :: ls) = some s'' ↔ ∃ s', step s a = some s' ∧ exec step s' ls = some s'' := by
  simp [exec, Option.bind_eq_some_iff]

theorem exec_append : ∀ (ls ms : List α) (s : σ),
    exec step s (ls ++ ms) = (exec step s ls).bind fun s' => exec step s' ms
  | [], _, _ => rfl
  | a :: ls, ms, s => by
    simp only [List.cons_append, exec]
    cases step s a with
    | none => rfl
    | some s' => exact exec_append ls ms s'

variable {step}

/-- **Invariants.** What every step preserves, every run preserves. -/
theorem exec_inv {I : σ → Prop} (hI : ∀ s a s', I s → step s a = some s' → I s') :
    ∀ {ls : List α} {s s' : σ}, I s → exec step s ls = some s' → I s'
  | [], s, s', h, he => by
    rw [exec_nil, Option.some.injEq] at he
    exact he ▸ h
  | a :: ls, s, s'', h, he => by
    obtain ⟨s', hs, he⟩ := (exec_cons step).mp he
    exact exec_inv hI (hI s a s' h hs) he

theorem exec_snoc {ls : List α} {a : α} {s s'' : σ} :
    exec step s (ls ++ [a]) = some s'' ↔ ∃ s', exec step s ls = some s' ∧ step s' a = some s'' := by
  rw [exec_append, Option.bind_eq_some_iff]
  refine exists_congr fun s' => and_congr_right fun _ => ?_
  rw [exec_cons]
  simp only [exec_nil, Option.some.injEq, exists_eq_right]

/-- A run that leaves a set of states has a step that does. -/
theorem exec_leaves {I : σ → Prop} : ∀ {ls : List α} {s s' : σ}, I s → exec step s ls = some s' →
    ¬ I s' → ∃ ls₁ a ls₂ u u', ls = ls₁ ++ a :: ls₂ ∧ exec step s ls₁ = some u ∧ I u ∧
      step u a = some u' ∧ ¬ I u'
  | [], s, s', h, he, hnot => by
    rw [exec_nil, Option.some.injEq] at he
    exact absurd (he ▸ h) hnot
  | a :: ls, s, s'', h, he, hnot => by
    obtain ⟨s', hs, he⟩ := (exec_cons step).mp he
    by_cases h' : I s'
    · obtain ⟨ls₁, b, ls₂, u, u', rfl, hu, hI, hstep, hout⟩ := exec_leaves h' he hnot
      exact ⟨a :: ls₁, b, ls₂, u, u', rfl, (exec_cons step).mpr ⟨s', hs, hu⟩, hI, hstep, hout⟩
    · exact ⟨[], a, ls, s, s', rfl, exec_nil step s, h, hs, h'⟩

variable (step) in
/-- Every step of the run `ls` from `s` is taken where `ok` holds. -/
def Meets (ok : σ → α → Prop) : σ → List α → Prop
  | _, [] => True
  | s, a :: ls => ok s a ∧ match step s a with
    | none => True
    | some s' => Meets ok s' ls

instance decidableMeets (ok : σ → α → Prop) [∀ s a, Decidable (ok s a)] :
    ∀ (s : σ) (ls : List α), Decidable (Meets step ok s ls)
  | _, [] => .isTrue trivial
  | s, a :: ls =>
    have : Decidable (match step s a with
        | none => True
        | some s' => Meets step ok s' ls) :=
      match step s a with
      | none => .isTrue trivial
      | some s' => decidableMeets ok s' ls
    inferInstanceAs (Decidable (_ ∧ _))

theorem Meets.next {ok : σ → α → Prop} {s s' : σ} {a : α} {ls : List α}
    (h : Meets step ok s (a :: ls)) (hs : step s a = some s') : Meets step ok s' ls := by
  have h2 := h.2
  rwa [hs] at h2

/-- The parts of a run meet what the whole does. -/
theorem Meets.of_append {ok : σ → α → Prop} : ∀ {ls ms : List α} {s s' : σ},
    Meets step ok s (ls ++ ms) → exec step s ls = some s' → Meets step ok s ls ∧ Meets step ok s' ms
  | [], ms, s, s', hm, he => by
    rw [exec_nil, Option.some.injEq] at he
    exact ⟨trivial, he ▸ hm⟩
  | a :: ls, ms, s, s'', hm, he => by
    obtain ⟨s', hs, he⟩ := (exec_cons step).mp he
    obtain ⟨hls, hms⟩ := Meets.of_append (hm.next hs) he
    refine ⟨⟨hm.1, ?_⟩, hms⟩
    rw [hs]
    exact hls

/-- A condition on the labels alone. -/
theorem meets_of_mem {P : α → Prop} : ∀ {ls : List α} {s : σ}, (∀ a ∈ ls, P a) →
    Meets step (fun _ => P) s ls
  | [], _, _ => trivial
  | a :: ls, s, h => by
    refine ⟨h a List.mem_cons_self, ?_⟩
    cases step s a with
    | none => trivial
    | some s' => exact meets_of_mem fun b hb => h b (List.mem_cons_of_mem _ hb)

/-- Two conditions at once. -/
theorem Meets.and {ok ok' : σ → α → Prop} : ∀ {ls : List α} {s : σ}, Meets step ok s ls →
    Meets step ok' s ls → Meets step (fun s a => ok s a ∧ ok' s a) s ls
  | [], _, _, _ => trivial
  | a :: ls, s, h, h' => by
    refine ⟨⟨h.1, h'.1⟩, ?_⟩
    have h₂ := h.2
    have h₂' := h'.2
    cases hs : step s a with
    | none => trivial
    | some s' =>
      rw [hs] at h₂ h₂'
      exact Meets.and h₂ h₂'

/-- Where two conditions agree in every state of an invariant, so do their runs. -/
theorem meets_iff {I : σ → Prop} {ok ok' : σ → α → Prop}
    (hI : ∀ s a s', I s → step s a = some s' → I s') (h : ∀ s a, I s → (ok s a ↔ ok' s a)) :
    ∀ {ls : List α} {s : σ}, I s → (Meets step ok s ls ↔ Meets step ok' s ls)
  | [], _, _ => Iff.rfl
  | a :: ls, s, hs => by
    refine and_congr (h s a hs) ?_
    cases hstep : step s a with
    | none => exact Iff.rfl
    | some s' => exact meets_iff hI h (hI s a s' hs hstep)

theorem meets_of_forall {ok : σ → α → Prop} (h : ∀ s a, ok s a) :
    ∀ (ls : List α) (s : σ), Meets step ok s ls
  | [], _ => trivial
  | a :: ls, s => by
    refine ⟨h s a, ?_⟩
    cases step s a with
    | none => trivial
    | some s' => exact meets_of_forall h ls s'

/-- What the steps that meet a condition preserve is preserved by the runs all
of whose steps meet it. -/
theorem exec_inv_of_meets {I : σ → Prop} {ok : σ → α → Prop}
    (hI : ∀ s a s', I s → ok s a → step s a = some s' → I s') :
    ∀ {ls : List α} {s s' : σ}, I s → Meets step ok s ls → exec step s ls = some s' → I s'
  | [], s, s', h, _, he => by
    rw [exec_nil, Option.some.injEq] at he
    exact he ▸ h
  | a :: ls, s, s'', h, hm, he => by
    obtain ⟨s', hs, he⟩ := (exec_cons step).mp he
    exact exec_inv_of_meets hI (hI s a s' h hm.1 hs) (hm.next hs) he

/-- Where a step that misses the condition does lasting harm, a run ends well if
and only if all its steps meet the condition. -/
theorem exec_iff_meets {I P B : σ → Prop} {ok : σ → α → Prop}
    (hI : ∀ s a s', I s → ok s a → step s a = some s' → I s')
    (hbad : ∀ s a s', I s → ¬ ok s a → step s a = some s' → B s')
    (hB : ∀ s a s', B s → step s a = some s' → B s') (hP : ∀ s, I s → P s)
    (hnot : ∀ s, B s → ¬ P s) :
    ∀ {ls : List α} {s s' : σ}, I s → exec step s ls = some s' → (P s' ↔ Meets step ok s ls)
  | [], s, s', h, he => by
    rw [exec_nil, Option.some.injEq] at he
    exact iff_of_true (he ▸ hP s h) trivial
  | a :: ls, s, s'', h, he => by
    obtain ⟨s', hs, he⟩ := (exec_cons step).mp he
    by_cases hok : ok s a
    · rw [exec_iff_meets hI hbad hB hP hnot (hI s a s' h hok hs) he]
      refine ⟨fun hm => ⟨hok, ?_⟩, fun hm => hm.next hs⟩
      rwa [hs]
    · have hlost : B s'' := exec_inv hB (hbad s a s' h hok hs) he
      exact iff_of_false (hnot s'' hlost) fun hm => hok hm.1

/-- Where a step that misses the condition does harm at once, all states of a run
are well if and only if all its steps meet the condition. -/
theorem forall_exec_iff_meets {I P : σ → Prop} {ok : σ → α → Prop}
    (hI : ∀ s a s', I s → ok s a → step s a = some s' → I s')
    (hbad : ∀ s a s', I s → ¬ ok s a → step s a = some s' → ¬ P s') (hP : ∀ s, I s → P s) :
    ∀ {ls : List α} {s s' : σ}, I s → exec step s ls = some s' →
      ((∀ ms s', ms <+: ls → exec step s ms = some s' → P s') ↔ Meets step ok s ls)
  | [], s, s', h, he => by
    refine iff_of_true (fun ms s₁ hms he₁ => ?_) trivial
    rw [List.prefix_nil.mp hms, exec_nil, Option.some.injEq] at he₁
    exact he₁ ▸ hP s h
  | a :: ls, s, s'', h, he => by
    obtain ⟨s', hs, he⟩ := (exec_cons step).mp he
    by_cases hok : ok s a
    · have ih := forall_exec_iff_meets hI hbad hP (hI s a s' h hok hs) he
      constructor
      · intro hall
        refine ⟨hok, ?_⟩
        rw [hs]
        refine ih.mp fun ms s₁ hms he₁ => hall (a :: ms) s₁ ?_ ?_
        · exact List.cons_prefix_cons.mpr ⟨rfl, hms⟩
        · exact (exec_cons step).mpr ⟨s', hs, he₁⟩
      · rintro hm ms s₁ hms he₁
        cases ms with
        | nil =>
          rw [exec_nil, Option.some.injEq] at he₁
          exact he₁ ▸ hP s h
        | cons b ms =>
          obtain ⟨rfl, hrest⟩ := List.cons_prefix_cons.mp hms
          obtain ⟨s₂, hs₂, he₁⟩ := (exec_cons step).mp he₁
          rw [hs] at hs₂
          cases hs₂
          exact ih.mpr (hm.next hs) ms s₁ hrest he₁
    · refine iff_of_false (fun hall => ?_) fun hm => hok hm.1
      have hone : exec step s [a] = some s' := (exec_cons step).mpr ⟨s', hs, rfl⟩
      exact hbad s a s' h hok hs (hall [a] s' (List.prefix_append [a] ls) hone)

variable (step) in
/-- What the run `ls` from `s` emits, in order: `obs s a` is what the step `a`
taken in `s` emits. -/
def emitted (obs : σ → α → List ε) : σ → List α → List ε
  | _, [] => []
  | s, a :: ls => match step s a with
    | none => []
    | some s' => obs s a ++ emitted obs s' ls

theorem emitted_cons {obs : σ → α → List ε} {s s' : σ} {a : α} (ls : List α)
    (h : step s a = some s') :
    emitted step obs s (a :: ls) = obs s a ++ emitted step obs s' ls := by
  simp [emitted, h]

/-- What the steps that meet a condition preserve, along with what was emitted
so far, their runs preserve. -/
theorem emitted_inv {obs : σ → α → List ε} {J : List ε → σ → Prop} {ok : σ → α → Prop}
    (hJ : ∀ h s a s', J h s → ok s a → step s a = some s' → J (h ++ obs s a) s') :
    ∀ {ls : List α} {h : List ε} {s s' : σ}, J h s → Meets step ok s ls →
      exec step s ls = some s' → J (h ++ emitted step obs s ls) s'
  | [], h, s, s', hj, _, he => by
    rw [exec_nil, Option.some.injEq] at he
    rw [emitted, List.append_nil]
    exact he ▸ hj
  | a :: ls, h, s, s'', hj, hm, he => by
    obtain ⟨s', hs, he⟩ := (exec_cons step).mp he
    rw [emitted_cons ls hs, ← List.append_assoc]
    exact emitted_inv hJ (hJ h s a s' hj hm.1 hs) (hm.next hs) he

/-- What holds of all that a step may emit in an invariant state holds of all
that a run emits. -/
theorem emitted_forall {I : σ → Prop} {obs : σ → α → List ε} {P : ε → Prop}
    (hI : ∀ s a s', I s → step s a = some s' → I s')
    (hP : ∀ s a s', I s → step s a = some s' → ∀ e ∈ obs s a, P e) :
    ∀ {ls : List α} {s : σ}, I s → ∀ e ∈ emitted step obs s ls, P e
  | [], _, _, e, he => by simp [emitted] at he
  | a :: ls, s, h, e, he => by
    cases hs : step s a with
    | none => simp [emitted, hs] at he
    | some s' =>
      rw [emitted_cons ls hs, List.mem_append] at he
      rcases he with he | he
      · exact hP s a s' h hs e he
      · exact emitted_forall hI hP (hI s a s' h hs) e he

/-- A counter that every step moves by what it emits counts what a run emits. -/
theorem emitted_countP {obs : σ → α → List ε} (f : σ → ℕ) (p : ε → Bool)
    (hf : ∀ s a s', step s a = some s' → f s' = f s + (obs s a).countP p) :
    ∀ {ls : List α} {s s' : σ}, exec step s ls = some s' →
      f s' = f s + (emitted step obs s ls).countP p
  | [], s, s', he => by
    rw [exec_nil, Option.some.injEq] at he
    subst he; rfl
  | a :: ls, s, s'', he => by
    obtain ⟨s', hs, he⟩ := (exec_cons step).mp he
    rw [emitted_countP f p hf he, hf s a s' hs, emitted_cons ls hs, List.countP_append,
      Nat.add_assoc]

/-! ### Endless runs -/

variable (step) in
/-- The states of an endless run. A label that cannot be taken is passed over. -/
def states (s : σ) (a : ℕ → α) : ℕ → σ
  | 0 => s
  | n + 1 => (step (states s a n) (a n)).getD (states s a n)

theorem states_succ {s s' : σ} {a : ℕ → α} {n : ℕ} (h : step (states step s a n) (a n) = some s') :
    states step s a (n + 1) = s' := by
  rw [states, h, Option.getD_some]

/-- What the steps that meet a condition preserve holds in every state of an
endless run whose steps all meet it. -/
theorem states_inv {I : σ → Prop} {ok : σ → α → Prop}
    (hI : ∀ s a s', I s → ok s a → step s a = some s' → I s') {s : σ} {a : ℕ → α} (h : I s)
    (hok : ∀ n, ok (states step s a n) (a n)) : ∀ n, I (states step s a n)
  | 0 => h
  | n + 1 => by
    have hn := states_inv hI h hok n
    rw [states]
    cases hs : step (states step s a n) (a n) with
    | none => exact hn
    | some s' => exact hI _ _ _ hn (hok n) hs

end Run
