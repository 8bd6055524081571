/-
# Counting tasks

A pool of tasks is a list, and a task moves by having its element replaced.
How many tasks are in a given situation then changes by what the one element
was and what it becomes (`countP_set_add`), which is all that a counting
invariant (permits held and permits free, say) needs.

Key theorems: `Tasks.countP_set_add`, `Tasks.countP_set_eq`, `Tasks.of_mem_set`.
-/
import Mathlib.Data.List.Basic
import Mathlib.Data.List.Count
import Mathlib.Data.List.Perm.Basic

namespace Tasks

variable {τ : Type*} {l : List τ} {i : ℕ} {x y : τ}

theorem countP_set_add (h : l[i]? = some x) (p : τ → Bool) :
    (l.set i y).countP p + (if p x then 1 else 0) = l.countP p + (if p y then 1 else 0) := by
  obtain ⟨hi, rfl⟩ := List.getElem?_eq_some_iff.mp h
  rw [List.countP_set hi]
  by_cases hp : p l[i] = true
  · have hpos : 0 < l.countP p := List.countP_pos_iff.mpr ⟨_, List.getElem_mem hi, hp⟩
    simp only [hp, if_true]
    omega
  · simp only [hp, Bool.false_eq_true, if_false]
    omega

/-- A move between two situations that count the same changes no count. -/
theorem countP_set_eq (h : l[i]? = some x) {p : τ → Bool} (hp : p y = p x) :
    (l.set i y).countP p = l.countP p := by
  have hadd := countP_set_add (y := y) h p
  rw [hp] at hadd
  omega

/-- A situation counts by cases. -/
theorem countP_split (l : List τ) (p q : τ → Bool) :
    l.countP p = l.countP (fun x => p x && q x) + l.countP fun x => p x && !q x := by
  induction l with
  | nil => rfl
  | cons x l ih =>
    simp only [List.countP_cons, ih]
    cases p x <;> cases q x <;> simp <;> omega

theorem mem_set (h : y ∈ l.set i x) : y = x ∨ y ∈ l :=
  (List.mem_or_eq_of_mem_set h).symm

/-- Where one task at most is in a situation, and it moves, no other is. -/
theorem of_mem_set {p : τ → Bool} (hcount : l.countP p ≤ 1) (h : l[i]? = some x)
    (hp : p x = true) {z : τ} (hz : z ∈ l.set i y) : z = y ∨ p z = false := by
  obtain ⟨hi, rfl⟩ := List.getElem?_eq_some_iff.mp h
  obtain ⟨k, hk⟩ := List.getElem?_of_mem hz
  by_cases hik : i = k
  · subst hik
    rw [List.getElem?_set_self hi, Option.some.injEq] at hk
    exact Or.inl hk.symm
  · rw [List.getElem?_set_ne hik] at hk
    have hperm := (List.getElem_cons_eraseIdx_perm hi).countP_eq p
    rw [List.countP_cons_of_pos hp] at hperm
    have hnone : (l.eraseIdx i).countP p = 0 := by omega
    rw [List.countP_eq_zero] at hnone
    have hmem : z ∈ l.eraseIdx i := List.mem_eraseIdx_iff_getElem?.mpr ⟨k, Ne.symm hik, hk⟩
    exact Or.inr (by simpa using hnone z hmem)

/-- A task that does not move stays in the pool. -/
theorem mem_set_of_ne (h : l[i]? = some x) {z : τ} (hz : z ∈ l) (hne : z ≠ x) :
    z ∈ l.set i y := by
  obtain ⟨j, hj, rfl⟩ := List.getElem_of_mem hz
  have hij : i ≠ j := by
    rintro rfl
    rw [List.getElem?_eq_getElem hj, Option.some.injEq] at h
    exact hne h
  have hlen : j < (l.set i y).length := by rwa [List.length_set]
  have hsame : (l.set i y)[j] = l[j] := List.getElem_set_of_ne hij y hlen
  rw [← hsame]
  exact List.getElem_mem hlen

end Tasks
