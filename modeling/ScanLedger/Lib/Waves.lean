/-
# Work in bounded waves

A long list of tasks is issued in waves of a bounded size. A wave runs as a
whole, and only then are its outcomes dealt with, in order: one that ends the
loop leaves the waves after it unissued, and none of its own.

Key definitions: `Waves.waves`, `Waves.issued`.
Key theorems: `Waves.flatten_waves`, `Waves.length_le_of_mem_waves`, `Waves.issued_eq_iff`.
-/
import Mathlib.Data.List.Basic

namespace Waves

variable {φ : Type} {size : ℕ} {fs wave : List φ} {ends : φ → Bool}

/-- The waves of the tasks to come, after a wave that is being filled. -/
def fill (size : ℕ) : List φ → List φ → List (List φ)
  | wave, [] => if wave.isEmpty then [] else [wave]
  | wave, f :: fs =>
    if size ≤ wave.length + 1 then (wave ++ [f]) :: fill size [] fs
    else fill size (wave ++ [f]) fs

def waves (size : ℕ) (fs : List φ) : List (List φ) := fill size [] fs

theorem flatten_fill : ∀ (wave fs : List φ), (fill size wave fs).flatten = wave ++ fs
  | wave, [] => by
    unfold fill
    split_ifs with h
    · rw [List.isEmpty_iff.mp h]
      rfl
    · simp
  | wave, f :: fs => by
    unfold fill
    split_ifs
    · rw [List.flatten_cons, flatten_fill [] fs, List.append_assoc]
      rfl
    · rw [flatten_fill (wave ++ [f]) fs, List.append_assoc]
      rfl

/-- Every task is in a wave, in its place. -/
@[simp] theorem flatten_waves (size : ℕ) (fs : List φ) : (waves size fs).flatten = fs :=
  flatten_fill [] fs

theorem mem_fill (hsize : 0 < size) : ∀ {wave fs : List φ}, wave.length < size →
    ∀ w ∈ fill size wave fs, w ≠ [] ∧ w.length ≤ size
  | wave, [], hlt, w, hw => by
    unfold fill at hw
    split_ifs at hw with h
    · cases hw
    · rw [List.mem_singleton.mp hw]
      exact ⟨fun hnil => h (List.isEmpty_iff.mpr hnil), Nat.le_of_lt hlt⟩
  | wave, f :: fs, hlt, w, hw => by
    have hlen : (wave ++ [f]).length = wave.length + 1 := List.length_append
    unfold fill at hw
    split_ifs at hw with h
    · have hnew : ([] : List φ).length < size := hsize
      rcases List.mem_cons.mp hw with rfl | hw
      · exact ⟨List.append_ne_nil_of_right_ne_nil _ (List.cons_ne_nil f []), by omega⟩
      · exact mem_fill hsize hnew w hw
    · exact mem_fill hsize (by omega) w hw

/-- No wave is empty, and none is larger than the size. -/
theorem length_le_of_mem_waves (hsize : 0 < size) :
    ∀ w ∈ waves size fs, w ≠ [] ∧ w.length ≤ size := by
  have hnew : ([] : List φ).length < size := hsize
  exact mem_fill hsize hnew

/-- The tasks that are issued, where some outcomes end the loop. -/
def issued (ends : φ → Bool) : List (List φ) → List φ
  | [] => []
  | wave :: rest => wave ++ if wave.any ends then [] else issued ends rest

variable (ends) in
/-- Issued are the first waves. -/
theorem issued_prefix : ∀ ws : List (List φ), issued ends ws <+: ws.flatten
  | [] => List.nil_prefix
  | wave :: rest => by
    rw [issued, List.flatten_cons, List.prefix_append_right_inj]
    split_ifs
    · exact List.nil_prefix
    · exact issued_prefix rest

/-- What is issued depends on the outcomes of the tasks that are. -/
theorem issued_congr {ends' : φ → Bool} : ∀ {ws : List (List φ)},
    (∀ f ∈ issued ends ws, ends f = ends' f) → issued ends ws = issued ends' ws
  | [], _ => rfl
  | wave :: rest, h => by
    unfold issued at h ⊢
    have hwave : wave.any ends = wave.any ends' := by
      rw [Bool.eq_iff_iff, List.any_eq_true, List.any_eq_true]
      refine exists_congr fun f => and_congr_right fun hf => ?_
      rw [h f (List.mem_append_left _ hf)]
    rw [← hwave]
    by_cases hany : wave.any ends = true
    · rw [if_pos hany, if_pos hany]
    · rw [if_neg hany] at h ⊢
      rw [if_neg hany, issued_congr fun f hf => h f (List.mem_append_right _ hf)]

variable (ends) in
/-- **All tasks are issued** exactly if no outcome before the last wave ends the
loop. -/
theorem issued_eq_iff : ∀ {ws : List (List φ)}, (∀ w ∈ ws, w ≠ []) →
    (issued ends ws = ws.flatten ↔ ∀ w ∈ ws.dropLast, ∀ f ∈ w, ends f = false)
  | [], _ => iff_of_true rfl nofun
  | [wave], _ => by
    refine iff_of_true ?_ nofun
    rw [issued, issued, ite_self]
    rfl
  | wave :: next :: rest, hne => by
    have hrest : ∀ w ∈ next :: rest, w ≠ [] := fun w hw => hne w (List.mem_cons_of_mem _ hw)
    rw [List.dropLast_cons_cons, List.forall_mem_cons, ← issued_eq_iff hrest, issued,
      List.flatten_cons, List.append_right_inj]
    by_cases hany : wave.any ends = true
    · obtain ⟨f, hf, hends⟩ := List.any_eq_true.mp hany
      rw [if_pos hany]
      refine iff_of_false (fun hnil => ?_) fun h => ?_
      · -- the next wave has a task
        have hnext : next = [] := (List.append_eq_nil_iff.mp hnil.symm).1
        exact hne next (List.mem_cons_of_mem _ List.mem_cons_self) hnext
      · rw [h.1 f hf] at hends
        cases hends
    · rw [if_neg hany]
      refine ⟨fun h => ⟨fun f hf => ?_, h⟩, fun h => h.2⟩
      rw [Bool.not_eq_true, List.any_eq_false] at hany
      exact Bool.eq_false_iff.mpr (hany f hf)

end Waves
