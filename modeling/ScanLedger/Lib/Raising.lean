/-
# Results that may be exceptions

What is known of a computation in `Except` that has come to an end: a sequence of two
steps, a loop over a list and the value of a result that is one.

Key theorems: `Raising.bind_eq_ok`, `Raising.mapM_eq_ok`, `Raising.mapM_eq_error`.
-/
import Mathlib.Data.List.Basic

namespace Raising

variable {α β ε : Type}

theorem eq_ok_get : ∀ {x : Except ε α} (h : x.toOption.isSome = true),
    x = .ok (x.toOption.get h)
  | .ok _, _ => rfl
  | .error _, h => by cases h

/-- **Two steps** come to a value if both do. -/
theorem bind_eq_ok {x : Except ε α} {f : α → Except ε β} {b : β} :
    (x >>= f) = .ok b ↔ ∃ a, x = .ok a ∧ f a = .ok b := by
  cases x with
  | error e =>
    refine iff_of_false nofun ?_
    rintro ⟨a, h, -⟩
    cases h
  | ok a =>
    refine ⟨fun h => ⟨a, rfl, h⟩, ?_⟩
    rintro ⟨a', h, hb⟩
    cases h
    exact hb

theorem map_eq_ok {x : Except ε α} {f : α → β} {b : β} :
    x.map f = .ok b ↔ ∃ a, x = .ok a ∧ f a = b := by
  cases x with
  | error e =>
    refine iff_of_false nofun ?_
    rintro ⟨a, h, -⟩
    cases h
  | ok a =>
    constructor
    · intro h
      exact ⟨a, rfl, Except.ok.inj h⟩
    · rintro ⟨a', h, rfl⟩
      cases h
      rfl

variable {f : α → Except ε β} {e : ε}

/-- A loop comes to a value if each of its turns does. -/
theorem mapM_eq_ok : ∀ {xs : List α} {ys : List β},
    xs.mapM f = .ok ys ↔ xs.map f = ys.map .ok
  | [], ys => by
    rw [List.mapM_nil, List.map_nil, eq_comm (a := []), List.map_eq_nil_iff]
    exact ⟨fun h => (Except.ok.inj h).symm, fun h => by rw [h]; rfl⟩
  | x :: xs, ys => by
    rw [List.mapM_cons, List.map_cons]
    constructor
    · intro h
      obtain ⟨y, hx, h⟩ := bind_eq_ok.mp h
      obtain ⟨rest, hxs, h⟩ := bind_eq_ok.mp h
      cases h
      rw [List.map_cons, hx, mapM_eq_ok.mp hxs]
    · intro h
      obtain ⟨y, rest, rfl, hy, hrest⟩ := List.map_eq_cons_iff.mp h.symm
      rw [← hy, mapM_eq_ok.mpr hrest.symm]
      rfl

/-- The error is the first one. -/
theorem mapM_eq_error : ∀ {xs : List α}, xs.mapM f = .error e ↔
    ∃ before x after, xs = before ++ x :: after ∧ (∀ v ∈ before, ∃ y, f v = .ok y) ∧ f x = .error e
  | [] => by
    refine ⟨nofun, ?_⟩
    rintro ⟨before, x, after, h, -⟩
    cases before <;> cases h
  | x :: xs => by
    rw [List.mapM_cons]
    cases hx : f x with
    | error e' =>
      constructor
      · rintro ⟨⟩
        exact ⟨[], x, xs, rfl, nofun, hx⟩
      · rintro ⟨before, v, after, h, hbefore, hv⟩
        cases before with
        | nil =>
          cases h
          rw [hx] at hv
          cases hv
          rfl
        | cons w before =>
          cases h
          obtain ⟨y, hy⟩ := hbefore x List.mem_cons_self
          rw [hx] at hy
          cases hy
    | ok y =>
      have hrest : (do let ys ← xs.mapM f; pure (y :: ys) : Except ε (List β)) = .error e ↔
          xs.mapM f = .error e := by
        cases xs.mapM f with
        | error e' => exact Iff.rfl
        | ok ys => exact ⟨nofun, nofun⟩
      refine hrest.trans (mapM_eq_error.trans ?_)
      constructor
      · rintro ⟨before, v, after, rfl, hbefore, hv⟩
        exact ⟨x :: before, v, after, rfl, by simpa [hx] using hbefore, hv⟩
      · rintro ⟨before, v, after, h, hbefore, hv⟩
        cases before with
        | nil =>
          cases h
          rw [hx] at hv
          cases hv
        | cons w before =>
          cases h
          exact ⟨before, v, after, rfl, fun u hu => hbefore u (List.mem_cons_of_mem _ hu), hv⟩

end Raising
