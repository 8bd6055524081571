/-
# Splitting at a separator

`s.split(sep, 1)` and `s.split(sep)` for a separator of any length: a text is cut
at the first place where the separator stands, and what follows it is cut
again.

Key definitions: `Split.upTo`, `Split.past`, `Split.parts`.
Key theorems: `Split.upTo_prefix`, `Split.length_upTo_le_iff`.
-/
import Mathlib.Data.List.Basic
import Mathlib.Data.List.Infix

namespace Split

variable {α : Type} [DecidableEq α]

/-- The text before the first separator, or all of it. -/
def upTo (sep : List α) : List α → List α
  | [] => []
  | a :: as => if sep <+: a :: as then [] else a :: upTo sep as

/-- The text after the first separator, if there is one. -/
def past (sep : List α) : List α → Option (List α)
  | [] => if sep = [] then some [] else none
  | a :: as => if sep <+: a :: as then some ((a :: as).drop sep.length) else past sep as

/-- The parts of the text; each but the first takes up a separator. -/
def partsFrom (sep : List α) : ℕ → List α → List (List α)
  | 0, as => [as]
  | fuel + 1, as => match past sep as with
    | none => [as]
    | some rest => upTo sep as :: partsFrom sep fuel rest

def parts (sep as : List α) : List (List α) := partsFrom sep as.length as

example : parts [0, 0] [1, 0, 0, 0, 2, 0, 0] = [[1], [0, 2], []] := by decide

theorem upTo_prefix (sep : List α) : ∀ as : List α, upTo sep as <+: as
  | [] => List.prefix_rfl
  | a :: as => by
    unfold upTo
    by_cases hsep : sep <+: a :: as
    · rw [if_pos hsep]
      exact List.nil_prefix
    · rw [if_neg hsep]
      exact List.cons_prefix_cons.mpr ⟨rfl, upTo_prefix sep as⟩

/-- **How far a text goes** before a separator: no further than any place where
one stands. -/
theorem length_upTo_le_iff {sep : List α} (hne : sep ≠ []) : ∀ {as : List α} {n : ℕ},
    (upTo sep as).length ≤ n ↔
      as.length ≤ n ∨ ∃ before behind, as = before ++ sep ++ behind ∧ before.length ≤ n
  | [], n => iff_of_true (Nat.zero_le n) (.inl (Nat.zero_le n))
  | a :: as, n => by
    unfold upTo
    by_cases hsep : sep <+: a :: as
    · rw [if_pos hsep]
      obtain ⟨behind, hbehind⟩ := hsep
      exact iff_of_true (Nat.zero_le n) (.inr ⟨[], behind, hbehind.symm, Nat.zero_le n⟩)
    · rw [if_neg hsep]
      have hcut : ∀ before behind, a :: as = before ++ sep ++ behind →
          ∃ before', before = a :: before' ∧ as = before' ++ sep ++ behind := by
        intro before behind hsplit
        cases before with
        | nil => exact absurd ⟨behind, hsplit.symm⟩ hsep
        | cons b before =>
          obtain ⟨rfl, hsplit'⟩ := List.cons.inj hsplit
          exact ⟨before, rfl, hsplit'⟩
      cases n with
      | zero =>
        refine iff_of_false (Nat.not_succ_le_zero _) ?_
        rintro (hnone | ⟨before, behind, hsplit, hlength⟩)
        · exact Nat.not_succ_le_zero _ hnone
        · obtain ⟨before', rfl, -⟩ := hcut before behind hsplit
          exact Nat.not_succ_le_zero _ hlength
      | succ n =>
        rw [List.length_cons, List.length_cons, Nat.succ_le_succ_iff, Nat.succ_le_succ_iff,
          length_upTo_le_iff hne]
        refine or_congr_right ⟨?_, ?_⟩
        · rintro ⟨before, behind, rfl, hlength⟩
          exact ⟨a :: before, behind, rfl, Nat.succ_le_succ hlength⟩
        · rintro ⟨before, behind, hsplit, hlength⟩
          obtain ⟨before', rfl, hsplit'⟩ := hcut before behind hsplit
          exact ⟨before', behind, hsplit', Nat.le_of_succ_le_succ hlength⟩

end Split
