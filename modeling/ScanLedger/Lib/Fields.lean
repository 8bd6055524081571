/-
# Joined fields

A record of texts is written with a separator between each two of them. One text,
whose place in the record is known, may have the separator itself: the texts
before it are read from the left, those after it from the right, and what is left
is that text, whatever it has in it (`read_write`). So no two records are written
alike (`write_injOn`).

Key definitions: `Fields.Record`, `Fields.write`, `Fields.read`, `Fields.Around`.
Key theorems: `Fields.splitOn_intercalate`, `Fields.read_write`, `Fields.write_injOn`.
-/
import Mathlib.Data.List.Basic
import Mathlib.Data.Set.Operations

namespace Fields

/-- The texts of a record, around the one that may have anything in it. -/
structure Record (α : Type*) where
  before : List (List α)
  field : List α
  after : List (List α)
  deriving DecidableEq, Repr

variable {α : Type*} [BEq α] (sep : α)

omit [BEq α] in
/-- All texts, with a separator between each two. -/
def write (r : Record α) : List α := [sep].intercalate (r.before ++ r.field :: r.after)

/-- The first `n` texts, the last `k`, and what is between them. -/
def read (n k : ℕ) (text : List α) : Record α :=
  let parts := text.splitOn sep
  ⟨parts.take n, [sep].intercalate ((parts.drop n).take (parts.length - n - k)),
    parts.drop (parts.length - k)⟩

/-- Records with `n` texts before the one and `k` after it, none of which has the
separator. -/
structure Around (n k : ℕ) (r : Record α) : Prop where
  before_length : r.before.length = n
  after_length : r.after.length = k
  before_clear : ∀ text ∈ r.before, sep ∉ text
  after_clear : ∀ text ∈ r.after, sep ∉ text

variable [LawfulBEq α] {sep}

/-- **Joined texts** come apart as the parts of each. -/
theorem splitOn_intercalate : ∀ {texts : List (List α)}, texts ≠ [] →
    ([sep].intercalate texts).splitOn sep = texts.flatMap (·.splitOn sep)
  | [], h => absurd rfl h
  | [text], _ => by simp
  | text :: next :: rest, _ => by
    have ih : ([sep].intercalate (next :: rest)).splitOn sep =
        (next :: rest).flatMap (·.splitOn sep) := splitOn_intercalate (List.cons_ne_nil next rest)
    rw [List.intercalate_cons_cons, List.append_assoc, List.singleton_append,
      List.splitOn_append_cons_self, ih]
    rfl

theorem flatMap_splitOn_clear {texts : List (List α)} (h : ∀ text ∈ texts, sep ∉ text) :
    texts.flatMap (·.splitOn sep) = texts := by
  have hone : ∀ text ∈ texts, text.splitOn sep = [text] := fun text htext =>
    List.splitOn_eq_singleton (h text htext)
  rw [List.flatMap_congr hone, List.flatMap_singleton']

variable {n k : ℕ} {r r' : Record α}

theorem splitOn_write (h : Around sep n k r) :
    (write sep r).splitOn sep = r.before ++ (r.field.splitOn sep ++ r.after) := by
  have hne : r.before ++ r.field :: r.after ≠ [] :=
    List.append_ne_nil_of_right_ne_nil _ (List.cons_ne_nil _ _)
  rw [write, splitOn_intercalate hne, List.flatMap_append, List.flatMap_cons,
    flatMap_splitOn_clear h.before_clear, flatMap_splitOn_clear h.after_clear]

/-- **Round trip.** A record is read as it was written. -/
theorem read_write (h : Around sep n k r) : read sep n k (write sep r) = r := by
  obtain ⟨before, field, after⟩ := r
  have hparts : (write sep ⟨before, field, after⟩).splitOn sep =
      before ++ (field.splitOn sep ++ after) := splitOn_write h
  obtain ⟨rfl, rfl, -, -⟩ := h
  dsimp only [read]
  rw [hparts, List.take_left, List.drop_left]
  have hmiddle : (before ++ (field.splitOn sep ++ after)).length - before.length - after.length =
      (field.splitOn sep).length := by
    simp only [List.length_append]
    omega
  have hlast : (before ++ (field.splitOn sep ++ after)).length - after.length =
      (before ++ field.splitOn sep).length := by
    simp only [List.length_append]
    omega
  rw [hmiddle, hlast, List.take_left, List.intercalate_splitOn, ← List.append_assoc,
    List.drop_left]

example : read 0 1 1 (write 0 ⟨[[1]], [2, 0, 0, 3], [[4]]⟩) = ⟨[[1]], [2, 0, 0, 3], [[4]]⟩ := by
  decide

/-- No two records are written alike. -/
theorem write_injOn (n k : ℕ) : Set.InjOn (write sep) {r | Around sep n k r} := by
  intro r hr r' hr' heq
  rw [← read_write hr, ← read_write hr', heq]

end Fields
