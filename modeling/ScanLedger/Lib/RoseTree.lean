/-
# Trees walked level by level

Trees with a label at every node and any number of children, and the walk with
a queue: the first node of the queue is visited and its children are put at the
end. Every visit uses up one node, so as many turns as there are nodes empty
the queue, and what was visited by then is what the tree holds.

Key definitions: `RoseTree`, `RoseTree.Holds`, `RoseTree.walk`.
Key theorem: `RoseTree.mem_walk`.
-/
import Mathlib.Data.List.Basic

/-- A tree with a label at every node. -/
inductive RoseTree (α : Type)
  | node (label : α) (children : List (RoseTree α))

namespace RoseTree

variable {α : Type}

def label : RoseTree α → α
  | node a _ => a

def children : RoseTree α → List (RoseTree α)
  | node _ cs => cs

mutual

/-- The number of nodes. -/
def size : RoseTree α → ℕ
  | node _ cs => 1 + sizes cs

/-- The number of nodes of all the trees. -/
def sizes : List (RoseTree α) → ℕ
  | [] => 0
  | t :: ts => t.size + sizes ts

end

/-- The label of some node of the tree. -/
inductive Holds (a : α) : RoseTree α → Prop
  | root {cs : List (RoseTree α)} : Holds a (node a cs)
  | child {b : α} {cs : List (RoseTree α)} {t : RoseTree α} (hmem : t ∈ cs) (h : Holds a t) :
      Holds a (node b cs)

/-- The labels visited in `fuel` turns, from a queue of trees. -/
def walkFrom : ℕ → List (RoseTree α) → List α
  | 0, _ | _ + 1, [] => []
  | fuel + 1, t :: ts => t.label :: walkFrom fuel (ts ++ t.children)

/-- The labels of the tree, level by level. -/
def walk (t : RoseTree α) : List α := walkFrom t.size [t]

variable {a : α} {t : RoseTree α}

theorem holds_iff : t.Holds a ↔ a = t.label ∨ ∃ c ∈ t.children, c.Holds a := by
  constructor
  · intro h
    cases h with
    | root => exact Or.inl rfl
    | child hmem h => exact Or.inr ⟨_, hmem, h⟩
  · intro h
    cases t with
    | node b cs =>
      rcases h with rfl | ⟨c, hmem, h⟩
      · exact .root
      · exact .child hmem h

theorem sizes_append (ts us : List (RoseTree α)) : sizes (ts ++ us) = sizes ts + sizes us := by
  induction ts with
  | nil => simp [sizes]
  | cons t ts ih =>
    rw [List.cons_append, sizes, sizes, ih]
    omega

theorem size_eq (t : RoseTree α) : t.size = 1 + sizes t.children := by
  cases t with
  | node b cs => rw [size, children]

/-- A walk with enough turns visits what the trees of its queue hold. -/
theorem mem_walkFrom : ∀ {fuel : ℕ} {ts : List (RoseTree α)}, sizes ts ≤ fuel →
    (a ∈ walkFrom fuel ts ↔ ∃ t ∈ ts, t.Holds a)
  | _, [], _ => by cases ‹ℕ› <;> simp [walkFrom]
  | 0, t :: ts, h => by
    rw [sizes, size_eq] at h
    omega
  | fuel + 1, t :: ts, h => by
    have hrest : sizes (ts ++ t.children) ≤ fuel := by
      rw [sizes, size_eq] at h
      rw [sizes_append]
      omega
    rw [walkFrom, List.mem_cons, mem_walkFrom hrest, List.exists_mem_cons_iff, holds_iff, or_assoc]
    refine or_congr_right ?_
    simp only [List.mem_append, or_and_right, exists_or]
    exact or_comm

/-- **The walk visits the tree.** -/
theorem mem_walk : a ∈ t.walk ↔ t.Holds a := by
  unfold walk
  rw [mem_walkFrom (by simp [sizes])]
  simp

end RoseTree
