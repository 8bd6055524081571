/-
# Reading a table page by page

A query returns the rows of a table by a key, and rows that share a key in any order,
which may be another one for each query. Where no two rows share a key there is one
order, and pages of it are put together again to the whole (`Sorts.pages`). Rows that
are added between two requests move the others to later places and never to earlier
ones, so that a reader who goes on to the end misses no row that was there when the
reading began (`seen_of_growing`).

Key definitions: `Paging.page`, `Paging.Sorts`, `Paging.rank`.
Key theorems: `Paging.pages_eq_take`, `Paging.Sorts.pages`, `Paging.seen_of_growing`.
-/
import Mathlib.Data.List.Sort
import Mathlib.Data.List.Flatten

namespace Paging

variable {α κ : Type} [LinearOrder κ] {key : α → κ} {limit offset : ℕ}

/-- `LIMIT` and `OFFSET`. -/
def page (limit offset : ℕ) (rows : List α) : List α := (rows.drop offset).take limit

/-- The rows in an order that `ORDER BY` allows. -/
structure Sorts (key : α → κ) (rows sorted : List α) : Prop where
  perm : sorted.Perm rows
  ascending : sorted.Pairwise fun a b => key a ≤ key b

/-! ### Rows that stay -/

/-- The first pages are the first rows. -/
theorem pages_eq_take (limit : ℕ) (rows : List α) : ∀ n,
    (List.range n).flatMap (fun k => page limit (k * limit) rows) = rows.take (n * limit)
  | 0 => by simp
  | n + 1 => by
    rw [List.range_succ, List.flatMap_append, pages_eq_take limit rows n, List.flatMap_singleton,
      Nat.succ_mul, List.take_add]
    rfl

variable {rows sorted sorted' : List α}

/-- Where no key is shared, there is one order. -/
theorem Sorts.unique (hkey : (rows.map key).Nodup) (h : Sorts key rows sorted)
    (h' : Sorts key rows sorted') : sorted = sorted' := by
  refine List.Perm.eq_of_pairwise ?_ h.ascending h'.ascending (h.perm.trans h'.perm.symm)
  intro a b ha hb hab hba
  exact List.inj_on_of_nodup_map hkey (h.perm.subset ha) (h'.perm.subset hb) (le_antisymm hab hba)

/-- **Pages** of rows that stay as they are make up the whole, each row once, however the
rows are ordered for each. -/
theorem Sorts.pages (hkey : (rows.map key).Nodup) {orders : ℕ → List α}
    (h : ∀ k, Sorts key rows (orders k)) {n : ℕ} (hn : rows.length ≤ n * limit) :
    (List.range n).flatMap (fun k => page limit (k * limit) (orders k)) = orders 0 := by
  have hsame : ∀ k, orders k = orders 0 := fun k => (h k).unique hkey (h 0)
  have hpages : (List.range n).flatMap (fun k => page limit (k * limit) (orders k)) =
      (List.range n).flatMap fun k => page limit (k * limit) (orders 0) :=
    List.flatMap_congr fun k _ => by rw [hsame k]
  rw [hpages, pages_eq_take, List.take_of_length_le]
  rw [(h 0).perm.length_eq]
  exact hn

/-! ### Rows that are added -/

/-- How many rows come before one. -/
def rank (key : α → κ) (r : α) (rows : List α) : ℕ := rows.countP fun a => key a < key r

variable {r : α}

/-- A row is on the page of its rank. -/
theorem mem_page (hsorted : sorted.Pairwise fun a b => key a < key b) (hr : r ∈ sorted)
    (hfirst : offset ≤ rank key r sorted) (hlast : rank key r sorted < offset + limit) :
    r ∈ page limit offset sorted := by
  obtain ⟨before, after, rfl⟩ := List.append_of_mem hr
  obtain ⟨-, hafter, hcross⟩ := List.pairwise_append.mp hsorted
  have hrank : rank key r (before ++ r :: after) = before.length := by
    have hbefore : before.countP (fun a => key a < key r) = before.length :=
      List.countP_eq_length.mpr fun a ha => decide_eq_true (hcross a ha r List.mem_cons_self)
    have hrest : after.countP (fun a => key a < key r) = 0 :=
      List.countP_eq_zero.mpr fun a ha hlt =>
        absurd (of_decide_eq_true hlt) ((List.pairwise_cons.mp hafter).1 a ha).asymm
    unfold rank
    rw [List.countP_append, List.countP_cons, hbefore, hrest]
    simp
  rw [hrank] at hfirst hlast
  refine List.mem_of_getElem? (i := before.length - offset) ?_
  unfold page
  rw [List.getElem?_take, if_pos (by omega), List.getElem?_drop, Nat.add_sub_cancel' hfirst,
    List.getElem?_append_right (Nat.le_refl _), Nat.sub_self]
  rfl

theorem rank_mono (hsorted : sorted.Pairwise fun a b => key a < key b)
    (hsubset : sorted ⊆ sorted') :
    rank key r sorted ≤ rank key r sorted' := by
  have hnodup : sorted.Nodup := hsorted.imp fun hlt he => hlt.ne (congrArg key he)
  exact (List.subperm_of_subset hnodup hsubset).countP_le _

/-- Of pages that follow each other, one meets what moves to later places only. -/
theorem exists_between {places : ℕ → ℕ} (hmono : ∀ k, places k ≤ places (k + 1)) : ∀ {n : ℕ},
    places n < n * limit → ∃ k < n, k * limit ≤ places k ∧ places k < k * limit + limit
  | 0, h => by
    rw [Nat.zero_mul] at h
    exact absurd h (Nat.not_lt_zero _)
  | n + 1, h => by
    rcases Nat.lt_or_ge (places n) (n * limit) with hlt | hge
    · obtain ⟨k, hk, hbetween⟩ := exists_between hmono hlt
      exact ⟨k, Nat.lt_succ_of_lt hk, hbetween⟩
    · have hstep := hmono n
      rw [Nat.succ_mul] at h
      exact ⟨n, Nat.lt_succ_self n, hge, by omega⟩

/-- **Reading to the end**, while rows are added, shows every row that was there. -/
theorem seen_of_growing {orders : ℕ → List α} {n : ℕ}
    (hsorted : ∀ k, (orders k).Pairwise fun a b => key a < key b)
    (hgrows : ∀ k, orders k ⊆ orders (k + 1)) (hr : r ∈ orders 0) (hlimit : 1 ≤ limit)
    (hend : page limit (n * limit) (orders n) = []) :
    ∃ k < n, r ∈ page limit (k * limit) (orders k) := by
  have hthere : ∀ k, r ∈ orders k := fun k => by
    induction k with
    | zero => exact hr
    | succ k ih => exact hgrows k ih
  have hmono : ∀ k, rank key r (orders k) ≤ rank key r (orders (k + 1)) := fun k =>
    rank_mono (hsorted k) (hgrows k)
  have hlt : rank key r (orders n) < n * limit := by
    by_contra hge
    have hmem : r ∈ page (rank key r (orders n) + 1) (n * limit) (orders n) :=
      mem_page (hsorted n) (hthere n) (Nat.not_lt.mp hge) (by omega)
    have hnone : (orders n).drop (n * limit) = [] := by
      rcases List.take_eq_nil_iff.mp hend with hzero | hnone
      · omega
      · exact hnone
    unfold page at hmem
    rw [hnone] at hmem
    simp at hmem
  obtain ⟨k, hk, hfirst, hlast⟩ := exists_between hmono hlt
  exact ⟨k, hk, mem_page (hsorted k) (hthere k) hfirst hlast⟩

end Paging
