/-
# Tables

A table is the list of its rows. An update rewrites the rows a condition picks
and keeps the others in place; a row that is put takes the place of the one with
its key, or the last one; a number for the next row is one past the highest there
is.

Key definitions: `updateWhere`, `put`, `Grows`, `nextNumber`.
Key theorems: `mem_updateWhere`, `find_updateWhere`, `find_put`, `keys_put`,
`Grows.trans`, `nextNumber_notMem`, `nextNumber_range`.
-/
import Mathlib.Data.List.Nodup

namespace Table

variable {α : Type} {p q : α → Bool} {f : α → α} {rows : List α}

/-- `UPDATE ... SET ... WHERE ...`. -/
def updateWhere (p : α → Bool) (f : α → α) (rows : List α) : List α :=
  rows.map fun r => if p r then f r else r

theorem mem_updateWhere {r : α} : r ∈ updateWhere p f rows ↔
    ∃ r₀ ∈ rows, (p r₀ = true ∧ r = f r₀) ∨ (p r₀ = false ∧ r = r₀) := by
  unfold updateWhere
  rw [List.mem_map]
  refine exists_congr fun r₀ => and_congr_right fun _ => ?_
  cases p r₀ <;> simp [eq_comm]

/-- A search that the update has no bearing on finds the updated row. -/
theorem find_updateWhere (hf : ∀ r, p r = true → q (f r) = q r) : ∀ rows : List α,
    (updateWhere p f rows).find? q = (rows.find? q).map fun r => if p r then f r else r
  | [] => rfl
  | r :: rows => by
    have ih := find_updateWhere hf rows
    have hq : q (if p r then f r else r) = q r := by
      split_ifs with hp
      · exact hf r hp
      · rfl
    unfold updateWhere at ih ⊢
    rw [List.map_cons, List.find?_cons, List.find?_cons, hq]
    cases q r
    · exact ih
    · rfl

/-- An update that leaves no row for its condition has nothing to do again. -/
theorem updateWhere_updateWhere {f' : α → α} (hf : ∀ r, p r = true → p (f r) = false)
    (rows : List α) : updateWhere p f' (updateWhere p f rows) = updateWhere p f rows := by
  unfold updateWhere
  rw [List.map_map]
  refine List.map_congr_left fun r _ => ?_
  simp only [Function.comp]
  by_cases hp : p r = true
  · simp [hp, hf r hp]
  · simp [hp]

theorem map_updateWhere {β : Type} {g : α → β} (hf : ∀ r, p r = true → g (f r) = g r)
    (rows : List α) : (updateWhere p f rows).map g = rows.map g := by
  unfold updateWhere
  rw [List.map_map]
  refine List.map_congr_left fun r _ => ?_
  simp only [Function.comp]
  split_ifs with hp
  · exact hf r hp
  · rfl

/-- Rows that are not written, and would not be among these if they were. -/
theorem filter_updateWhere {q : α → Bool}
    (hf : ∀ r ∈ rows, p r = true → q r = false ∧ q (f r) = false) :
    (updateWhere p f rows).filter q = rows.filter q := by
  unfold updateWhere
  induction rows with
  | nil => rfl
  | cons r rows ih =>
    have hrest := ih fun r' hr' => hf r' (List.mem_cons_of_mem r hr')
    rw [List.map_cons, List.filter_cons, List.filter_cons, hrest]
    by_cases hp : p r = true
    · obtain ⟨hq, hq'⟩ := hf r List.mem_cons_self hp
      rw [if_pos hp, hq, hq']
      rfl
    · rw [if_neg hp]

/-! ### Keys -/

/-- The row with a key, between others that do not have it. -/
theorem split_of_key {κ : Type} [DecidableEq κ] {key : α → κ} {k : κ} {r : α}
    (hkeys : (rows.map key).Nodup) (hr : rows.find? (key · == k) = some r) :
    ∃ before after, rows = before ++ r :: after ∧ key r = k ∧
      ∀ r' ∈ before ++ after, key r' ≠ k := by
  have hkey : key r = k := eq_of_beq (List.find?_some (p := fun r => key r == k) hr)
  obtain ⟨before, after, rfl⟩ := List.append_of_mem (List.mem_of_find?_eq_some hr)
  refine ⟨before, after, rfl, hkey, fun r' hr' heq => ?_⟩
  rw [(List.perm_middle.map key).nodup_iff, List.map_cons] at hkeys
  have hmem := List.mem_map_of_mem (f := key) hr'
  rw [heq, ← hkey] at hmem
  exact (List.nodup_cons.mp hkeys).1 hmem

theorem find_of_key {κ : Type} [DecidableEq κ] {key : α → κ} {r : α} (hkeys : (rows.map key).Nodup)
    (hr : r ∈ rows) : rows.find? (key · == key r) = some r := by
  cases hfound : rows.find? (key · == key r) with
  | none => exact absurd (beq_self_eq_true (key r)) (List.find?_eq_none.mp hfound r hr)
  | some r' =>
    have hkey : key r' = key r := eq_of_beq (List.find?_some (p := fun x => key x == key r) hfound)
    rw [List.inj_on_of_nodup_map hkeys (List.mem_of_find?_eq_some hfound) hr hkey]

/-- An update by a key rewrites its row alone. -/
theorem updateWhere_split {before after : List α} {r : α} (hr : p r = true)
    (hrest : ∀ r' ∈ before ++ after, p r' = false) :
    updateWhere p f (before ++ r :: after) = before ++ f r :: after := by
  have hkeep : ∀ l : List α, (∀ r' ∈ l, p r' = false) → updateWhere p f l = l := by
    intro l hl
    unfold updateWhere
    conv_rhs => rw [← List.map_id l]
    refine List.map_congr_left fun r' hr' => ?_
    rw [hl r' hr']
    rfl
  have hbefore := hkeep before fun r' h => hrest r' (List.mem_append_left _ h)
  have hafter := hkeep after fun r' h => hrest r' (List.mem_append_right _ h)
  unfold updateWhere at *
  rw [List.map_append, List.map_cons, hbefore, hafter, if_pos hr]

/-- And a delete by a key takes it alone. -/
theorem filter_split {before after : List α} {r : α} (hr : p r = false)
    (hrest : ∀ r' ∈ before ++ after, p r' = true) :
    (before ++ r :: after).filter p = before ++ after := by
  rw [List.filter_append, List.filter_cons_of_neg (by simp [hr]), ← List.filter_append]
  exact List.filter_eq_self.mpr hrest

/-- The row takes the place of the one with its key, or the last one. -/
def put {κ : Type} [DecidableEq κ] (key : α → κ) (row : α) (rows : List α) : List α :=
  match rows.find? (key · == key row) with
  | none => rows ++ [row]
  | some _ => updateWhere (key · == key row) (fun _ => row) rows

theorem find_put {κ : Type} [DecidableEq κ] {key : α → κ} (row : α) (rows : List α) (k : κ) :
    (put key row rows).find? (key · == k) =
      if k = key row then some row else rows.find? (key · == k) := by
  unfold put
  cases hfound : rows.find? (key · == key row) with
  | none =>
    dsimp only
    rw [List.find?_append]
    by_cases hk : k = key row
    · subst hk
      rw [if_pos rfl, hfound, Option.none_or]
      exact List.find?_cons_of_pos (beq_self_eq_true _)
    · have hrow : [row].find? (key · == k) = none :=
        List.find?_cons_of_neg fun h => hk (eq_of_beq h).symm
      rw [if_neg hk, hrow, Option.or_none]
  | some old =>
    dsimp only
    rw [find_updateWhere fun r hr => by rw [eq_of_beq hr]]
    by_cases hk : k = key row
    · subst hk
      rw [if_pos rfl, hfound, Option.map_some, if_pos]
      exact List.find?_some (p := fun r => key r == key row) hfound
    · rw [if_neg hk]
      cases hother : rows.find? (key · == k) with
      | none => rfl
      | some other =>
        have hkey : key other = k := eq_of_beq (List.find?_some (p := fun r => key r == k) hother)
        have hne : ¬ (key other == key row) = true := fun h => hk (hkey.symm.trans (eq_of_beq h))
        rw [Option.map_some, if_neg hne]

/-- There is one row for a key. -/
theorem keys_put {κ : Type} [DecidableEq κ] {key : α → κ} (row : α) (h : (rows.map key).Nodup) :
    ((put key row rows).map key).Nodup := by
  unfold put
  cases hfound : rows.find? (key · == key row) with
  | none =>
    dsimp only
    rw [List.map_append, List.map_singleton, List.nodup_append]
    refine ⟨h, List.nodup_singleton _, ?_⟩
    rintro k hk k' hk' rfl
    obtain ⟨old, hold, hkey⟩ := List.mem_map.mp hk
    rw [List.mem_singleton.mp hk'] at hkey
    exact List.find?_eq_none.mp hfound old hold (beq_iff_eq.mpr hkey)
  | some old =>
    dsimp only
    have hsame := map_updateWhere (p := (key · == key row)) (f := fun _ => row) (g := key)
      (fun r hr => (eq_of_beq hr).symm) rows
    rw [hsame]
    exact h

theorem put_of_notMem {κ : Type} [DecidableEq κ] {key : α → κ} {row : α}
    (h : key row ∉ rows.map key) : put key row rows = rows ++ [row] := by
  have hnone : rows.find? (key · == key row) = none := by
    rw [List.find?_eq_none]
    exact fun r hr hkey => h (eq_of_beq hkey ▸ List.mem_map_of_mem hr)
  unfold put
  rw [hnone]

/-! ### Tables that grow -/

/-- Rows that `keep` does not keep are gone, and rows with `P` are added at the end. -/
def Grows (keep : α → Bool) (P : α → Prop) (rows rows' : List α) : Prop :=
  ∃ new, (∀ r ∈ new, P r) ∧ rows' = rows.filter keep ++ new

section Grows

variable {keep keep' : α → Bool} {P P' : α → Prop} {rows' rows'' : List α}

theorem grows_filter (keep : α → Bool) (P : α → Prop) (rows : List α) :
    Grows keep P rows (rows.filter keep) :=
  ⟨[], nofun, (List.append_nil _).symm⟩

theorem grows_append (hkeep : ∀ r ∈ rows, keep r = true) {new : List α} (hnew : ∀ r ∈ new, P r) :
    Grows keep P rows (rows ++ new) :=
  ⟨new, hnew, by rw [List.filter_eq_self.mpr hkeep]⟩

theorem grows_refl (hkeep : ∀ r ∈ rows, keep r = true) : Grows keep P rows rows :=
  ⟨[], nofun, by rw [List.filter_eq_self.mpr hkeep, List.append_nil]⟩

/-- What the kept rows and the new ones have, all have. -/
theorem Grows.forall_mem (h : Grows keep P rows rows')
    (hkeep : ∀ r ∈ rows, keep r = true → P r) : ∀ r ∈ rows', P r := by
  obtain ⟨new, hnew, rfl⟩ := h
  intro r hr
  rcases List.mem_append.mp hr with hr | hr
  · obtain ⟨hr, hk⟩ := List.mem_filter.mp hr
    exact hkeep r hr hk
  · exact hnew r hr

theorem Grows.mem (h : Grows keep P rows rows') {r : α} (hr : r ∈ rows) (hk : keep r = true) :
    r ∈ rows' := by
  obtain ⟨new, -, rfl⟩ := h
  exact List.mem_append_left _ (List.mem_filter.mpr ⟨hr, hk⟩)

/-- Rows that are all kept stay in their order. -/
theorem Grows.sublist (h : Grows keep P rows rows') {some : List α}
    (hkeep : ∀ r ∈ some, keep r = true) (hsub : some.Sublist rows) : some.Sublist rows' := by
  obtain ⟨new, -, rfl⟩ := h
  have hsome : some.filter keep = some := List.filter_eq_self.mpr hkeep
  rw [← hsome]
  exact (hsub.filter keep).trans (List.sublist_append_left _ new)

theorem Grows.trans (h : Grows keep P rows rows') (h' : Grows keep' P' rows' rows'') :
    Grows (fun r => keep r && keep' r) (fun _ => True) rows rows'' := by
  obtain ⟨new, -, rfl⟩ := h
  obtain ⟨new', -, rfl⟩ := h'
  refine ⟨new.filter keep' ++ new', fun _ _ => trivial, ?_⟩
  rw [List.filter_append, List.filter_filter, List.append_assoc]
  congr 1
  exact List.filter_congr fun r _ => Bool.and_comm _ _

end Grows

/-! ### Numbering -/

/-- One past the highest, or 1 for the first row. -/
def nextNumber (numbers : List ℕ) : ℕ :=
  match numbers.max? with
  | none => 1
  | some highest => highest + 1

theorem lt_nextNumber {numbers : List ℕ} {n : ℕ} (h : n ∈ numbers) : n < nextNumber numbers := by
  unfold nextNumber
  cases hm : numbers.max? with
  | none =>
    rw [List.max?_eq_none_iff] at hm
    subst hm
    cases h
  | some highest =>
    have hle := (List.max?_eq_some_iff.mp hm).2 n h
    exact Nat.lt_succ_of_le hle

theorem nextNumber_notMem (numbers : List ℕ) : nextNumber numbers ∉ numbers :=
  fun h => Nat.lt_irrefl _ (lt_nextNumber h)

theorem nextNumber_pos (numbers : List ℕ) : 0 < nextNumber numbers := by
  unfold nextNumber
  split <;> omega

/-- Numbered without a gap, the next row continues. -/
theorem nextNumber_range (n : ℕ) : nextNumber (List.range' 1 n) = n + 1 := by
  unfold nextNumber
  cases n with
  | zero => rfl
  | succ n =>
    have hmax : (List.range' 1 (n + 1)).max? = some (n + 1) := by
      rw [List.max?_eq_some_iff]
      refine ⟨List.mem_range'_1.mpr ⟨by omega, by omega⟩, fun m hm => ?_⟩
      have hlt := (List.mem_range'_1.mp hm).2
      omega
    rw [hmax]

end Table
