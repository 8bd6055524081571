/-
# Grouping by key

The keys of a dictionary keep the order in which they came first. A dictionary
of lists, built by appending each value of a list to the one under its key,
holds under each key the values that have it, in their order.

Key definitions: `Groups.add`, `Groups.collect`.
Key theorems: `Groups.nodup_eraseDups`, `Groups.collect_eq`.
-/
import Mathlib.Data.List.Induction
import Mathlib.Data.List.Nodup

namespace Groups

variable {α β κ : Type} [DecidableEq κ]

/-- Each is kept once. -/
theorem nodup_eraseDups : ∀ ks : List κ, ks.eraseDups.Nodup
  | [] => List.nodup_nil
  | k :: ks => by
    rw [List.eraseDups_cons, List.nodup_cons]
    refine ⟨fun hk => ?_, nodup_eraseDups _⟩
    have hmem := List.mem_eraseDups.mp hk
    simp at hmem
termination_by ks => ks.length
decreasing_by exact Nat.lt_succ_of_le (List.length_filter_le _ _)

theorem eraseDups_snoc (ks : List κ) (k : κ) :
    (ks ++ [k]).eraseDups = if k ∈ ks then ks.eraseDups else ks.eraseDups ++ [k] := by
  rw [List.eraseDups_append]
  by_cases hk : k ∈ ks
  · have hnone : [k].removeAll ks = [] := by simp [List.removeAll, hk]
    rw [hnone, if_pos hk, List.eraseDups_nil, List.append_nil]
  · have hone : [k].removeAll ks = [k] := by simp [List.removeAll, hk]
    rw [hone, if_neg hk]
    rfl

/-- `groups.setdefault(key, []).append(b)`. -/
def add (key : κ) (b : β) : List (κ × List β) → List (κ × List β)
  | [] => [(key, [b])]
  | (k, bs) :: rest => if k = key then (k, bs ++ [b]) :: rest else (k, bs) :: add key b rest

variable {f : κ → List β} {key : κ} {b : β}

theorem add_of_notMem : ∀ {ks : List κ}, key ∉ ks →
    add key b (ks.map fun k => (k, f k)) = ks.map (fun k => (k, f k)) ++ [(key, [b])]
  | [], _ => rfl
  | k :: ks, h => by
    obtain ⟨hk, hks⟩ := not_or.mp fun hor => h (List.mem_cons.mpr hor)
    rw [List.map_cons, add, if_neg (Ne.symm hk), add_of_notMem hks]
    rfl

theorem add_of_mem : ∀ {ks : List κ}, ks.Nodup → key ∈ ks →
    add key b (ks.map fun k => (k, f k)) =
      ks.map fun k => (k, if k = key then f k ++ [b] else f k)
  | k :: ks, hnodup, h => by
    obtain ⟨hk, hks⟩ := List.nodup_cons.mp hnodup
    rw [List.map_cons, add, List.map_cons]
    by_cases he : k = key
    · rw [if_pos he, if_pos he, List.cons.injEq]
      refine ⟨rfl, List.map_congr_left fun k' hk' => ?_⟩
      have hne : k' ≠ key := fun h => hk (he ▸ h ▸ hk')
      rw [if_neg hne]
    · have hmem : key ∈ ks := (List.mem_cons.mp h).resolve_left (Ne.symm he)
      rw [if_neg he, if_neg he, add_of_mem hks hmem]

/-- The dictionary of the values of `as`, under their keys. -/
def collect (key : α → κ) (value : α → β) (as : List α) : List (κ × List β) :=
  as.foldl (fun gs a => add (key a) (value a) gs) []

/-- **Groups.** Each key once, with the values that have it. -/
theorem collect_eq (key : α → κ) (value : α → β) (as : List α) : collect key value as =
    (as.map key).eraseDups.map fun k => (k, (as.filter fun a => key a = k).map value) := by
  induction as using List.reverseRecOn with
  | nil => rfl
  | append_singleton as a ih =>
    have hfold : collect key value (as ++ [a]) =
        add (key a) (value a) (collect key value as) := List.foldl_concat ..
    rw [hfold, ih, List.map_append, List.map_singleton, eraseDups_snoc]
    by_cases hk : key a ∈ as.map key
    · rw [if_pos hk, add_of_mem (nodup_eraseDups _) (List.mem_eraseDups.mpr hk)]
      refine List.map_congr_left fun k _ => ?_
      rw [List.filter_append, List.map_append]
      by_cases he : key a = k
      · simp [he]
      · simp [he, Ne.symm he]
    · have hnone : as.filter (fun a' => key a' = key a) = [] := by
        rw [List.filter_eq_nil_iff]
        intro a' ha' he
        exact hk (of_decide_eq_true he ▸ List.mem_map_of_mem ha')
      rw [if_neg hk, add_of_notMem fun h => hk (List.mem_eraseDups.mp h), List.map_append]
      congr 1
      · refine List.map_congr_left fun k hmem => ?_
        have hne : key a ≠ k := fun he => hk (he ▸ List.mem_eraseDups.mp hmem)
        simp [List.filter_append, hne]
      · simp [List.filter_append, hnone]

/-- The pairs of a dictionary of lists. -/
def pairs (ks : List κ) (g : κ → List β) : List (κ × β) :=
  ks.flatMap fun k => (g k).map fun b => (k, b)

omit [DecidableEq κ] in
theorem mem_pairs {ks : List κ} {g : κ → List β} {k : κ} {b : β} :
    (k, b) ∈ pairs ks g ↔ k ∈ ks ∧ b ∈ g k := by
  simp only [pairs, List.mem_flatMap, List.mem_map, Prod.mk.injEq]
  constructor
  · rintro ⟨_, hk, _, hb, rfl, rfl⟩
    exact ⟨hk, hb⟩
  · rintro ⟨hk, hb⟩
    exact ⟨k, hk, b, hb, rfl, rfl⟩

omit [DecidableEq κ] in
theorem nodup_pairs {ks : List κ} {g : κ → List β} (hks : ks.Nodup)
    (hg : ∀ k ∈ ks, (g k).Nodup) : (pairs ks g).Nodup := by
  unfold pairs
  rw [List.nodup_flatMap]
  refine ⟨fun k hk => (hg k hk).map fun _ _ he => (Prod.mk.inj he).2, hks.imp fun hne => ?_⟩
  intro pair h1 h2
  obtain ⟨_, -, rfl⟩ := List.mem_map.mp h1
  obtain ⟨_, -, he⟩ := List.mem_map.mp h2
  exact hne (Prod.mk.inj he).1.symm

/-- Lists that are told apart by a key of their members: those with one key are
the lists of that key. -/
theorem filter_flatMap {name : α → κ} {g : α → List β} {key : β → κ}
    (hkey : ∀ a, ∀ b ∈ g a, key b = name a) (k : κ) : ∀ as : List α,
    (as.flatMap g).filter (fun b => key b = k) = (as.filter fun a => name a = k).flatMap g
  | [] => rfl
  | a :: as => by
    rw [List.flatMap_cons, List.filter_append, filter_flatMap hkey k as]
    by_cases ha : name a = k
    · have hall : (g a).filter (fun b => key b = k) = g a :=
        List.filter_eq_self.mpr fun b hb => by simp [hkey a b hb, ha]
      rw [hall, List.filter_cons_of_pos (by simpa using ha), List.flatMap_cons]
    · have hnone : (g a).filter (fun b => key b = k) = [] :=
        List.filter_eq_nil_iff.mpr fun b hb => by simp [hkey a b hb, ha]
      rw [hnone, List.filter_cons_of_neg (by simpa using ha), List.nil_append]

/-- Of distinct values one has its name. -/
theorem filter_name {name : α → κ} (hname : Function.Injective name) {k : α} :
    ∀ {as : List α}, as.Nodup → k ∈ as → as.filter (fun a => name a = name k) = [k]
  | a :: as, hnodup, hk => by
    obtain ⟨ha, has⟩ := List.nodup_cons.mp hnodup
    by_cases he : a = k
    · have hnone : as.filter (fun b => name b = name k) = [] :=
        List.filter_eq_nil_iff.mpr fun b hb h => ha (he ▸ hname (of_decide_eq_true h) ▸ hb)
      rw [List.filter_cons_of_pos (by simpa using congrArg name he), hnone, he]
    · have hne : ¬ name a = name k := fun h => he (hname h)
      have hmem : k ∈ as := (List.mem_cons.mp hk).resolve_left (Ne.symm he)
      rw [List.filter_cons_of_neg (by simpa using hne), filter_name hname has hmem]

end Groups
