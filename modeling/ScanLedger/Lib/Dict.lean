/-
# Dictionaries that keep the order of insertion

A dictionary has one item for a key. A key that is set anew keeps its place; a new
key comes last. Of a list of pairs, the last one with a key decides its value
(`get_ofItems`), and the items of a dictionary make the same dictionary again
(`ofItems_items`).

Key definitions: `Dict`, `Dict.get`, `Dict.set`, `Dict.ofItems`.
Key theorems: `Dict.get_set`, `Dict.ofItems_items`, `Dict.get_ofItems`,
`Dict.get_ofItems_filterMap`, `Dict.mem_ofItems`.
-/
import Mathlib.Data.List.Induction
import ScanLedger.Lib.Table

@[ext]
structure Dict (κ α : Type) where
  items : List (κ × α)
  keys_nodup : (items.map Prod.fst).Nodup

namespace Dict

variable {κ α : Type} [DecidableEq κ]

omit [DecidableEq κ] in
def empty : Dict κ α := ⟨[], List.nodup_nil⟩

omit [DecidableEq κ] in
def values (d : Dict κ α) : List α := d.items.map Prod.snd

def get (d : Dict κ α) (k : κ) : Option α := (d.items.find? (·.1 == k)).map Prod.snd

def set (d : Dict κ α) (k : κ) (a : α) : Dict κ α :=
  ⟨Table.put Prod.fst (k, a) d.items, Table.keys_put (k, a) d.keys_nodup⟩

def ofItems (pairs : List (κ × α)) : Dict κ α := pairs.foldl (fun d p => d.set p.1 p.2) empty

theorem get_set (d : Dict κ α) (k : κ) (a : α) (k' : κ) :
    (d.set k a).get k' = if k' = k then some a else d.get k' := by
  unfold get set
  rw [Table.find_put]
  split_ifs <;> rfl

theorem ofItems_append (pairs : List (κ × α)) (p : κ × α) :
    ofItems (pairs ++ [p]) = (ofItems pairs).set p.1 p.2 := by
  unfold ofItems
  rw [List.foldl_append]
  rfl

/-- **The items of a dictionary make it again**, in its order. -/
theorem ofItems_items (d : Dict κ α) : ofItems d.items = d := by
  have hitems : ∀ pairs : List (κ × α), (pairs.map Prod.fst).Nodup →
      (ofItems pairs).items = pairs := by
    intro pairs hnodup
    induction pairs using List.reverseRecOn with
    | nil => rfl
    | append_singleton pairs p ih =>
      rw [List.map_append, List.nodup_append] at hnodup
      obtain ⟨hpairs, -, hdisjoint⟩ := hnodup
      have hnew : p.1 ∉ (ofItems pairs).items.map Prod.fst := by
        rw [ih hpairs]
        exact fun hmem => hdisjoint p.1 hmem p.1 List.mem_cons_self rfl
      rw [ofItems_append]
      exact (Table.put_of_notMem hnew).trans (congrArg (· ++ [p]) (ih hpairs))
  exact Dict.ext (hitems d.items d.keys_nodup)

theorem get_ofItems_eq (pairs : List (κ × α)) (k : κ) :
    (ofItems pairs).get k = (pairs.reverse.find? (·.1 == k)).map Prod.snd := by
  induction pairs using List.reverseRecOn with
  | nil => rfl
  | append_singleton pairs p ih =>
    rw [ofItems_append, get_set, List.reverse_concat, List.find?_cons, ih]
    by_cases hk : k = p.1
    · rw [if_pos hk, hk, beq_self_eq_true]
      rfl
    · rw [if_neg hk, beq_false_of_ne (Ne.symm hk)]

/-- Of the pairs with a key, the last decides. -/
theorem get_ofItems {pairs : List (κ × α)} {k : κ} {a : α} :
    (ofItems pairs).get k = some a ↔
      ∃ before after, pairs = before ++ (k, a) :: after ∧ ∀ p ∈ after, p.1 ≠ k := by
  rw [get_ofItems_eq, Option.map_eq_some_iff]
  constructor
  · rintro ⟨⟨k', a'⟩, hfound, rfl⟩
    obtain ⟨hk, after, before, hpairs, hafter⟩ := List.find?_eq_some_iff_append.mp hfound
    have hkey : k' = k := eq_of_beq hk
    refine ⟨before.reverse, after.reverse, ?_, fun p hp hp' => ?_⟩
    · rw [← List.reverse_reverse pairs, hpairs, hkey]
      simp
    · simpa [hp'] using hafter p (List.mem_reverse.mp hp)
  · rintro ⟨before, after, rfl, hafter⟩
    refine ⟨(k, a), List.find?_eq_some_iff_append.mpr ⟨beq_self_eq_true k, after.reverse,
      before.reverse, by simp, fun p hp => ?_⟩, rfl⟩
    simpa using hafter p (List.mem_reverse.mp hp)

/-- The same for a list of which some entries are pairs. -/
theorem get_ofItems_filterMap {β : Type} {pair? : β → Option (κ × α)} {entries : List β} {k : κ}
    {a : α} : (ofItems (entries.filterMap pair?)).get k = some a ↔
      ∃ before entry after, entries = before ++ entry :: after ∧ pair? entry = some (k, a) ∧
        ∀ later ∈ after, ∀ p, pair? later = some p → p.1 ≠ k := by
  rw [get_ofItems]
  constructor
  · rintro ⟨before, after, hpairs, hafter⟩
    obtain ⟨first, rest, rfl, -, hrest⟩ := List.filterMap_eq_append_iff.mp hpairs
    obtain ⟨silent, entry, rest, rfl, -, hentry, rfl⟩ := List.filterMap_eq_cons_iff.mp hrest
    refine ⟨first ++ silent, entry, rest, by simp, hentry, fun later hlater p hp => ?_⟩
    exact hafter p (List.mem_filterMap.mpr ⟨later, hlater, hp⟩)
  · rintro ⟨before, entry, after, rfl, hentry, hafter⟩
    refine ⟨before.filterMap pair?, after.filterMap pair?, ?_, fun p hp => ?_⟩
    · rw [List.filterMap_append, List.filterMap_cons_some hentry]
    · obtain ⟨later, hlater, hpair⟩ := List.mem_filterMap.mp hp
      exact hafter later hlater p hpair

/-- An item was among the pairs. -/
theorem mem_ofItems {pairs : List (κ × α)} {p : κ × α} (h : p ∈ (ofItems pairs).items) :
    p ∈ pairs := by
  have hget : (ofItems pairs).get p.1 = some p.2 := by
    unfold get
    rw [Table.find_of_key (ofItems pairs).keys_nodup h]
    rfl
  obtain ⟨before, after, hpairs, -⟩ := get_ofItems.mp hget
  rw [hpairs]
  exact List.mem_append_right _ List.mem_cons_self

end Dict
