/-
# Tables whose rows expire

A table with one row for a key and a time at which each row expires. A row is put
in the place of the row with its key, the table is cleared, and a sweep takes the
rows that have expired. Beside it, a map that keeps what was put last under a key
until it is cleared, and that nobody sweeps: at a time no sweep was later than,
the unexpired rows of the table are the unexpired values of the map
(`live_run`).

Key definitions: `Expiry.live`, `Expiry.Event`, `Expiry.run`, `Expiry.map`,
`Expiry.PutLast`.
Key theorems: `Expiry.keys_step`, `Expiry.live_run`, `Expiry.map_eq_some_iff`,
`Expiry.putLast_filterMap`, `Expiry.map_skip`.
-/
import Mathlib.Logic.Function.Basic
import Mathlib.Order.Lattice
import Mathlib.Tactic.Tauto
import ScanLedger.Lib.Table

namespace Expiry

variable {κ α τ : Type} [DecidableEq κ] [LinearOrder τ]

inductive Event (α τ : Type)
  | put (row : α)
  | clear
  | sweep (moment : τ)

section

variable (key : α → κ)

/-- What is put under a key stays there until the map is cleared. -/
def mapStep (m : κ → Option α) : Event α τ → κ → Option α
  | .put row => Function.update m (key row) (some row)
  | .clear => fun _ => none
  | .sweep _ => m

def map (events : List (Event α τ)) : κ → Option α :=
  events.foldl (mapStep key) fun _ => none

variable (expires : α → τ)

/-- The row of a key, unless it has expired. -/
def live (moment : τ) (k : κ) (rows : List α) : Option α :=
  (rows.find? (key · == k)).filter fun row => decide (moment < expires row)

def step (rows : List α) : Event α τ → List α
  | .put row => Table.put key row rows
  | .clear => []
  | .sweep moment => rows.filter fun row => decide (moment < expires row)

def run (events : List (Event α τ)) : List α := events.foldl (step key expires) []

end

variable {key : α → κ} {expires : α → τ}

/-! ### Rows -/

theorem keys_step {rows : List α} (h : (rows.map key).Nodup) (event : Event α τ) :
    ((step key expires rows event).map key).Nodup := by
  cases event with
  | put row => exact Table.keys_put row h
  | clear => exact List.nodup_nil
  | sweep moment => exact h.sublist (List.filter_sublist.map key)

/-- A row that a sweep took has expired ever after. -/
theorem live_sweep {rows : List α} (hkeys : (rows.map key).Nodup) {moment now : τ} (k : κ)
    (h : moment ≤ now) :
    live key expires now k (rows.filter fun row => decide (moment < expires row)) =
      live key expires now k rows := by
  unfold live
  cases hfound : rows.find? (key · == k) with
  | none =>
    rw [List.find?_eq_none] at hfound
    rw [List.find?_eq_none.mpr fun row hrow => hfound row (List.mem_of_mem_filter hrow)]
  | some row =>
    obtain ⟨before, after, rfl, hkey, hothers⟩ := Table.split_of_key hkeys hfound
    subst hkey
    by_cases hrow : moment < expires row
    · have hkept : row ∈ (before ++ row :: after).filter fun row => decide (moment < expires row) :=
        List.mem_filter.mpr ⟨List.mem_append_right _ List.mem_cons_self, decide_eq_true hrow⟩
      rw [Table.find_of_key (hkeys.sublist (List.filter_sublist.map key)) hkept]
    · have hexpired : ¬ now < expires row := fun hlt => hrow (lt_of_le_of_lt h hlt)
      rw [Option.filter_some_neg (by simpa using hexpired), List.find?_eq_none.mpr]
      · rfl
      · intro other hother hsame
        obtain ⟨hmem, hlive⟩ := List.mem_filter.mp hother
        rcases List.mem_append.mp hmem with hmem | hmem
        · exact hothers other (List.mem_append_left _ hmem) (eq_of_beq hsame)
        · rcases List.mem_cons.mp hmem with rfl | hmem
          · exact hrow (of_decide_eq_true hlive)
          · exact hothers other (List.mem_append_right _ hmem) (eq_of_beq hsame)

/-! ### The table and the map -/

/-- One event keeps the agreement of the table and the map. -/
theorem live_step {rows : List α} {m : κ → Option α} {now : τ} (hkeys : (rows.map key).Nodup)
    (h : ∀ k, live key expires now k rows = (m k).filter fun row => decide (now < expires row))
    {event : Event α τ} (hsweep : ∀ moment, event = .sweep moment → moment ≤ now) (k : κ) :
    live key expires now k (step key expires rows event) =
      (mapStep key m event k).filter fun row => decide (now < expires row) := by
  cases event with
  | put row =>
    have hk := h k
    unfold live at hk ⊢
    rw [step, Table.find_put, mapStep, Function.update_apply]
    split_ifs
    · rfl
    · exact hk
  | clear => rfl
  | sweep moment => exact (live_sweep hkeys k (hsweep moment rfl)).trans (h k)

/-- **Refinement.** At a time that no sweep was later than, the table holds what the
map holds and has not expired. -/
theorem live_run {events : List (Event α τ)} {now : τ}
    (hsweep : ∀ moment, Event.sweep moment ∈ events → moment ≤ now) (k : κ) :
    live key expires now k (run key expires events) =
      (map key events k).filter fun row => decide (now < expires row) := by
  have hfold : ∀ (events : List (Event α τ)) (rows : List α) (m : κ → Option α),
      (∀ moment, Event.sweep moment ∈ events → moment ≤ now) → (rows.map key).Nodup →
      (∀ k, live key expires now k rows = (m k).filter fun row => decide (now < expires row)) →
      live key expires now k (events.foldl (step key expires) rows) =
        (events.foldl (mapStep key) m k).filter fun row => decide (now < expires row) := by
    intro events
    induction events with
    | nil => exact fun rows m _ _ h => h k
    | cons event events ih =>
      intro rows m hsweep hkeys h
      refine ih _ _ (fun moment hmem => hsweep moment (List.mem_cons_of_mem _ hmem))
        (keys_step hkeys event) (live_step hkeys h fun moment heq => hsweep moment ?_)
      rw [← heq]
      exact List.mem_cons_self
  exact hfold events [] (fun _ => none) hsweep List.nodup_nil fun k => rfl

/-! ### The map -/

section

omit [LinearOrder τ]

variable (key)

/-- An event that leaves what the map has under a key. -/
def Keeps (k : κ) (event : Event α τ) : Prop :=
  event ≠ .clear ∧ ∀ row, event = .put row → key row ≠ k

/-- The row was put last under the key, and the map was not cleared since. -/
def PutLast (events : List (Event α τ)) (k : κ) (row : α) : Prop :=
  ∃ before after, events = before ++ .put row :: after ∧ key row = k ∧
    ∀ event ∈ after, Keeps key k event

variable {key}

omit [DecidableEq κ] in
theorem putLast_cons {event : Event α τ} {events : List (Event α τ)} {k : κ} {row : α} :
    PutLast key (event :: events) k row ↔
      (event = .put row ∧ key row = k ∧ ∀ later ∈ events, Keeps key k later) ∨
        PutLast key events k row := by
  constructor
  · rintro ⟨before, after, hevents, hkey, hkeeps⟩
    cases before with
    | nil =>
      obtain ⟨rfl, rfl⟩ := List.cons_eq_cons.mp hevents
      exact .inl ⟨rfl, hkey, hkeeps⟩
    | cons first before =>
      obtain ⟨rfl, rfl⟩ := List.cons_eq_cons.mp hevents
      exact .inr ⟨before, after, rfl, hkey, hkeeps⟩
  · rintro (⟨rfl, hkey, hkeeps⟩ | ⟨before, after, rfl, hkey, hkeeps⟩)
    · exact ⟨[], events, rfl, hkey, hkeeps⟩
    · exact ⟨event :: before, after, rfl, hkey, hkeeps⟩

theorem mapStep_eq_some_iff {m : κ → Option α} {k : κ} {row : α} {event : Event α τ} :
    mapStep key m event k = some row ↔
      (event = .put row ∧ key row = k) ∨ (Keeps key k event ∧ m k = some row) := by
  cases event with
  | put row' =>
    rw [mapStep, Function.update_apply]
    by_cases hk : k = key row'
    · have hput : ¬ Keeps (τ := τ) key k (.put row') := fun h => h.2 row' rfl hk.symm
      rw [if_pos hk]
      simp only [hput, false_and, or_false, Option.some.injEq, Event.put.injEq]
      exact ⟨fun h => ⟨h, h ▸ hk.symm⟩, fun h => h.1⟩
    · have hkeeps : Keeps (τ := τ) key k (.put row') :=
        ⟨nofun, fun row'' heq => by cases heq; exact Ne.symm hk⟩
      rw [if_neg hk]
      simp only [hkeeps, true_and]
      refine ⟨.inr, fun h => h.resolve_left ?_⟩
      rintro ⟨heq, hkey⟩
      cases heq
      exact hk hkey.symm
  | clear =>
    refine iff_of_false nofun ?_
    rintro (⟨heq, -⟩ | ⟨hkeeps, -⟩)
    · cases heq
    · exact hkeeps.1 rfl
  | sweep moment =>
    exact ⟨fun h => .inr ⟨⟨nofun, nofun⟩, h⟩, fun h => (h.resolve_left fun h => nomatch h.1).2⟩

omit [DecidableEq κ] in
/-- What was put last by a history of which some entries are events. -/
theorem putLast_filterMap {β : Type} {event? : β → Option (Event α τ)} {history : List β} {k : κ}
    {row : α} : PutLast key (history.filterMap event?) k row ↔
      ∃ before entry after, history = before ++ entry :: after ∧ event? entry = some (.put row) ∧
        key row = k ∧ ∀ later ∈ after, ∀ event, event? later = some event → Keeps key k event := by
  constructor
  · rintro ⟨before, after, hevents, hkey, hkeeps⟩
    obtain ⟨first, rest, rfl, -, hrest⟩ := List.filterMap_eq_append_iff.mp hevents
    obtain ⟨silent, entry, rest, rfl, -, hput, rfl⟩ := List.filterMap_eq_cons_iff.mp hrest
    refine ⟨first ++ silent, entry, rest, by simp, hput, hkey, fun later hlater event hevent => ?_⟩
    exact hkeeps event (List.mem_filterMap.mpr ⟨later, hlater, hevent⟩)
  · rintro ⟨before, entry, after, rfl, hput, hkey, hkeeps⟩
    refine ⟨before.filterMap event?, after.filterMap event?, ?_, hkey, fun event hevent => ?_⟩
    · rw [List.filterMap_append, List.filterMap_cons_some hput]
    · obtain ⟨later, hlater, hlaterEvent⟩ := List.mem_filterMap.mp hevent
      exact hkeeps later hlater event hlaterEvent

/-- The map has what was put last under a key. -/
theorem map_eq_some_iff {events : List (Event α τ)} {k : κ} {row : α} :
    map key events k = some row ↔ PutLast key events k row := by
  have hfold : ∀ (events : List (Event α τ)) (m : κ → Option α),
      events.foldl (mapStep key) m k = some row ↔ PutLast key events k row ∨
        ((∀ event ∈ events, Keeps key k event) ∧ m k = some row) := by
    intro events
    induction events with
    | nil =>
      intro m
      have hnil : ¬ PutLast key ([] : List (Event α τ)) k row := by
        rintro ⟨before, after, h, -⟩
        exact List.append_ne_nil_of_right_ne_nil before (List.cons_ne_nil _ _) h.symm
      simp only [hnil, List.foldl_nil, false_or, List.not_mem_nil, false_imp_iff, implies_true,
        true_and]
    | cons event events ih =>
      intro m
      rw [List.foldl_cons, ih, mapStep_eq_some_iff, putLast_cons, List.forall_mem_cons]
      tauto
  exact (hfold events _).trans (or_iff_left fun h => nomatch h.2)

/-- The map does not see a sweep. -/
theorem map_skip (before after : List (Event α τ)) (moment : τ) :
    map key (before ++ .sweep moment :: after) = map key (before ++ after) := by
  unfold map
  rw [List.foldl_append, List.foldl_append]
  rfl

end

end Expiry
