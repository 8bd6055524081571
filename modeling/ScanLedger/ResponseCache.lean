/-
# The cache of provider responses

`app/services/cache.py` and the sweep of `app/services/retention.py`. The table
has one row for a key. A time is in UTC and counts microseconds; it is the `now`
that a call is given, or that of the clock. A lifetime that leads out of the years
1 to 9999 is an `OverflowError`, raised before the table is read.

The table is a refinement of a map with expiry: an answer is what was stored last
and has not expired, whatever was swept in between (`cache_refines`).

Key definitions: `Moment`, `CacheTable`, `CacheTable.store`, `CacheTable.get`,
`CacheTable.sweepExpiredCache`, `IsLastStore`.
Key theorems: `rows_after`, `get_after`, `cache_refines`.
-/
import Mathlib.Algebra.Ring.Int.Defs
import Mathlib.Data.Int.Order.Basic
import Mathlib.Data.List.Induction
import ScanLedger.Lib.Expiry
import ScanLedger.Lib.Json

namespace ScanLedger

/-! ### Times -/

/-- One microsecond past `datetime.max`, from `datetime.min`. -/
def dateTimeEnd : ℤ := 3652059 * 86400 * 10 ^ 6

/-- A `datetime` in UTC. -/
abbrev Moment := {t : ℤ // 0 ≤ t ∧ t < dateTimeEnd}

instance : LinearOrder Moment := @Subtype.instLinearOrder ℤ Int.instLinearOrder _

instance : DecidableLE Moment := fun t t' => inferInstanceAs (Decidable (t.1 ≤ t'.1))

instance : DecidableLT Moment := fun t t' => inferInstanceAs (Decidable (t.1 < t'.1))

/-- `moment + timedelta(seconds=seconds)`, or an `OverflowError`. -/
def Moment.addSeconds (moment : Moment) (seconds : ℤ) : Option Moment :=
  if h : 0 ≤ moment.1 + seconds * 10 ^ 6 ∧ moment.1 + seconds * 10 ^ 6 < dateTimeEnd then
    some ⟨moment.1 + seconds * 10 ^ 6, h⟩
  else none

/-! ### Rows -/

def schemaVersion : ℕ := 1
def defaultTtlSeconds : ℤ := 24 * 60 * 60
def negativeTtlSeconds : ℤ := 60 * 60

def statusEmpty : String := "empty"

def nonCacheableStatuses : List String := ["auth_failed", "malformed", "rate_limited", "error"]

structure CacheEntryRow where
  cacheKey : String
  source : String
  schemaVersion : ℕ
  status : String
  responseJson : Option Json
  normalizedJson : Option Json
  retrievedAt : Moment
  expiresAt : Moment
  deriving DecidableEq

structure CachedResponse where
  status : String
  normalized : Option Json
  retrievedAt : Moment
  expiresAt : Moment
  deriving DecidableEq

/-- What `store` is called with, but for the time. -/
structure StoreArguments where
  cacheKey : String
  source : String
  status : String
  normalized : Option Json
  response : Option Json
  ttlSeconds : Option ℤ

namespace StoreArguments

variable (args : StoreArguments)

def ttl : ℤ :=
  args.ttlSeconds.getD (if args.status = statusEmpty then negativeTtlSeconds else defaultTtlSeconds)

def row (moment expires : Moment) : CacheEntryRow where
  cacheKey := args.cacheKey
  source := args.source
  schemaVersion := schemaVersion
  status := args.status
  responseJson := args.response
  normalizedJson := args.normalized
  retrievedAt := moment
  expiresAt := expires

/-- The assignments to the row that there is. -/
def fill (moment expires : Moment) (row : CacheEntryRow) : CacheEntryRow :=
  { row with
    source := args.source
    schemaVersion := schemaVersion
    status := args.status
    responseJson := args.response
    normalizedJson := args.normalized
    retrievedAt := moment
    expiresAt := expires }

/-- What `store` makes of the rows. -/
def storeRows (moment expires : Moment) (rows : List CacheEntryRow) : List CacheEntryRow :=
  match rows.find? (·.cacheKey == args.cacheKey) with
  | none => rows ++ [args.row moment expires]
  | some _ => Table.updateWhere (·.cacheKey == args.cacheKey) (args.fill moment expires) rows

/-- Nothing of the old row stays. -/
theorem storeRows_eq (moment expires : Moment) (rows : List CacheEntryRow) :
    args.storeRows moment expires rows =
      Table.put CacheEntryRow.cacheKey (args.row moment expires) rows := by
  have hfill : Table.updateWhere (·.cacheKey == args.cacheKey) (args.fill moment expires) rows =
      Table.updateWhere (·.cacheKey == args.cacheKey) (fun _ => args.row moment expires) rows := by
    refine List.map_congr_left fun row _ => ?_
    split_ifs with hkey
    · unfold fill StoreArguments.row
      rw [eq_of_beq hkey]
    · rfl
  have hkey : (args.row moment expires).cacheKey = args.cacheKey := rfl
  unfold storeRows Table.put
  rw [hfill, hkey]
  cases rows.find? (·.cacheKey == args.cacheKey) with
  | none => rfl
  | some row => rfl

/-- The row that a store at this time leaves, if it leaves one: the status is
cacheable, and the lifetime leads to no overflow. -/
def stored (moment : Moment) : Option CacheEntryRow :=
  if args.status ∈ nonCacheableStatuses then none
  else (moment.addSeconds args.ttl).map (args.row moment)

end StoreArguments

/-! ### The table -/

/-- `cache_entries`, with its primary key. -/
structure CacheTable where
  rows : List CacheEntryRow
  keys_nodup : (rows.map CacheEntryRow.cacheKey).Nodup

namespace CacheTable

def empty : CacheTable := ⟨[], List.nodup_nil⟩

def get (table : CacheTable) (cacheKey : String) (moment : Moment) : Option CachedResponse :=
  match table.rows.find? (·.cacheKey == cacheKey) with
  | none => none
  | some row =>
    if row.expiresAt ≤ moment then none
    else some ⟨row.status, row.normalizedJson, row.retrievedAt, row.expiresAt⟩

/-- Whether the result was stored, or `none` for an `OverflowError`. -/
def store (table : CacheTable) (args : StoreArguments) (moment : Moment) :
    Option Bool × CacheTable :=
  if args.status ∈ nonCacheableStatuses then (some false, table)
  else match moment.addSeconds args.ttl with
    | none => (none, table)
    | some expires =>
      (some true, ⟨args.storeRows moment expires table.rows, by
        rw [args.storeRows_eq]
        exact Table.keys_put _ table.keys_nodup⟩)

def clear (table : CacheTable) : ℕ × CacheTable := (table.rows.length, empty)

def sweepExpiredCache (table : CacheTable) (moment : Moment) : ℕ × CacheTable :=
  (table.rows.countP fun row => decide (row.expiresAt ≤ moment),
    ⟨table.rows.filter fun row => !decide (row.expiresAt ≤ moment),
      table.keys_nodup.sublist (List.filter_sublist.map CacheEntryRow.cacheKey)⟩)

end CacheTable

/-! ### Histories -/

inductive CacheOp
  | store (args : StoreArguments)
  | get (cacheKey : String)
  | clear
  | sweepExpiredCache

def NonDecreasing (history : List (Moment × CacheOp)) : Prop :=
  history.Pairwise fun entry later => entry.1 ≤ later.1

/-- The table after an operation at this time. -/
def CacheTable.step (table : CacheTable) (moment : Moment) : CacheOp → CacheTable
  | .store args => (table.store args moment).2
  | .get _ => table
  | .clear => table.clear.2
  | .sweepExpiredCache => (table.sweepExpiredCache moment).2

/-- The table after a history, from an empty one. -/
def tableAfter (history : List (Moment × CacheOp)) : CacheTable :=
  history.foldl (fun table entry => table.step entry.1 entry.2) CacheTable.empty

/-- What an operation does to a table whose rows expire. -/
def cacheEvent (entry : Moment × CacheOp) : Option (Expiry.Event CacheEntryRow Moment) :=
  match entry.2 with
  | .store args => (args.stored entry.1).map .put
  | .get _ => none
  | .clear => some .clear
  | .sweepExpiredCache => some (.sweep entry.1)

/-- The response is of the last store on the key that was made, with a cacheable
status and no overflow, and that no clear has followed. -/
def IsLastStore (history : List (Moment × CacheOp)) (cacheKey : String)
    (response : CachedResponse) : Prop :=
  ∃ before moment args after expires, history = before ++ (moment, .store args) :: after ∧
    args.cacheKey = cacheKey ∧ args.status ∉ nonCacheableStatuses ∧
    moment.addSeconds args.ttl = some expires ∧
    response = ⟨args.status, args.normalized, moment, expires⟩ ∧
    ∀ later ∈ after, later.2 ≠ .clear ∧ ∀ args', later.2 = .store args' →
      args'.cacheKey = cacheKey → args'.stored later.1 = none

theorem cacheEvent_store {entry : Moment × CacheOp} {row : CacheEntryRow} :
    cacheEvent entry = some (.put row) ↔
      ∃ args, entry.2 = .store args ∧ args.stored entry.1 = some row := by
  obtain ⟨moment, op⟩ := entry
  cases op with
  | store args =>
    simp only [cacheEvent, Option.map_eq_some_iff, Expiry.Event.put.injEq, exists_eq_right,
      CacheOp.store.injEq, exists_eq_left']
  | get cacheKey => exact iff_of_false nofun (by rintro ⟨args, h, -⟩; cases h)
  | clear => exact iff_of_false nofun (by rintro ⟨args, h, -⟩; cases h)
  | sweepExpiredCache => exact iff_of_false nofun (by rintro ⟨args, h, -⟩; cases h)

theorem stored_eq_some_iff {args : StoreArguments} {moment : Moment} {row : CacheEntryRow} :
    args.stored moment = some row ↔ args.status ∉ nonCacheableStatuses ∧
      ∃ expires, moment.addSeconds args.ttl = some expires ∧ args.row moment expires = row := by
  unfold StoreArguments.stored
  split_ifs with hstatus
  · exact iff_of_false nofun fun h => h.1 hstatus
  · rw [Option.map_eq_some_iff]
    exact (and_iff_right hstatus).symm

/-! ### The table and the map -/

/-- An operation is its event. -/
theorem rows_step (table : CacheTable) (entry : Moment × CacheOp) :
    (table.step entry.1 entry.2).rows = ((cacheEvent entry).map
      (Expiry.step CacheEntryRow.cacheKey CacheEntryRow.expiresAt table.rows)).getD
        table.rows := by
  obtain ⟨moment, op⟩ := entry
  cases op with
  | store args =>
    unfold CacheTable.step CacheTable.store cacheEvent StoreArguments.stored
    dsimp only
    split_ifs
    · rfl
    · cases moment.addSeconds args.ttl with
      | none => rfl
      | some expires => exact args.storeRows_eq moment expires table.rows
  | get cacheKey => rfl
  | clear => rfl
  | sweepExpiredCache =>
    refine List.filter_congr fun row _ => ?_
    exact decide_not.symm.trans (decide_eq_decide.mpr not_le)

theorem rows_after (history : List (Moment × CacheOp)) :
    (tableAfter history).rows = Expiry.run CacheEntryRow.cacheKey CacheEntryRow.expiresAt
      (history.filterMap cacheEvent) := by
  induction history using List.reverseRecOn with
  | nil => rfl
  | append_singleton history entry ih =>
    have hafter : tableAfter (history ++ [entry]) =
        (tableAfter history).step entry.1 entry.2 := by
      unfold tableAfter
      rw [List.foldl_append]
      rfl
    rw [hafter, rows_step, List.filterMap_append]
    unfold Expiry.run at ih ⊢
    rw [List.foldl_append, ih]
    cases hevent : cacheEvent entry with
    | none => rw [List.filterMap_cons_none hevent]; rfl
    | some event => rw [List.filterMap_cons_some hevent]; rfl

theorem get_eq (table : CacheTable) (cacheKey : String) (moment : Moment) :
    table.get cacheKey moment =
      (Expiry.live CacheEntryRow.cacheKey CacheEntryRow.expiresAt moment cacheKey table.rows).map
        fun row => ⟨row.status, row.normalizedJson, row.retrievedAt, row.expiresAt⟩ := by
  unfold CacheTable.get Expiry.live
  cases table.rows.find? (·.cacheKey == cacheKey) with
  | none => rfl
  | some row =>
    dsimp only
    by_cases hexpired : row.expiresAt ≤ moment
    · rw [if_pos hexpired, Option.filter_some_neg (by simpa using hexpired)]
      rfl
    · rw [if_neg hexpired, Option.filter_some_pos (by simpa using hexpired)]
      rfl

/-- An answer at a time that no operation was later than is that of the map. -/
theorem get_after {history : List (Moment × CacheOp)} {now : Moment}
    (h : ∀ entry ∈ history, entry.1 ≤ now) (cacheKey : String) :
    (tableAfter history).get cacheKey now =
      ((Expiry.map CacheEntryRow.cacheKey (history.filterMap cacheEvent) cacheKey).filter
        fun row => decide (now < row.expiresAt)).map
          fun row => ⟨row.status, row.normalizedJson, row.retrievedAt, row.expiresAt⟩ := by
  rw [get_eq, rows_after, Expiry.live_run]
  intro moment hmem
  obtain ⟨⟨moment', op⟩, hentry, hevent⟩ := List.mem_filterMap.mp hmem
  cases op with
  | store args =>
    obtain ⟨row, -, hput⟩ := Option.map_eq_some_iff.mp hevent
    cases hput
  | get cacheKey => cases hevent
  | clear => cases hevent
  | sweepExpiredCache =>
    cases hevent
    exact h _ hentry

/-- What leaves the row of a key alone: all but a clear and a store under it. -/
theorem keeps_cacheEvent_iff {cacheKey : String} (later : Moment × CacheOp) :
    (∀ event, cacheEvent later = some event →
      Expiry.Keeps CacheEntryRow.cacheKey cacheKey event) ↔
    later.2 ≠ .clear ∧ ∀ args, later.2 = .store args → args.cacheKey = cacheKey →
      args.stored later.1 = none := by
  obtain ⟨moment, op⟩ := later
  constructor
  · refine fun h => ⟨?_, ?_⟩
    · rintro rfl
      exact (h .clear rfl).1 rfl
    · rintro args rfl hkey
      rw [Option.eq_none_iff_forall_ne_some]
      intro row hrow
      obtain ⟨-, expires, -, rfl⟩ := stored_eq_some_iff.mp hrow
      exact (h (.put _) (cacheEvent_store.mpr ⟨args, rfl, hrow⟩)).2 _ rfl hkey
  · rintro ⟨hclear, hstore⟩ event hevent
    refine ⟨?_, ?_⟩
    · rintro rfl
      cases op with
      | clear => exact hclear rfl
      | store args =>
        obtain ⟨row, -, hput⟩ := Option.map_eq_some_iff.mp hevent
        cases hput
      | get cacheKey => cases hevent
      | sweepExpiredCache => cases hevent
    · rintro row rfl hkey
      obtain ⟨args, rfl, hrow⟩ := cacheEvent_store.mp hevent
      obtain ⟨-, expires, -, rfl⟩ := stored_eq_some_iff.mp hrow
      rw [hstore args rfl hkey] at hrow
      cases hrow

/-- What the map has is what was stored last. -/
theorem map_iff_isLastStore {history : List (Moment × CacheOp)} {cacheKey : String}
    {response : CachedResponse} :
    (∃ row, Expiry.map CacheEntryRow.cacheKey (history.filterMap cacheEvent) cacheKey = some row ∧
        ⟨row.status, row.normalizedJson, row.retrievedAt, row.expiresAt⟩ = response) ↔
      IsLastStore history cacheKey response := by
  simp only [Expiry.map_eq_some_iff, Expiry.putLast_filterMap, cacheEvent_store,
    stored_eq_some_iff, keeps_cacheEvent_iff]
  constructor
  · rintro ⟨row, ⟨before, ⟨moment, op⟩, after, rfl, ⟨args, rfl, hstatus, expires, hexpires, rfl⟩,
      hkey, hafter⟩, rfl⟩
    exact ⟨before, moment, args, after, expires, rfl, hkey, hstatus, hexpires, rfl, hafter⟩
  · rintro ⟨before, moment, args, after, expires, rfl, hkey, hstatus, hexpires, rfl, hafter⟩
    exact ⟨args.row moment expires, ⟨before, ⟨moment, .store args⟩, after, rfl,
      ⟨args, rfl, hstatus, expires, hexpires, rfl⟩, hkey, hafter⟩, rfl⟩

/-- The map sees neither a sweep nor a store that is not cacheable. -/
theorem map_without {before after : List (Moment × CacheOp)} {moment : Moment} {op : CacheOp}
    (h : op = .sweepExpiredCache ∨ ∃ args, op = .store args ∧ args.status ∈ nonCacheableStatuses) :
    Expiry.map CacheEntryRow.cacheKey
        ((before ++ (moment, op) :: after).filterMap cacheEvent) =
      Expiry.map CacheEntryRow.cacheKey ((before ++ after).filterMap cacheEvent) := by
  rw [List.filterMap_append, List.filterMap_append]
  rcases h with rfl | ⟨args, rfl, hstatus⟩
  · have hsweep : cacheEvent (moment, .sweepExpiredCache) = some (.sweep moment) := rfl
    rw [List.filterMap_cons_some hsweep, Expiry.map_skip]
  · have hnone : cacheEvent (moment, .store args) = none := by
      unfold cacheEvent StoreArguments.stored
      dsimp only
      rw [if_pos hstatus]
      rfl
    rw [List.filterMap_cons_none hnone]

theorem get_eq_some_iff {history : List (Moment × CacheOp)} {cacheKey : String} {now : Moment}
    (h : ∀ entry ∈ history, entry.1 ≤ now) (response : CachedResponse) :
    (tableAfter history).get cacheKey now = some response ↔
      IsLastStore history cacheKey response ∧ now < response.expiresAt := by
  rw [get_after h, ← map_iff_isLastStore]
  simp only [Option.map_eq_some_iff, Option.filter_eq_some_iff, decide_eq_true_eq]
  constructor
  · rintro ⟨row, ⟨hrow, hlive⟩, rfl⟩
    exact ⟨⟨row, hrow, rfl⟩, hlive⟩
  · rintro ⟨⟨row, hrow, rfl⟩, hlive⟩
    exact ⟨row, ⟨hrow, hlive⟩, rfl⟩

/-- A get at the end of a history of non-decreasing times answers what was stored
last, if that has not expired. A sweep or a store that is not cacheable changes no
such answer, wherever it stands, and no answer has a status that is not cacheable. -/
theorem cache_refines {history : List (Moment × CacheOp)} {cacheKey : String} {now : Moment}
    (h : NonDecreasing (history ++ [(now, .get cacheKey)])) :
    (∀ response, (tableAfter history).get cacheKey now = some response ↔
      IsLastStore history cacheKey response ∧ now < response.expiresAt) ∧
    (∀ response, (tableAfter history).get cacheKey now = some response →
      response.status ∉ nonCacheableStatuses) ∧
    (∀ before moment op after, history = before ++ (moment, op) :: after →
      (op = .sweepExpiredCache ∨
        ∃ args, op = .store args ∧ args.status ∈ nonCacheableStatuses) →
      (tableAfter history).get cacheKey now = (tableAfter (before ++ after)).get cacheKey now) ∧
    ∀ args moment, args.status ∈ nonCacheableStatuses →
      (tableAfter history).store args moment = (some false, tableAfter history) := by
  have htimes : ∀ entry ∈ history, entry.1 ≤ now := fun entry hentry =>
    (List.pairwise_append.mp h).2.2 entry hentry (now, .get cacheKey) List.mem_cons_self
  refine ⟨get_eq_some_iff htimes, ?_, ?_, ?_⟩
  · intro response hget
    obtain ⟨⟨before, moment, args, after, expires, -, -, hstatus, -, rfl, -⟩, -⟩ :=
      (get_eq_some_iff htimes response).mp hget
    exact hstatus
  · rintro before moment op after rfl hop
    have hrest : ∀ entry ∈ before ++ after, entry.1 ≤ now := by
      intro entry hentry
      refine htimes entry ?_
      rcases List.mem_append.mp hentry with hmem | hmem
      · exact List.mem_append_left _ hmem
      · exact List.mem_append_right _ (List.mem_cons_of_mem _ hmem)
    rw [get_after htimes, get_after hrest, map_without hop]
  · intro args moment hstatus
    exact if_pos hstatus

def storedOnce : StoreArguments := ⟨"nvd:1:nginx:*", "nvd", "ok", none, none, some 1⟩

def sweptHistory : List (Moment × CacheOp) :=
  [(⟨0, by decide⟩, .store storedOnce), (⟨1, by decide⟩, .sweepExpiredCache)]

theorem cache_refines_swept : NonDecreasing (sweptHistory ++
      [(⟨2, by decide⟩, .get "nvd:1:nginx:*")]) ∧
    ∀ response, (tableAfter sweptHistory).get "nvd:1:nginx:*" ⟨2, by decide⟩ = some response ↔
      IsLastStore sweptHistory "nvd:1:nginx:*" response ∧ ⟨2, by decide⟩ < response.expiresAt := by
  have h : NonDecreasing (sweptHistory ++ [(⟨2, by decide⟩, .get "nvd:1:nginx:*")]) := by
    unfold NonDecreasing
    decide
  exact ⟨h, (cache_refines h).1⟩

end ScanLedger
