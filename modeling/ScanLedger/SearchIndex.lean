/-
# The search index over the findings

`0001_initial_schema.py`: an index of external content over seven columns of
`findings`, kept by three triggers. A trigger is its list of commands, built from
the column list as the migration builds them, and it fires for each row that a
statement touches. An insert adds the tokens of the values that it is given at a
rowid, and a `'delete'` removes exactly those. Values (those that are not NULL) and
tokens are of any types, and the tokenizer is any function.

After any statements the index is that of the rows there are
(`searchIndex_synced`). A statement that breaks a constraint leaves all as it was.

Key definitions: `findingsFtsAi`, `findingsFtsAd`, `findingsFtsAu`, `FtsIndex`,
`SearchDb`, `SearchDb.exec`, `indexOf`, `IndexSynced`.
Key theorems: `fire_ai`, `fire_ad`, `fire_au`, `kept_run`, `searchIndex_synced`.
-/
import Mathlib.Algebra.BigOperators.Group.Multiset.Defs
import Mathlib.Algebra.Order.Group.Multiset
import ScanLedger.Lib.Run
import ScanLedger.Lib.Table

namespace ScanLedger

/-! ### The triggers -/

/-- `FTS_COLUMNS`. -/
def ftsColumns : List String :=
  ["title", "summary", "kind", "module", "host", "normalized_value", "raw_evidence"]

/-- `new.` or `old.`. -/
inductive RowSide
  | new
  | old
  deriving DecidableEq, Repr

/-- `_column_list()`. -/
def columnList : List String := ftsColumns

/-- `_column_list(prefix)`. -/
def columnsOf (side : RowSide) : List (RowSide × String) :=
  ftsColumns.map fun column => (side, column)

/-- An insert into `findings_fts`. -/
inductive FtsCommand
  /-- Of a row: its rowid, the columns and the values for them. -/
  | insert (rowid : RowSide) (columns : List String) (values : List (RowSide × String))
  /-- Of the command `'delete'`. -/
  | delete (rowid : RowSide) (columns : List String) (values : List (RowSide × String))

def findingsFtsAi : List FtsCommand := [.insert .new columnList (columnsOf .new)]

def findingsFtsAd : List FtsCommand := [.delete .old columnList (columnsOf .old)]

def findingsFtsAu : List FtsCommand :=
  [.delete .old columnList (columnsOf .old), .insert .new columnList (columnsOf .new)]

/-! ### Rows and entries -/

/-- A row of `findings`; a value is absent where it is NULL. -/
structure SearchRow (ν : Type) where
  rowid : ℤ
  value : String → Option ν

/-- A token of a column of an entry. -/
structure Posting (τ : Type) where
  rowid : ℤ
  column : String
  position : ℕ
  token : τ
  deriving DecidableEq

/-- What `findings_fts` keeps: the rowids of its entries, and their tokens. -/
structure FtsIndex (τ : Type) where
  docs : Multiset ℤ
  postings : Multiset (Posting τ)

variable {ν τ : Type} [DecidableEq τ] (tokenize : ν → List τ)

/-- The tokens of a value, at their positions. NULL has none. -/
def columnPostings (rowid : ℤ) (column : String) (value : Option ν) : List (Posting τ) :=
  ((value.elim [] tokenize).zipIdx).map fun token => ⟨rowid, column, token.2, token.1⟩

/-- The tokens of an entry with these fields, column by column. -/
def entryPostings (rowid : ℤ) (fields : List (String × Option ν)) : Multiset (Posting τ) :=
  ↑(columnList.flatMap fun column =>
    columnPostings tokenize rowid column (fields.lookup column).join)

/-- One command, for the rows that `new` and `old` stand for. -/
def FtsCommand.run (rows : RowSide → SearchRow ν) (index : FtsIndex τ) : FtsCommand → FtsIndex τ
  | .insert side columns values =>
    let fields := columns.zip (values.map fun value => (rows value.1).value value.2)
    ⟨(rows side).rowid ::ₘ index.docs,
      entryPostings tokenize (rows side).rowid fields + index.postings⟩
  | .delete side columns values =>
    let fields := columns.zip (values.map fun value => (rows value.1).value value.2)
    ⟨index.docs.erase (rows side).rowid,
      index.postings - entryPostings tokenize (rows side).rowid fields⟩

def fire (trigger : List FtsCommand) (rows : RowSide → SearchRow ν) (index : FtsIndex τ) :
    FtsIndex τ := trigger.foldl (FtsCommand.run tokenize rows) index

/-! ### Statements -/

/-- The columns of `findings` that are not nullable. -/
def notNullColumns : List String :=
  ["id", "scan_id", "host", "category", "kind", "title", "summary", "normalized_value", "module",
    "observed_at", "sources_json", "fingerprint"]

/-- `scans`, by their ids, `findings` and `findings_fts`. -/
structure SearchDb (ν τ : Type) where
  scans : List ν
  findings : List (SearchRow ν)
  fts : FtsIndex τ

namespace SearchDb

variable [DecidableEq ν]

/-- The schema of the initial migration, without rows. -/
def empty : SearchDb ν τ := ⟨[], [], 0, 0⟩

/-- The row may stand beside the others: its rowid and its id are free, and the
columns that have to have a value do. -/
def accepts (others : List (SearchRow ν)) (row : SearchRow ν) : Bool :=
  others.all (fun other => other.rowid != row.rowid && other.value "id" != row.value "id") &&
    notNullColumns.all fun column => (row.value column).isSome

def insertRow (db : SearchDb ν τ) (row : SearchRow ν) : Option (SearchDb ν τ) :=
  if accepts db.findings row then
    -- an insert has no old row, and its trigger names none
    some { db with
      findings := db.findings ++ [row]
      fts := fire tokenize findingsFtsAi (fun _ => row) db.fts }
  else none

/-- The update of the row at a rowid, if it is there. -/
def updateRow (set : SearchRow ν → SearchRow ν) (db : SearchDb ν τ) (rowid : ℤ) :
    Option (SearchDb ν τ) :=
  match db.findings.find? (·.rowid == rowid) with
  | none => some db
  | some old =>
    if accepts (db.findings.filter (·.rowid != rowid)) (set old) then
      some { db with
        findings := Table.updateWhere (·.rowid == rowid) (fun _ => set old) db.findings
        fts := fire tokenize findingsFtsAu
          (fun | .new => set old | .old => old) db.fts }
    else none

/-- The delete of the row at a rowid, if it is there. -/
def deleteRow (db : SearchDb ν τ) (rowid : ℤ) : SearchDb ν τ :=
  match db.findings.find? (·.rowid == rowid) with
  | none => db
  | some old =>
    -- a delete has no new row, and its trigger names none
    { db with
      findings := db.findings.filter (·.rowid != rowid)
      fts := fire tokenize findingsFtsAd (fun _ => old) db.fts }

end SearchDb

inductive Statement (ν : Type)
  /-- The rows of an `INSERT`, each at the rowid that it was given or that was free. -/
  | insert (rows : List (SearchRow ν))
  | update (picks : SearchRow ν → Bool) (set : SearchRow ν → SearchRow ν)
  | delete (picks : SearchRow ν → Bool)
  | insertScan (id : ν)
  | deleteScans (picks : ν → Bool)

namespace SearchDb

variable [DecidableEq ν]

def deleteRows (db : SearchDb ν τ) (picks : SearchRow ν → Bool) : SearchDb ν τ :=
  ((db.findings.filter picks).map SearchRow.rowid).foldl (deleteRow tokenize) db

/-- Every finding has its scan. -/
def scansExist (db : SearchDb ν τ) : Bool :=
  db.findings.all fun row => db.scans.any fun id => row.value "scan_id" == some id

/-- What a statement makes of the database, row by row. -/
def run (db : SearchDb ν τ) : Statement ν → Option (SearchDb ν τ)
  | .insert rows => Run.exec (insertRow tokenize) db rows
  | .update picks set =>
    Run.exec (updateRow tokenize set) db ((db.findings.filter picks).map SearchRow.rowid)
  | .delete picks => some (db.deleteRows tokenize picks)
  | .insertScan id => if id ∈ db.scans then none else some { db with scans := db.scans ++ [id] }
  | .deleteScans picks =>
    -- `ON DELETE CASCADE`
    some (deleteRows tokenize { db with scans := db.scans.filter fun id => !picks id }
      fun row => (row.value "scan_id").any picks)

/-- A statement that breaks a constraint is rolled back. -/
def exec (db : SearchDb ν τ) (statement : Statement ν) : SearchDb ν τ :=
  ((db.run tokenize statement).filter scansExist).getD db

def execAll (db : SearchDb ν τ) (statements : List (Statement ν)) : SearchDb ν τ :=
  statements.foldl (exec tokenize) db

end SearchDb

/-! ### What a trigger does -/

/-- The tokens of the values that a row has in the columns of the index. -/
def rowPostings (row : SearchRow ν) : Multiset (Posting τ) :=
  ↑(ftsColumns.flatMap fun column => columnPostings tokenize row.rowid column (row.value column))

def FtsIndex.add (index : FtsIndex τ) (row : SearchRow ν) : FtsIndex τ :=
  ⟨row.rowid ::ₘ index.docs, rowPostings tokenize row + index.postings⟩

def FtsIndex.remove (index : FtsIndex τ) (row : SearchRow ν) : FtsIndex τ :=
  ⟨index.docs.erase row.rowid, index.postings - rowPostings tokenize row⟩

theorem lookup_map_self {α : Type} (f : String → α) {column : String} : ∀ {columns : List String},
    column ∈ columns → (columns.map fun c => (c, f c)).lookup column = some (f column)
  | c :: columns, h => by
    rw [List.map_cons, List.lookup_cons]
    by_cases hc : column = c
    · rw [hc, beq_self_eq_true]
    · rw [beq_false_of_ne hc]
      exact lookup_map_self f ((List.mem_cons.mp h).resolve_left hc)

omit [DecidableEq τ] in
/-- The columns and the values for them are listed in the same order. -/
theorem entryPostings_eq (rows : RowSide → SearchRow ν) (side : RowSide) :
    entryPostings tokenize (rows side).rowid
        (columnList.zip ((columnsOf side).map fun value => (rows value.1).value value.2)) =
      rowPostings tokenize (rows side) := by
  have hzip : columnList.zip ((columnsOf side).map fun value => (rows value.1).value value.2) =
      ftsColumns.map fun column => (column, (rows side).value column) := by
    have hboth : (ftsColumns.map id).zip (ftsColumns.map (rows side).value) =
        ftsColumns.map fun column => (column, (rows side).value column) := List.zip_map'
    rw [List.map_id] at hboth
    unfold columnList columnsOf
    rw [List.map_map]
    exact hboth
  unfold entryPostings rowPostings
  rw [hzip]
  refine congrArg _ (List.flatMap_congr fun column hcolumn => ?_)
  have hvalue := lookup_map_self (fun column => (rows side).value column) hcolumn
  unfold columnList at hvalue
  rw [hvalue]
  rfl

theorem fire_ai (row : SearchRow ν) (index : FtsIndex τ) :
    fire tokenize findingsFtsAi (fun _ => row) index = index.add tokenize row := by
  have hentry := entryPostings_eq tokenize (fun _ => row) .new
  unfold FtsIndex.add
  rw [← hentry]
  rfl

theorem fire_ad (row : SearchRow ν) (index : FtsIndex τ) :
    fire tokenize findingsFtsAd (fun _ => row) index = index.remove tokenize row := by
  have hentry := entryPostings_eq tokenize (fun _ => row) .old
  unfold FtsIndex.remove
  rw [← hentry]
  rfl

theorem fire_au (rows : RowSide → SearchRow ν) (index : FtsIndex τ) :
    fire tokenize findingsFtsAu rows index =
      (index.remove tokenize (rows .old)).add tokenize (rows .new) := by
  unfold FtsIndex.add FtsIndex.remove
  rw [← entryPostings_eq tokenize rows .old, ← entryPostings_eq tokenize rows .new]
  rfl

/-! ### The index of the rows -/

def indexOf (rows : List (SearchRow ν)) : FtsIndex τ :=
  ⟨↑(rows.map SearchRow.rowid), (rows.map (rowPostings tokenize)).sum⟩

omit [DecidableEq τ] in
theorem indexOf_split (before after : List (SearchRow ν)) (row : SearchRow ν) :
    indexOf tokenize (before ++ row :: after) =
      (indexOf tokenize (before ++ after)).add tokenize row := by
  unfold indexOf FtsIndex.add
  rw [List.map_append, List.map_cons, List.map_append, List.map_append, List.map_cons,
    List.map_append, List.sum_append, List.sum_cons, List.sum_append, add_left_comm]
  exact congrArg (FtsIndex.mk · _) (Multiset.coe_eq_coe.mpr List.perm_middle)

theorem remove_add (index : FtsIndex τ) (row : SearchRow ν) :
    (index.add tokenize row).remove tokenize row = index := by
  unfold FtsIndex.add FtsIndex.remove
  rw [Multiset.erase_cons_head, add_tsub_cancel_left]

/-- What the statements keep: no rowid is there twice, and the index is that of the
rows. -/
structure Kept (db : SearchDb ν τ) : Prop where
  rowids : (db.findings.map SearchRow.rowid).Nodup
  fts : db.fts = indexOf tokenize db.findings

section

variable [DecidableEq ν] {db db' : SearchDb ν τ}

theorem rowid_of_accepts {others : List (SearchRow ν)} {row : SearchRow ν}
    (h : SearchDb.accepts others row = true) : row.rowid ∉ others.map SearchRow.rowid := by
  unfold SearchDb.accepts at h
  obtain ⟨hfree, -⟩ := Bool.and_eq_true_iff.mp h
  intro hmem
  obtain ⟨other, hother, hsame⟩ := List.mem_map.mp hmem
  have hne := (Bool.and_eq_true_iff.mp (List.all_eq_true.mp hfree other hother)).1
  exact bne_iff_ne.mp hne hsame

theorem Kept.insertRow (h : Kept tokenize db) {row : SearchRow ν}
    (hrun : db.insertRow tokenize row = some db') : Kept tokenize db' := by
  unfold SearchDb.insertRow at hrun
  split_ifs at hrun with haccepts
  cases hrun
  constructor
  · rw [List.map_append, List.map_singleton, List.nodup_append]
    refine ⟨h.rowids, List.nodup_singleton _, ?_⟩
    rintro rowid hmem rowid' hmem' rfl
    rw [List.mem_singleton.mp hmem'] at hmem
    exact rowid_of_accepts haccepts hmem
  · have hsplit := indexOf_split tokenize db.findings [] row
    rw [List.append_nil] at hsplit
    rw [hsplit, ← h.fts]
    exact fire_ai tokenize row db.fts

omit [DecidableEq ν] in
/-- The row at a rowid, with the index of the other rows. -/
theorem Kept.split (h : Kept tokenize db) {rowid : ℤ} {old : SearchRow ν}
    (hold : db.findings.find? (·.rowid == rowid) = some old) :
    ∃ before after, db.findings = before ++ old :: after ∧ old.rowid = rowid ∧
      (∀ row ∈ before ++ after, row.rowid ≠ rowid) ∧
      db.findings.filter (·.rowid != rowid) = before ++ after ∧
      db.fts.remove tokenize old = indexOf tokenize (before ++ after) := by
  obtain ⟨before, after, hrows, hkey, hothers⟩ := Table.split_of_key h.rowids hold
  refine ⟨before, after, hrows, hkey, hothers, ?_, ?_⟩
  · rw [hrows]
    refine Table.filter_split ?_ fun row hrow => bne_iff_ne.mpr (hothers row hrow)
    rw [hkey, bne_self_eq_false]
  · rw [h.fts, hrows, indexOf_split, remove_add]

omit [DecidableEq ν] in
theorem Kept.deleteRow (h : Kept tokenize db) (rowid : ℤ) :
    Kept tokenize (db.deleteRow tokenize rowid) := by
  unfold SearchDb.deleteRow
  cases hold : db.findings.find? (·.rowid == rowid) with
  | none => exact h
  | some old =>
    obtain ⟨before, after, hrows, -, -, hfilter, hremove⟩ := h.split tokenize hold
    constructor
    · exact h.rowids.sublist (List.filter_sublist.map SearchRow.rowid)
    · dsimp only
      rw [fire_ad, hremove, hfilter]

theorem Kept.updateRow (h : Kept tokenize db) {set : SearchRow ν → SearchRow ν} {rowid : ℤ}
    (hrun : db.updateRow tokenize set rowid = some db') : Kept tokenize db' := by
  unfold SearchDb.updateRow at hrun
  cases hold : db.findings.find? (·.rowid == rowid) with
  | none =>
    rw [hold] at hrun
    cases hrun
    exact h
  | some old =>
    rw [hold] at hrun
    dsimp only at hrun
    split_ifs at hrun with haccepts
    cases hrun
    obtain ⟨before, after, hrows, hkey, hothers, hfilter, hremove⟩ := h.split tokenize hold
    have hupdate : Table.updateWhere (·.rowid == rowid) (fun _ => set old) db.findings =
        before ++ set old :: after := by
      rw [hrows]
      refine Table.updateWhere_split (beq_iff_eq.mpr hkey) fun row hrow => ?_
      exact beq_false_of_ne (hothers row hrow)
    rw [hfilter] at haccepts
    have hnew := rowid_of_accepts haccepts
    constructor
    · dsimp only
      have hrest : ((before ++ after).map SearchRow.rowid).Nodup := by
        rw [← hfilter]
        exact h.rowids.sublist (List.filter_sublist.map SearchRow.rowid)
      rw [hupdate, (List.perm_middle.map SearchRow.rowid).nodup_iff, List.map_cons]
      exact List.nodup_cons.mpr ⟨hnew, hrest⟩
    · dsimp only
      rw [fire_au, hremove, hupdate, indexOf_split]

/-! ### Runs -/

omit [DecidableEq ν] in
theorem Kept.deleteRows (h : Kept tokenize db) (picks : SearchRow ν → Bool) :
    Kept tokenize (db.deleteRows tokenize picks) :=
  List.foldlRecOn (motive := Kept tokenize) _ _ h fun _ hdb rowid _ => hdb.deleteRow tokenize rowid

/-- **Step.** A statement keeps the index in step, row by row. -/
theorem kept_run (h : Kept tokenize db) {statement : Statement ν}
    (hrun : db.run tokenize statement = some db') : Kept tokenize db' := by
  cases statement with
  | insert rows => exact Run.exec_inv (fun _ _ _ hdb => hdb.insertRow tokenize) h hrun
  | update picks set => exact Run.exec_inv (fun _ _ _ hdb => hdb.updateRow tokenize) h hrun
  | delete picks =>
    cases hrun
    exact h.deleteRows tokenize picks
  | insertScan id =>
    unfold SearchDb.run at hrun
    dsimp only at hrun
    split_ifs at hrun
    cases hrun
    exact ⟨h.rowids, h.fts⟩
  | deleteScans picks =>
    cases hrun
    have hscans : Kept tokenize { db with scans := db.scans.filter fun id => !picks id } :=
      ⟨h.rowids, h.fts⟩
    exact hscans.deleteRows tokenize _

theorem Kept.exec (h : Kept tokenize db) (statement : Statement ν) :
    Kept tokenize (db.exec tokenize statement) := by
  unfold SearchDb.exec
  cases hrun : (db.run tokenize statement).filter SearchDb.scansExist with
  | none => exact h
  | some db' => exact kept_run tokenize h (Option.filter_eq_some_iff.mp hrun).1

omit [DecidableEq τ] [DecidableEq ν] in
theorem mem_rowPostings {row : SearchRow ν} {posting : Posting τ}
    (h : posting ∈ rowPostings tokenize row) : posting.rowid = row.rowid := by
  unfold rowPostings columnPostings at h
  obtain ⟨column, -, h⟩ := List.mem_flatMap.mp (Multiset.mem_coe.mp h)
  obtain ⟨token, -, rfl⟩ := List.mem_map.mp h
  rfl

omit [DecidableEq τ] [DecidableEq ν] in
theorem filter_others {rowid : ℤ} : ∀ {rows : List (SearchRow ν)},
    (∀ row ∈ rows, row.rowid ≠ rowid) →
    ((rows.map (rowPostings tokenize)).sum.filter fun posting => posting.rowid = rowid) = 0
  | [], _ => rfl
  | row :: rows, h => by
    obtain ⟨hrow, hrest⟩ := List.forall_mem_cons.mp h
    rw [List.map_cons, List.sum_cons, Multiset.filter_add, filter_others hrest, add_zero,
      Multiset.filter_eq_nil]
    exact fun posting hposting hsame => hrow (mem_rowPostings tokenize hposting ▸ hsame)

end

/-- The index has one entry for each row, at its rowid and with the tokens of its
values, and no other entry. -/
structure IndexSynced (db : SearchDb ν τ) : Prop where
  docs : ∀ rowid, db.fts.docs.count rowid =
    if (db.findings.find? (·.rowid == rowid)).isSome then 1 else 0
  postings : ∀ rowid, (db.fts.postings.filter fun posting => posting.rowid = rowid) =
    ((db.findings.find? (·.rowid == rowid)).map (rowPostings tokenize)).getD 0

theorem Kept.synced {db : SearchDb ν τ} (h : Kept tokenize db) : IndexSynced tokenize db := by
  constructor
  · intro rowid
    have hmem : rowid ∈ db.findings.map SearchRow.rowid ↔
        (db.findings.find? (·.rowid == rowid)).isSome = true := by
      rw [List.find?_isSome, List.mem_map]
      exact exists_congr fun row => and_congr_right fun _ => beq_iff_eq.symm
    rw [h.fts, indexOf, Multiset.coe_count, h.rowids.count]
    exact if_congr hmem rfl rfl
  · intro rowid
    rw [h.fts]
    cases hold : db.findings.find? (·.rowid == rowid) with
    | none =>
      rw [List.find?_eq_none] at hold
      exact filter_others tokenize fun row hrow hsame => hold row hrow (beq_iff_eq.mpr hsame)
    | some old =>
      obtain ⟨before, after, hrows, hkey, hothers, -, -⟩ := h.split tokenize hold
      rw [hrows, indexOf_split]
      unfold FtsIndex.add indexOf
      rw [Multiset.filter_add, filter_others tokenize hothers, add_zero]
      refine Multiset.filter_eq_self.mpr fun posting hposting => ?_
      exact (mem_rowPostings tokenize hposting).trans hkey

/-- **The index never drifts.** After any statements from the empty schema, the
index is that of the rows there are. -/
theorem searchIndex_synced [DecidableEq ν] (statements : List (Statement ν)) :
    IndexSynced tokenize ((SearchDb.empty : SearchDb ν τ).execAll tokenize statements) := by
  have hempty : Kept tokenize (SearchDb.empty : SearchDb ν τ) := ⟨List.nodup_nil, rfl⟩
  exact (List.foldlRecOn (motive := Kept tokenize) statements _ hempty
    fun _ h statement _ => h.exec tokenize statement).synced

end ScanLedger
