/-
# Database

The tables of `app/db/tables.py` and the statements the program runs on them,
each atomic and with its constraints checked: a child row needs its parent
scan, an event's sequence is unique in its scan, a scope's name among scopes.
Deleting a scan takes its module runs, findings, ledger rows and events along.
Ids are uuid4 texts, never given out twice; here they are numbers, counted by
`nextId`, and a runner's owner id is the number of the runner. Columns that
nothing modelled reads are left out.

Key definitions: `Db`, and in its namespace one function for each statement;
`Db.TerminalBut`.
Key theorems: `Db.insertEvent_next`, `Db.TerminalBut.write`, `Db.TerminalBut.close`.
-/
import Mathlib.Data.List.MinMax
import ScanLedger.Domain
import ScanLedger.Lib.Table

namespace ScanLedger

open Table

/-! ### Rows -/

structure ScopeProfileRow where
  id : ℕ
  name : String
  entries : List String
  allowCgnat : Bool
  allowLinkLocal : Bool
  deriving DecidableEq, Repr

structure ScanRow where
  id : ℕ
  scopeId : ℕ
  targetInput : String
  targetNormalized : String
  targetType : TargetType
  resolvedAddrs : List String
  intensityProfile : String
  selectedModules : List String
  moduleOptions : Json
  status : ScanStatus
  note : Option String
  attestationText : String
  attestationVersion : String
  attestationAt : ℚ
  cancelRequested : Bool
  claimedBy : Option ℕ
  createdAt : ℚ
  startedAt : Option ℚ
  finishedAt : Option ℚ
  deriving DecidableEq, Repr

structure ModuleRunRow where
  scanId : ℕ
  module : String
  status : ModuleStatus
  attemptCount : ℕ
  cacheHit : Bool
  findingCount : ℕ
  safeErrorCode : Option String
  safeErrorMessage : Option String
  startedAt : Option ℚ
  finishedAt : Option ℚ
  deriving DecidableEq, Repr

/-- A stored finding; its fingerprint is a function of the finding. -/
structure FindingRow where
  scanId : ℕ
  finding : Finding
  deriving DecidableEq, Repr

/-- A decision made before there is a scan names its scope alone. -/
structure ScanLedgerRow where
  scanId : Option ℕ
  scopeId : Option ℕ
  entry : LedgerEntry
  deriving DecidableEq, Repr

/-- An event with its payload: the running status, the final status, the
status of a module run, or the footprint so far. -/
inductive Event
  | scanRunning
  | scanFinished (status : ScanStatus) (reason : Option String)
  | moduleStatus (status : ModuleStatus) (reason : Option String) (findingCount : ℕ)
  | footprint (hostsProbed portsTouched : ℕ)
  deriving DecidableEq, Repr

structure ScanEventRow where
  scanId : ℕ
  sequence : ℕ
  module : Option String
  event : Event
  deriving DecidableEq, Repr

structure WorkerLockRow where
  ownerId : ℕ
  pid : ℕ
  hostname : String
  acquiredAt : ℚ
  heartbeatAt : ℚ
  deriving DecidableEq, Repr

/-! ### What is written -/

/-- What `_set_module_status` writes. -/
structure ModuleUpdate where
  status : ModuleStatus
  now : ℚ
  findingCount : ℕ
  cacheHit : Bool
  reason : Option String
  code : Option String
  deriving DecidableEq, Repr

/-- Reason and code stay as they are unless there are new ones. -/
def ModuleUpdate.apply (u : ModuleUpdate) (r : ModuleRunRow) : ModuleRunRow :=
  let r := { r with
    status := u.status
    safeErrorMessage := u.reason <|> r.safeErrorMessage
    safeErrorCode := u.code <|> r.safeErrorCode }
  if u.status = .running then
    { r with attemptCount := r.attemptCount + 1, startedAt := some u.now }
  else { r with finishedAt := some u.now, findingCount := u.findingCount, cacheHit := u.cacheHit }

structure ScopeCreate where
  name : String
  entries : List String
  allowCgnat : Bool
  allowLinkLocal : Bool
  deriving DecidableEq, Repr

/-- `_validate`. -/
def ScopeCreate.valid (payload : ScopeCreate) : Bool :=
  match ScopeProfile.create payload.name payload.entries payload.allowCgnat
    payload.allowLinkLocal with
  | .ok _ => true
  | .error _ => false

/-- A column is written when the new value is not the one that was read. -/
def written {α : Type} [DecidableEq α] (seen new stored : α) : α :=
  if new = seen then stored else new

/-- The row of a scope, `seen` before as given, after `update_scope` wrote it. -/
def ScopeCreate.write (payload : ScopeCreate) (seen stored : ScopeProfileRow) : ScopeProfileRow :=
  { stored with
    name := written seen.name payload.name stored.name
    entries := written seen.entries payload.entries stored.entries
    allowCgnat := written seen.allowCgnat payload.allowCgnat stored.allowCgnat
    allowLinkLocal := written seen.allowLinkLocal payload.allowLinkLocal stored.allowLinkLocal }

/-- What `create_scan` stores of a request it lets through. -/
structure ScanCreate where
  scopeId : ℕ
  target : String
  targetNormalized : String
  targetType : TargetType
  resolvedAddrs : List String
  intensityProfile : String
  modules : List String
  moduleOptions : Json
  note : Option String
  attestationAt : ℚ
  deriving DecidableEq, Repr

def attestationVersion : String := "v1"

def attestationText : String :=
  "I own the systems in this scope profile, or I hold written authorization to " ++
    "actively scan them, and I understand ScanLedger sends real network probes."

/-- The row that it stores. -/
def ScanCreate.row (request : ScanCreate) (id : ℕ) (now : ℚ) : ScanRow where
  id
  scopeId := request.scopeId
  targetInput := request.target
  targetNormalized := request.targetNormalized
  targetType := request.targetType
  resolvedAddrs := request.resolvedAddrs
  intensityProfile := request.intensityProfile
  selectedModules := request.modules
  moduleOptions := request.moduleOptions
  status := .queued
  note := request.note
  attestationText := attestationText
  attestationVersion := attestationVersion
  attestationAt := request.attestationAt
  cancelRequested := false
  claimedBy := none
  createdAt := now
  startedAt := none
  finishedAt := none

/-! ### Statements -/

structure Db where
  scopes : List ScopeProfileRow
  scans : List ScanRow
  moduleRuns : List ModuleRunRow
  findings : List FindingRow
  ledger : List ScanLedgerRow
  events : List ScanEventRow
  lock : Option WorkerLockRow
  nextId : ℕ

def Db.empty : Db := ⟨[], [], [], [], [], [], none, 0⟩

namespace Db

variable (db : Db)

/-! ### Scans and scopes -/

/-- `session.get(ScanRow, scan_id)`. -/
def getScan (scanId : ℕ) : Option ScanRow := db.scans.find? (·.id == scanId)

def getScope (scopeId : ℕ) : Option ScopeProfileRow := db.scopes.find? (·.id == scopeId)

def hasScan (scanId : ℕ) : Bool := db.scans.any (·.id == scanId)

/-- `_cancel_requested`: no row reads as false. -/
def cancelRequested (scanId : ℕ) : Bool :=
  match db.getScan scanId with
  | some scan => scan.cancelRequested
  | none => false

def updateScan (scanId : ℕ) (status : ScanStatus) (finishedAt : ℚ) : Db :=
  { db with
    scans := updateWhere (·.id == scanId)
      (fun r => { r with status := status, finishedAt := some finishedAt }) db.scans }

/-- The write of `cancel_scan`. -/
def requestCancel (scanId : ℕ) : Db :=
  { db with
    scans := updateWhere (·.id == scanId) (fun r => { r with cancelRequested := true }) db.scans }

/-- The SELECT of `claim_next_scan`: the oldest queued scan. -/
def nextQueued : Option ScanRow :=
  (db.scans.filter (·.status == .queued)).argmin (·.createdAt)

/-- Its UPDATE, and whether it met a row. -/
def claim (candidate ownerId : ℕ) (now : ℚ) : Db × Bool :=
  ({ db with
    scans := updateWhere (fun r => r.id == candidate && r.status == .queued)
      (fun r => { r with status := .running, claimedBy := some ownerId, startedAt := some now })
      db.scans },
    db.scans.any fun r => r.id == candidate && r.status == .queued)

/-- The cascade of `ON DELETE CASCADE`. -/
def deleteScans (ids : List ℕ) : Db :=
  { db with
    scans := db.scans.filter (·.id ∉ ids)
    moduleRuns := db.moduleRuns.filter (·.scanId ∉ ids)
    findings := db.findings.filter (·.scanId ∉ ids)
    ledger := db.ledger.filter fun r => ∀ id ∈ r.scanId, id ∉ ids
    events := db.events.filter (·.scanId ∉ ids) }

/-- The SELECT of `sweep_old_scans`. -/
def expiredScans (cutoff : ℚ) : List ℕ :=
  (db.scans.filter fun r => r.createdAt < cutoff && r.status.isTerminal).map (·.id)

/-! ### Module runs, findings, ledger and events -/

def updateModuleRun (scanId : ℕ) (module : String) (u : ModuleUpdate) : Db :=
  { db with
    moduleRuns :=
      updateWhere (fun r => r.scanId == scanId && r.module == module) u.apply db.moduleRuns }

/-- `_mark_remaining_skipped`. -/
def skipRemaining (scanId : ℕ) (reason : String) (now : ℚ) : Db :=
  { db with
    moduleRuns :=
      updateWhere (fun r => r.scanId == scanId && (r.status == .queued || r.status == .running))
        (fun r => { r with
          status := .skipped, safeErrorMessage := some reason, finishedAt := some now })
        db.moduleRuns }

/-- `recover_interrupted`: both updates, in one transaction. -/
def recoverInterrupted (now : ℚ) : Db :=
  { db with
    moduleRuns := updateWhere (·.status == .running)
      (fun r => { r with
        status := .interrupted
        safeErrorMessage := some "the worker stopped before this module finished"
        finishedAt := some now })
      db.moduleRuns
    scans := updateWhere (·.status == .running)
      (fun r => { r with status := .queued, claimedBy := none }) db.scans }

def insertFindings (scanId : ℕ) (findings : List Finding) : Option Db :=
  if db.hasScan scanId then
    some { db with findings := db.findings ++ findings.map fun f => ⟨scanId, f⟩ }
  else none

def insertLedger (row : ScanLedgerRow) : Option Db :=
  if ∀ id ∈ row.scanId, db.hasScan id = true then some { db with ledger := db.ledger ++ [row] }
  else none

/-- The sequences of a scan's events. -/
def sequences (scanId : ℕ) : List ℕ :=
  (db.events.filter (·.scanId == scanId)).map (·.sequence)

/-- `_next_sequence`. -/
def nextSequence (scanId : ℕ) : ℕ := nextNumber (db.sequences scanId)

def insertEvent (row : ScanEventRow) : Option Db :=
  if db.hasScan row.scanId = true ∧ row.sequence ∉ db.sequences row.scanId then
    some { db with events := db.events ++ [row] }
  else none

/-! ### Requests -/

def createScope (payload : ScopeCreate) : Option Db :=
  if db.scopes.any (·.name == payload.name) then none
  else some { db with
    scopes := db.scopes ++ [⟨db.nextId, payload.name, payload.entries, payload.allowCgnat,
      payload.allowLinkLocal⟩]
    nextId := db.nextId + 1 }

/-- The UPDATE of `update_scope`, which read the row as `seen`. -/
def updateScope (seen : ScopeProfileRow) (payload : ScopeCreate) : Option Db :=
  if db.scopes.any (fun r => r.id != seen.id && payload.name != seen.name && r.name == payload.name)
  then none
  else some { db with
    scopes := updateWhere (·.id == seen.id) (payload.write seen) db.scopes }

/-- The DELETE of `delete_scope`, refused while a scan refers to the scope. -/
def deleteScope (scopeId : ℕ) : Option Db :=
  if db.scans.any (·.scopeId == scopeId) then none
  else some { db with scopes := db.scopes.filter (·.id != scopeId) }

/-- The last transaction of `create_scan`: the scan and a run for each module,
which are distinct, of a scope that is still there. -/
def createScan (request : ScanCreate) (now : ℚ) : Option Db :=
  if db.scopes.any (·.id == request.scopeId) = true ∧ request.modules.Nodup then
    some { db with
      scans := db.scans ++ [request.row db.nextId now]
      moduleRuns := db.moduleRuns ++ request.modules.map fun name =>
        ⟨db.nextId, name, .queued, 0, false, 0, none, none, none, none⟩
      nextId := db.nextId + 1 }
  else none

end Db

/-! ### What the statements do -/

@[simp] theorem ModuleUpdate.apply_scanId (u : ModuleUpdate) (r : ModuleRunRow) :
    (u.apply r).scanId = r.scanId := by
  unfold apply
  split <;> rfl

@[simp] theorem ModuleUpdate.apply_module (u : ModuleUpdate) (r : ModuleRunRow) :
    (u.apply r).module = r.module := by
  unfold apply
  split <;> rfl

@[simp] theorem ModuleUpdate.apply_status (u : ModuleUpdate) (r : ModuleRunRow) :
    (u.apply r).status = u.status := by
  unfold apply
  split <;> rfl

namespace Db

variable {db db' : Db} {scanId : ℕ}

theorem hasScan_congr (h : db'.scans = db.scans) : db'.hasScan scanId = db.hasScan scanId := by
  unfold hasScan
  rw [h]

/-- The ids of the scans there are. -/
def ids (db : Db) : List ℕ := db.scans.map (·.id)

/-- Every scan has a smaller number than the next one gets. -/
def Fresh (db : Db) : Prop := ∀ scan ∈ db.scans, scan.id < db.nextId

theorem hasScan_iff : db.hasScan scanId = true ↔ scanId ∈ db.ids := by
  unfold hasScan ids
  rw [List.any_eq_true, List.mem_map]
  exact exists_congr fun r => and_congr_right fun _ => beq_iff_eq

@[simp] theorem ids_updateScan (status : ScanStatus) (now : ℚ) :
    (db.updateScan scanId status now).ids = db.ids :=
  map_updateWhere (fun _ _ => by rfl) _

@[simp] theorem ids_requestCancel : (db.requestCancel scanId).ids = db.ids :=
  map_updateWhere (fun _ _ => by rfl) _

@[simp] theorem ids_claim (ownerId : ℕ) (now : ℚ) : (db.claim scanId ownerId now).1.ids = db.ids :=
  map_updateWhere (fun _ _ => by rfl) _

@[simp] theorem ids_recoverInterrupted (now : ℚ) : (db.recoverInterrupted now).ids = db.ids :=
  map_updateWhere (fun _ _ => by rfl) _

theorem getScan_updateScan {scan : ScanRow} (h : db.getScan scanId = some scan)
    (status : ScanStatus) (now : ℚ) : (db.updateScan scanId status now).getScan scanId =
      some { scan with status := status, finishedAt := some now } := by
  have hid : (scan.id == scanId) = true :=
    List.find?_some (p := fun r : ScanRow => r.id == scanId) h
  unfold getScan updateScan at *
  rw [find_updateWhere (fun _ _ => by rfl), h, Option.map_some, if_pos hid]

theorem cancelRequested_congr (h : db'.scans = db.scans) :
    db'.cancelRequested scanId = db.cancelRequested scanId := by
  unfold cancelRequested getScan
  rw [h]

theorem hasScan_of_getScan {scan : ScanRow} (h : db.getScan scanId = some scan) :
    db.hasScan scanId = true :=
  List.any_eq_true.mpr ⟨scan, List.mem_of_find?_eq_some h,
    List.find?_some (p := fun r : ScanRow => r.id == scanId) h⟩

theorem getScan_of_hasScan (h : db.hasScan scanId = true) :
    ∃ scan, db.getScan scanId = some scan := by
  obtain ⟨scan, hmem, hid⟩ := List.any_eq_true.mp h
  exact Option.isSome_iff_exists.mp (List.find?_isSome.mpr ⟨scan, hmem, hid⟩)

theorem insertFindings_eq_some {findings : List Finding} :
    db.insertFindings scanId findings = some db' ↔ db.hasScan scanId = true ∧
      { db with findings := db.findings ++ findings.map fun f => ⟨scanId, f⟩ } = db' := by
  rw [insertFindings, Option.ite_none_right_eq_some, Option.some.injEq]

theorem insertLedger_eq_some {row : ScanLedgerRow} : db.insertLedger row = some db' ↔
    (∀ id ∈ row.scanId, db.hasScan id = true) ∧ { db with ledger := db.ledger ++ [row] } = db' := by
  rw [insertLedger, Option.ite_none_right_eq_some, Option.some.injEq]

theorem insertEvent_eq_some {row : ScanEventRow} : db.insertEvent row = some db' ↔
    (db.hasScan row.scanId = true ∧ row.sequence ∉ db.sequences row.scanId) ∧
      { db with events := db.events ++ [row] } = db' := by
  rw [insertEvent, Option.ite_none_right_eq_some, Option.some.injEq]

/-- An event numbered by `_next_sequence` at its insert is stored. -/
theorem insertEvent_next (h : db.hasScan scanId = true) (module : Option String) (event : Event) :
    db.insertEvent ⟨scanId, db.nextSequence scanId, module, event⟩ =
      some { db with events := db.events ++ [⟨scanId, db.nextSequence scanId, module, event⟩] } :=
  if_pos ⟨h, nextNumber_notMem _⟩

theorem createScope_eq_some {payload : ScopeCreate} : db.createScope payload = some db' ↔
    ¬ db.scopes.any (·.name == payload.name) = true ∧ { db with
      scopes := db.scopes ++ [⟨db.nextId, payload.name, payload.entries, payload.allowCgnat,
        payload.allowLinkLocal⟩]
      nextId := db.nextId + 1 } = db' := by
  rw [createScope, Option.ite_none_left_eq_some, Option.some.injEq]

theorem updateScope_eq_some {seen : ScopeProfileRow} {payload : ScopeCreate} :
    db.updateScope seen payload = some db' ↔
      ¬ db.scopes.any (fun r =>
          r.id != seen.id && payload.name != seen.name && r.name == payload.name) = true ∧
        { db with scopes := updateWhere (·.id == seen.id) (payload.write seen) db.scopes } =
          db' := by
  rw [updateScope, Option.ite_none_left_eq_some, Option.some.injEq]

theorem deleteScope_eq_some {scopeId : ℕ} : db.deleteScope scopeId = some db' ↔
    ¬ db.scans.any (·.scopeId == scopeId) = true ∧
      { db with scopes := db.scopes.filter (·.id != scopeId) } = db' := by
  rw [deleteScope, Option.ite_none_left_eq_some, Option.some.injEq]

theorem createScan_eq_some {request : ScanCreate} {now : ℚ} :
    db.createScan request now = some db' ↔
      (db.scopes.any (·.id == request.scopeId) = true ∧ request.modules.Nodup) ∧ { db with
        scans := db.scans ++ [request.row db.nextId now]
        moduleRuns := db.moduleRuns ++ request.modules.map fun name =>
          ⟨db.nextId, name, .queued, 0, false, 0, none, none, none, none⟩
        nextId := db.nextId + 1 } = db' := by
  rw [createScan, Option.ite_none_right_eq_some, Option.some.injEq]

/-- A decision made before there is a scan has no parent to miss. -/
theorem insertLedger_of_none (scopeId : Option ℕ) (entry : LedgerEntry) :
    db.insertLedger ⟨none, scopeId, entry⟩ =
      some { db with ledger := db.ledger ++ [⟨none, scopeId, entry⟩] } :=
  if_pos fun _ hid => by cases hid

theorem insertLedger_of_hasScan (h : db.hasScan scanId = true) (scopeId : Option ℕ)
    (entry : LedgerEntry) :
    db.insertLedger ⟨some scanId, scopeId, entry⟩ =
      some { db with ledger := db.ledger ++ [⟨some scanId, scopeId, entry⟩] } :=
  if_pos fun id hid => by rw [← Option.some.inj hid]; exact h

theorem insertFindings_of_hasScan (h : db.hasScan scanId = true) (findings : List Finding) :
    db.insertFindings scanId findings =
      some { db with findings := db.findings ++ findings.map fun f => ⟨scanId, f⟩ } :=
  if_pos h

/-- The modules of a scan's runs. -/
def modulesOf (db : Db) (scanId : ℕ) : List String :=
  ((db.moduleRuns.map fun r => (r.scanId, r.module)).filter (·.1 == scanId)).map (·.2)

theorem modulesOf_updateModuleRun (db : Db) (scanId id : ℕ) (module : String) (u : ModuleUpdate) :
    (db.updateModuleRun id module u).modulesOf scanId = db.modulesOf scanId := by
  unfold modulesOf updateModuleRun
  rw [map_updateWhere (by simp)]

/-- The runs of a scan are terminal, but for those of these modules. -/
def TerminalBut (db : Db) (scanId : ℕ) (names : List String) : Prop :=
  ∀ r ∈ db.moduleRuns, r.scanId = scanId → r.status.isTerminal = true ∨ r.module ∈ names

/-- A write to the runs of a module leaves the others as they are. -/
theorem TerminalBut.write {module : String} {names : List String}
    (h : db.TerminalBut scanId (module :: names)) (u : ModuleUpdate) :
    (db.updateModuleRun scanId module u).TerminalBut scanId (module :: names) := by
  intro r hr hscan
  obtain ⟨r₀, hr₀, ⟨hp, rfl⟩ | ⟨-, rfl⟩⟩ := mem_updateWhere.mp hr
  · right
    rw [u.apply_module]
    have hmodule : r₀.module = module := eq_of_beq (Bool.and_eq_true_iff.mp hp).2
    rw [hmodule]
    exact List.mem_cons_self
  · exact h r hr₀ hscan

/-- A terminal status closes the runs of its module. -/
theorem TerminalBut.close {module : String} {names : List String}
    (h : db.TerminalBut scanId (module :: names)) {u : ModuleUpdate}
    (hu : u.status.isTerminal = true) :
    (db.updateModuleRun scanId module u).TerminalBut scanId names := by
  intro r hr hscan
  obtain ⟨r₀, hr₀, ⟨-, rfl⟩ | ⟨hp, rfl⟩⟩ := mem_updateWhere.mp hr
  · left
    rw [u.apply_status]
    exact hu
  · rcases h r hr₀ hscan with ht | hmem
    · exact Or.inl ht
    · rcases List.mem_cons.mp hmem with hm | hmem
      · simp [hscan, hm] at hp
      · exact Or.inr hmem

end Db

end ScanLedger
