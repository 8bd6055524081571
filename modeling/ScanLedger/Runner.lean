/-
# Runner

`ScanRunner.execute_scan` (`app/scan/runner.py`) with what it calls:
`EventPublisher.publish` without the live subscribers, `run_retention`, and the
guard over the scan's ledger. It is a program over the statements it runs on
the database; the modules, the clock, the governor's counters and the resolver
answer as they like. While a module runs, the footprint ticker publishes beside
it; its companion, the cancel watcher, reads and writes nothing that others
see and is left out. `World.serve` answers each operation from the database.

Key definitions: `RunnerOp`, `publish`, `finish`, `settleModule`, `moduleLoop`,
`executeScan`, `Point`, `Point.Moves`, `Ticker`, `World.serve`.
Key theorem: `Point.moves_next`.
-/
import ScanLedger.Database

namespace ScanLedger

open Governor (limitsOf intensityProfiles)
open Prog

/-! ### What the runner calls -/

/-- A ledger sink bound to a scan and its scope. -/
structure DatabaseLedger where
  scanId : Option ℕ
  scopeId : Option ℕ
  deriving DecidableEq, Repr

inductive RunnerOp
  /-- `datetime.now(UTC)`. -/
  | now
  | getScan (scanId : ℕ)
  | getScope (scopeId : ℕ)
  | cancelRequested (scanId : ℕ)
  | updateScan (scanId : ℕ) (status : ScanStatus) (finishedAt : ℚ)
  | updateModuleRun (scanId : ℕ) (module : String) (u : ModuleUpdate)
  | skipRemaining (scanId : ℕ) (reason : String) (now : ℚ)
  | insertFindings (scanId : ℕ) (findings : List Finding)
  | nextSequence (scanId : ℕ)
  | insertEvent (row : ScanEventRow)
  | expiredScans (cutoff : ℚ)
  | deleteScans (ids : List ℕ)
  | sweepExpiredCache (now : ℚ)
  /-- An operation of the guard, over the scan's ledger. -/
  | guard (ledger : DatabaseLedger) (o : Op)
  /-- The footprint ticker is created. -/
  | startTicker (scanId : ℕ)
  /-- It is cancelled and awaited. -/
  | stopTicker
  /-- `governor.hosts_touched` and `governor.probes_made`. -/
  | footprint
  /-- `wait_for(module.run(context), timeout=...)`. -/
  | runModule (module : ModuleMetadata) (context : ModuleContext)

@[reducible] def RunnerOp.Answer : RunnerOp → Type
  | .now => ℚ
  | .getScan _ => Option ScanRow
  | .getScope _ => Option ScopeProfileRow
  | .cancelRequested _ => Bool
  | .nextSequence _ => ℕ
  | .expiredScans _ => List ℕ
  | .guard _ o => o.Answer
  | .footprint => ℕ × ℕ
  | .runModule _ _ => ModuleResult
  | _ => Unit

/-- The programs of the runner. -/
abbrev Runner (α : Type) : Type := Prog Exn RunnerOp RunnerOp.Answer α

def ask (o : RunnerOp) : Runner o.Answer := perform o

/-- An operation under `try`. -/
def tried (o : RunnerOp) : Runner (Except Exn o.Answer) := outcome o

/-- A program of the guard, over this ledger. -/
def guarded {α : Type} (ledger : DatabaseLedger) : Guard α → Runner α
  | .ret a => .ret a
  | .raise x => .raise x
  | .op o k => .op (.guard ledger o) fun r => guarded ledger (k r)

/-! ### Publishing and retention -/

def publish (scanId : ℕ) (event : Event) (module : Option String) : Runner Unit := do
  let next : ℕ ← ask (.nextSequence scanId)
  ask (.insertEvent ⟨scanId, next, module, event⟩)

/-- `sweep_old_scans`. -/
def sweepOldScans (retentionDays : ℕ) : Runner Unit := do
  let moment : ℚ ← ask .now
  let expired : List ℕ ← ask (.expiredScans (moment - retentionDays * 86400))
  match expired with
  | [] => pure ()
  | id :: ids => ask (.deleteScans (id :: ids))

def runRetention (retentionDays : ℕ) : Runner Unit := do
  sweepOldScans retentionDays
  let moment : ℚ ← ask .now
  ask (.sweepExpiredCache moment)

/-! ### Module runs -/

/-- `_set_module_status`. -/
def setModuleStatus (scanId : ℕ) (module : String) (status : ModuleStatus)
    (reason code : Option String) (findingCount : ℕ) (cacheHit : Bool) : Runner Unit := do
  let now : ℚ ← ask .now
  ask (.updateModuleRun scanId module ⟨status, now, findingCount, cacheHit, reason, code⟩)
  publish scanId (.moduleStatus status reason findingCount) (some module)

/-- `_store_findings`. -/
def storeFindings (scanId : ℕ) : List Finding → Runner Unit
  | [] => pure ()
  | f :: fs => ask (.insertFindings scanId (f :: fs))

/-- `_publish_footprint`. -/
def publishFootprint (scanId : ℕ) : Runner Unit := do
  let counts : ℕ × ℕ ← ask .footprint
  publish scanId (.footprint counts.1 counts.2) none

/-- The variables of `execute_scan` that its module loop updates. -/
structure Tally where
  anySuccess : Bool
  anyProblem : Bool
  produced : List Finding
  deriving DecidableEq, Repr

/-- The module run ends as failed, with reason and code. -/
def failModule (scanId : ℕ) (module : String) (t : Tally) (reason code : String) :
    Runner Tally := do
  setModuleStatus scanId module .failed (some reason) (some code) 0 false
  return { t with anyProblem := true }

/-- `"; ".join(result.warnings) if result.warnings else None`. -/
def warningText : List String → Option String
  | [] => none
  | w :: ws => some ("; ".intercalate (w :: ws))

/-- The `except` clauses and the `else` of the module loop: what follows how
`module.run` ended. -/
def settleModule (scanId : ℕ) (module : ModuleMetadata) (t : Tally) :
    Except Exn ModuleResult → Runner Tally
  | .error (.failure .timeout) => failModule scanId module.name t
      ("module timed out after " ++ toString module.timeoutSeconds ++ "s") "module_timeout"
  | .error (.budgetExceeded e) => failModule scanId module.name t e.message "budget_exceeded"
  | .error (.moduleError code message) => failModule scanId module.name t message code
  | .error (.targetRejected target reason) => failModule scanId module.name t
      (target ++ " rejected: " ++ reason) "target_out_of_scope"
  | .error x => raise x
  | .ok result => do
    storeFindings scanId result.findings
    setModuleStatus scanId module.name .done (warningText result.warnings) none
      result.findings.length result.cacheHit
    return ⟨true, t.anyProblem || !result.warnings.isEmpty, t.produced ++ result.findings⟩

section

variable (registry : ModuleRegistry) (retentionDays : ℕ)

/-- `_finish`. -/
def finish (scanId : ℕ) (status : ScanStatus) (reason : Option String) : Runner ScanStatus := do
  let now : ℚ ← ask .now
  ask (.updateScan scanId status now)
  publish scanId (.scanFinished status reason) none
  runRetention retentionDays
  return status

/-- A cancel was seen: `_mark_remaining_skipped`, then `_finish`. -/
def finishCanceled (scanId : ℕ) : Runner ScanStatus := do
  let now : ℚ ← ask .now
  ask (.skipRemaining scanId "the scan was canceled" now)
  finish retentionDays scanId .canceled none

/-- What follows the loop when no cancel is seen. -/
def conclude (scanId : ℕ) (t : Tally) : Runner ScanStatus :=
  if !t.anySuccess then
    finish retentionDays scanId .failed (some "no module produced a valid terminal result")
  else if t.anyProblem then finish retentionDays scanId .completedWithWarnings none
  else finish retentionDays scanId .completed none

/-- The `try` of the module loop, but for its `finally`. -/
def tryModule (scanId : ℕ) (target : ValidatedTarget) (module : ModuleMetadata) (t : Tally) :
    Runner Tally := do
  let r : Except Exn ModuleResult ← tried (.runModule module ⟨scanId, target, t.produced⟩)
  settleModule scanId module t r

/-- The body of the module loop for a module that applies to the target. -/
def runModule (scanId : ℕ) (target : ValidatedTarget) (module : ModuleMetadata) (t : Tally) :
    Runner Tally := do
  setModuleStatus scanId module.name .running none none 0 false
  ask (.startTicker scanId)
  let t ← Prog.tryFinally (tryModule scanId target module t) (ask .stopTicker)
  publishFootprint scanId
  return t

/-- The modules in their order, and the end of the scan. -/
def moduleLoop (scanId : ℕ) (target : ValidatedTarget) (targetType : TargetType) :
    List ModuleMetadata → Tally → Runner ScanStatus
  | [], t => do
    let canceled : Bool ← ask (.cancelRequested scanId)
    match canceled with
    | true => finishCanceled retentionDays scanId
    | false => conclude retentionDays scanId t
  | module :: rest, t => do
    let canceled : Bool ← ask (.cancelRequested scanId)
    match canceled with
    | true => finishCanceled retentionDays scanId
    | false =>
      match module.appliesTo targetType with
      | false => do
        setModuleStatus scanId module.name .notApplicable
          (some ("this module does not support a " ++ targetType.text ++ " target")) none 0 false
        moduleLoop scanId target targetType rest t
      | true => do
        let t ← runModule scanId target module t
        moduleLoop scanId target targetType rest t

/-- `guard.validate_target`, with a refusal as an answer. -/
def dispatch (ledger : DatabaseLedger) (scope : ScopeProfile) (targetInput : String) :
    Runner (Except String ValidatedTarget) :=
  Prog.tryCatch
    (do
      let target ← guarded ledger (validateTarget scope targetInput)
      return .ok target)
    fun
      | .targetRejected _ reason => ret (.error reason)
      | x => raise x

/-- `execute_scan` with the scan and its scope at hand. -/
def executeIn (scan : ScanRow) (scopeId : ℕ) (scope : ScopeProfile) : Runner ScanStatus := do
  publish scan.id .scanRunning none
  match limitsOf scan.intensityProfile intensityProfiles with
  | .error e => raise (.governorConfig e)
  | .ok _ => do
    let target ← dispatch ⟨some scan.id, some scopeId⟩ scope scan.targetInput
    match target with
    | .error reason =>
      finish retentionDays scan.id .failed (some ("target refused at dispatch: " ++ reason))
    | .ok target =>
      match registry.ordered scan.selectedModules with
      | .error x => raise x
      | .ok modules =>
        moduleLoop retentionDays scan.id target scan.targetType modules ⟨false, false, []⟩

def executeScan (scanId : ℕ) : Runner ScanStatus := do
  let scan : Option ScanRow ← ask (.getScan scanId)
  match scan with
  | none => return .failed
  | some scan => do
    let scopeRow : Option ScopeProfileRow ← ask (.getScope scan.scopeId)
    match scopeRow with
    | none =>
      finish retentionDays scanId .failed
        (some "the scope profile for this scan no longer exists")
    | some row =>
      match ScopeProfile.create row.name row.entries row.allowCgnat row.allowLinkLocal with
      | .error e => raise (.failure (.other e.message))
      | .ok scope => executeIn registry retentionDays scan row.id scope

end

/-! ### Where an execution stands -/

/-- What has happened so far in an execution, of `left` selected modules that
are still to end. -/
inductive Point
  /-- The scan is not read yet. -/
  | reading
  /-- Its scope is read and its target validated. -/
  | dispatching (left : ℕ)
  | looping (left : ℕ)
  /-- The last check saw no cancel, and nothing was written since. -/
  | checked (left : ℕ)
  | canceling
  /-- Its last event is stored. -/
  | finished
  deriving DecidableEq, Repr

namespace Point

/-- After the scan was read, with so many modules selected. -/
def read (selected : ℕ) : Point → Point
  | reading => dispatching selected
  | point => point

/-- After a check for a cancel. -/
def check (canceled : Bool) : Point → Point
  | dispatching left | looping left => if canceled then canceling else checked left
  | point => point

/-- After a module run was written. -/
def write (status : ModuleStatus) : Point → Point
  | checked left | looping left => looping (if status.isTerminal then left - 1 else left)
  | point => point

/-- After a statement and its answer. -/
def next (point : Point) : (o : RunnerOp) → Except Exn o.Answer → Point
  | .getScan _, .ok (some scan) => point.read scan.selectedModules.length
  | .cancelRequested _, .ok canceled => point.check canceled
  | .updateModuleRun _ _ u, .ok _ => point.write u.status
  | .insertEvent ⟨_, _, _, .scanFinished _ _⟩, .ok _ => finished
  | _, _ => point

/-- What a statement can make of a point. -/
inductive Moves (point : Point) : RunnerOp → Point → Prop
  | stays (o : RunnerOp) : Moves point o point
  | reads (id selected : ℕ) (h : point = reading) : Moves point (.getScan id) (dispatching selected)
  | checks (id : ℕ) {left : ℕ} {point' : Point}
      (h : point = dispatching left ∨ point = looping left)
      (h' : point' = canceling ∨ point' = checked left) : Moves point (.cancelRequested id) point'
  | writes (id : ℕ) (module : String) (u : ModuleUpdate) {left : ℕ} (left' : ℕ)
      (h : point = checked left ∨ point = looping left) :
      Moves point (.updateModuleRun id module u) (looping left')
  | finishes (row : ScanEventRow) {status : ScanStatus} {reason : Option String}
      (h : row.event = .scanFinished status reason) : Moves point (.insertEvent row) finished

theorem moves_next (point : Point) (o : RunnerOp) (r : Except Exn o.Answer) :
    point.Moves o (point.next o r) := by
  cases o with
  | getScan id =>
    rcases r with x | (_ | scan)
    · exact .stays _
    · exact .stays _
    · cases point with
      | reading => exact .reads id _ rfl
      | _ => exact .stays _
  | cancelRequested id =>
    rcases r with x | canceled
    · exact .stays _
    · have hcheck : ∀ left, (if canceled then canceling else checked left) = canceling ∨
          (if canceled then canceling else checked left) = checked left := fun left => by
        cases canceled with
        | true => exact Or.inl rfl
        | false => exact Or.inr rfl
      cases point with
      | dispatching left => exact .checks id (Or.inl rfl) (hcheck left)
      | looping left => exact .checks id (Or.inr rfl) (hcheck left)
      | _ => exact .stays _
  | updateModuleRun id module u =>
    cases r with
    | error x => exact .stays _
    | ok _ =>
      cases point with
      | checked left => exact .writes id module u _ (Or.inl rfl)
      | looping left => exact .writes id module u _ (Or.inr rfl)
      | _ => exact .stays _
  | insertEvent row =>
    obtain ⟨id, sequence, module, event⟩ := row
    cases r with
    | error x => cases event <;> exact .stays _
    | ok _ =>
      cases event with
      | scanFinished status reason => exact .finishes _ rfl
      | _ => exact .stays _
  | _ => cases r <;> exact .stays _

end Point

/-! ### Answers -/

/-- The footprint ticker: off, asleep, between the two steps of a publish, or
ended by an exception. -/
inductive Ticker
  | off
  | asleep (scanId : ℕ)
  | publishing (row : ScanEventRow)
  | failed (x : Exn)
  deriving DecidableEq, Repr

/-- What a runner's statements meet. -/
structure World where
  db : Db
  ticker : Ticker

/-- The answers that are not in the database. -/
structure Answers where
  now : ℚ
  resolve : String → Except ResolveError (List IPAddress)
  footprint : ℕ × ℕ
  result : Except Exn ModuleResult

/-- A statement that fails leaves the database as it was. -/
def World.insert (w : World) : Option Db → Except Exn Unit × World
  | some db => (.ok (), { w with db })
  | none => (.error (.failure .integrity), w)

/-- The guard's operations in `validate_target`: the resolver and the ledger. -/
def World.serveGuard (e : Answers) (w : World) (ledger : DatabaseLedger) :
    (o : Op) → Except Exn o.Answer × World
  | .resolve hostname => ((e.resolve hostname).mapError ResolveError.exn, w)
  | .record entry => w.insert (w.db.insertLedger ⟨ledger.scanId, ledger.scopeId, entry⟩)
  | .setActive => (.ok false, w)
  | .slot _ | .release _ | .resetActive _ | .socket _ | .sockConnect _ _ | .connected | .close
  | .reportError _ | .reportSuccess _ | .openConnection _ => (.ok (), w)

def World.serve (e : Answers) (w : World) : (o : RunnerOp) → Except Exn o.Answer × World
  | .now => (.ok e.now, w)
  | .getScan scanId => (.ok (w.db.getScan scanId), w)
  | .getScope scopeId => (.ok (w.db.getScope scopeId), w)
  | .cancelRequested scanId => (.ok (w.db.cancelRequested scanId), w)
  | .updateScan scanId status finishedAt =>
    (.ok (), { w with db := w.db.updateScan scanId status finishedAt })
  | .updateModuleRun scanId module u =>
    (.ok (), { w with db := w.db.updateModuleRun scanId module u })
  | .skipRemaining scanId reason now =>
    (.ok (), { w with db := w.db.skipRemaining scanId reason now })
  | .insertFindings scanId findings => w.insert (w.db.insertFindings scanId findings)
  | .nextSequence scanId => (.ok (w.db.nextSequence scanId), w)
  | .insertEvent row => w.insert (w.db.insertEvent row)
  | .expiredScans cutoff => (.ok (w.db.expiredScans cutoff), w)
  | .deleteScans ids => (.ok (), { w with db := w.db.deleteScans ids })
  | .sweepExpiredCache _ => (.ok (), w)
  | .guard ledger o => w.serveGuard e ledger o
  | .startTicker scanId => (.ok (), { w with ticker := .asleep scanId })
  | .stopTicker => match w.ticker with
    | .failed x => (.error x, { w with ticker := .off })
    | _ => (.ok (), { w with ticker := .off })
  | .footprint => (.ok e.footprint, w)
  | .runModule _ _ => (e.result, w)

/-! What is inserted for a scan that is there. -/

section

variable {e : Answers} {w : World} {scanId : ℕ}

theorem World.serve_insertEvent (h : w.db.hasScan scanId = true) (module : Option String)
    (event : Event) :
    w.serve e (.insertEvent ⟨scanId, w.db.nextSequence scanId, module, event⟩) =
      (.ok (), { w with db := { w.db with
        events := w.db.events ++ [⟨scanId, w.db.nextSequence scanId, module, event⟩] } }) := by
  rw [World.serve, Db.insertEvent_next h, World.insert]

theorem World.serve_insertFindings (h : w.db.hasScan scanId = true) (findings : List Finding) :
    w.serve e (.insertFindings scanId findings) =
      (.ok (), { w with db := { w.db with
        findings := w.db.findings ++ findings.map fun f => ⟨scanId, f⟩ } }) := by
  rw [World.serve, Db.insertFindings_of_hasScan h, World.insert]

theorem World.serve_record {ledger : DatabaseLedger} (hl : ledger.scanId = some scanId)
    (h : w.db.hasScan scanId = true) (entry : LedgerEntry) :
    w.serve e (.guard ledger (.record entry)) =
      (.ok (), { w with db := { w.db with
        ledger := w.db.ledger ++ [⟨some scanId, ledger.scopeId, entry⟩] } }) := by
  rw [World.serve, World.serveGuard, hl, Db.insertLedger_of_hasScan h, World.insert]

end

end ScanLedger
