/-
# Workers

Any number of `ScanRunner` processes on one database, with the requests of the
API beside them, each step one atomic statement. A runner acquires the worker
lock in two steps, recovers what a crash left behind, sweeps, and then loops:
it looks for the oldest queued scan, claims it and executes it, while its
footprint ticker publishes and its heartbeat renews the lock. A runner may
pause between any two steps for as long as it likes, or for good.

Key definitions: `LockCall`, `Stage`, `Proc`, `Move`, `procStep`, `ApiStep`,
`Db.serveApi`, `Sys`, `Sys.step`.
Key theorems: `procStep_moves`, `Db.serveApi_serves`, `Sys.step_steps`.
-/
import ScanLedger.Runner

namespace ScanLedger

open Prog
open Governor (intensityProfiles)

/-! ### The worker lock -/

def lockStaleAfterSeconds : ℚ := 30

/-- What all runners run with, and what each writes into the lock. -/
structure Config where
  registry : ModuleRegistry
  retentionDays : ℕ
  pid : ℕ → ℕ
  hostname : ℕ → String

/-- The row of a runner that acquires the lock at `moment`. -/
def Config.lockRow (cfg : Config) (i : ℕ) (moment : ℚ) : WorkerLockRow :=
  ⟨i, cfg.pid i, cfg.hostname i, moment, moment⟩

/-- `acquire_worker_lock` raises `WorkerAlreadyRunningError`: the heartbeat is
fresh and not the runner's own. -/
def WorkerLockRow.refuses (row : WorkerLockRow) (i : ℕ) (moment : ℚ) : Bool :=
  decide (moment - lockStaleAfterSeconds < row.heartbeatAt) && row.ownerId != i

/-- The stored row after the UPDATE of a runner that read `seen`: the columns
that are new are written. -/
def WorkerLockRow.write (new seen stored : WorkerLockRow) : WorkerLockRow where
  ownerId := written seen.ownerId new.ownerId stored.ownerId
  pid := written seen.pid new.pid stored.pid
  hostname := written seen.hostname new.hostname stored.hostname
  acquiredAt := written seen.acquiredAt new.acquiredAt stored.acquiredAt
  heartbeatAt := written seen.heartbeatAt new.heartbeatAt stored.heartbeatAt

/-- The write of `acquire_worker_lock`, which read `seen`: the lock after it,
if it succeeds. An INSERT fails where there is a row, an UPDATE where there is
none; with nothing new to write there is no UPDATE. -/
def acquireWrite (new : WorkerLockRow) :
    (seen stored : Option WorkerLockRow) → Option (Option WorkerLockRow)
  | none, none => some (some new)
  | none, some _ => none
  | some seen, stored =>
    if new = seen then some stored
    else match stored with
      | none => none
      | some row => some (some (new.write seen row))

/-- A runner's call on the lock, between its two steps. -/
inductive LockCall
  | idle
  | acquiring (moment : ℚ) (seen : Option WorkerLockRow)
  | releasing
  deriving DecidableEq, Repr

/-! ### A runner -/

/-- Where a runner stands. -/
inductive Stage
  | down
  | starting
  | sweeping (rest : Runner Unit)
  | looping
  | claiming (candidate : ℕ)
  | executing (scanId : ℕ) (point : Point) (rest : Runner ScanStatus)
  /-- The exception went through `_loop`, whose task is over. -/
  | dead (x : Exn)

def Stage.isStarting : Stage → Bool
  | .starting => true
  | _ => false

/-- A runner, and the time its acquire returned if it has not released since. -/
structure Proc where
  lock : LockCall
  since : Option ℚ
  stage : Stage
  ticker : Ticker

def Proc.new : Proc := ⟨.idle, none, .down, .off⟩

/-- After a statement of the sweep in `start`. -/
def afterSweep : Runner Unit → Stage
  | .ret _ => .looping
  | .raise x => .dead x
  | .op o k => .sweeping (.op o k)

/-- After a statement of `execute_scan`. -/
def afterStatement (scanId : ℕ) (point : Point) : Runner ScanStatus → Stage
  | .ret _ => .looping
  | .raise x => .dead x
  | .op o k => .executing scanId point (.op o k)

/-- `stop` cancels the tasks and awaits them; it goes on to the release if none
of them had failed. -/
def Proc.stops (p : Proc) : Bool :=
  match p.stage, p.ticker with
  | .down, _ => false
  | .dead _, _ => false
  | _, .failed _ => false
  | _, _ => true

/-- `start` creates the heartbeat after the sweep, and `stop` ends it. -/
def Proc.beats (p : Proc) : Bool :=
  match p.stage with
  | .down | .starting | .sweeping _ => false
  | .looping | .claiming _ | .executing .. | .dead _ => true

/-- The stage of a runner whose acquire returns. -/
def Stage.acquired : Stage → Stage
  | .down => .starting
  | stage => stage

inductive Move
  /-- The clock and the SELECT of `acquire_worker_lock`. -/
  | acquire (moment : ℚ)
  /-- Its INSERT or UPDATE. -/
  | write
  /-- `stop`, up to the SELECT of `release_worker_lock`. -/
  | release
  /-- Its DELETE. -/
  | delete
  | beat (moment : ℚ)
  | recover
  /-- The SELECT of `claim_next_scan`. -/
  | look
  /-- Its UPDATE. -/
  | claim
  /-- The next statement of the sweep, or of `execute_scan`. -/
  | serve (e : Answers)
  /-- The ticker reads the next sequence. -/
  | tick (hostsProbed portsTouched : ℕ)
  /-- Its insert. -/
  | tock
  /-- A ledger entry of the guard, for the module that runs. -/
  | record (entry : LedgerEntry)
  /-- The process is gone, and its lock row stays. -/
  | crash

/-- A step of runner `i`, standing as `p`. -/
def procStep (cfg : Config) (i : ℕ) (clock : ℚ) (db : Db) (p : Proc) : Move → Option (Db × Proc)
  | .acquire moment =>
    if p.lock = .idle ∧ moment ≤ clock then
      if db.lock.any (·.refuses i moment) then some (db, p)
      else some (db, { p with lock := .acquiring moment db.lock })
    else none
  | .write => match p.lock with
    | .acquiring moment seen => match acquireWrite (cfg.lockRow i moment) seen db.lock with
      | none => some (db, { p with lock := .idle })
      | some lock =>
        let stage := p.stage.acquired
        some ({ db with lock }, { p with lock := .idle, since := some clock, stage })
    | _ => none
  | .release =>
    if p.lock = .idle ∧ p.stops = true then
      if db.lock.any (·.ownerId == i) then
        some (db, { p with lock := .releasing, stage := .down, ticker := .off })
      else some (db, { p with since := none, stage := .down, ticker := .off })
    else none
  | .delete => match p.lock with
    | .releasing => some ({ db with lock := none }, { p with lock := .idle, since := none })
    | _ => none
  | .beat moment =>
    if p.beats = true ∧ moment ≤ clock then
      some ({ db with lock := db.lock.map fun row =>
        if row.ownerId = i then { row with heartbeatAt := moment } else row }, p)
    else none
  | .recover => match p.stage with
    | .starting => some (db.recoverInterrupted clock,
        { p with stage := afterSweep (runRetention cfg.retentionDays) })
    | _ => none
  | .look => match p.stage with
    | .looping => match db.nextQueued with
      | none => some (db, p)
      | some scan => some (db, { p with stage := .claiming scan.id })
    | _ => none
  | .claim => match p.stage with
    | .claiming candidate =>
      if (db.claim candidate i clock).2 then
        let execution := executeScan cfg.registry cfg.retentionDays candidate
        some ((db.claim candidate i clock).1,
          { p with stage := afterStatement candidate .reading execution })
      else some (db, { p with stage := .looping })
    | _ => none
  | .serve e => match p.stage with
    | .sweeping (.op o k) =>
      let served := World.serve { e with now := clock } ⟨db, p.ticker⟩ o
      let stage := afterSweep (k served.1)
      some (served.2.db, { p with stage, ticker := served.2.ticker })
    | .executing scanId point (.op o k) =>
      let served := World.serve { e with now := clock } ⟨db, p.ticker⟩ o
      let stage := afterStatement scanId (point.next o served.1) (k served.1)
      some (served.2.db, { p with stage, ticker := served.2.ticker })
    | _ => none
  | .tick hostsProbed portsTouched => match p.ticker with
    | .asleep scanId =>
      let event := .footprint hostsProbed portsTouched
      some (db, { p with ticker := .publishing ⟨scanId, db.nextSequence scanId, none, event⟩ })
    | _ => none
  | .tock => match p.ticker with
    | .publishing row => match db.insertEvent row with
      | some db => some (db, { p with ticker := .asleep row.scanId })
      | none => some (db, { p with ticker := .failed (.failure .integrity) })
    | _ => none
  | .record entry => match p.stage with
    | .executing _ _ (.op (.runModule _ context) _) =>
      some ((db.insertLedger ⟨some context.scanId, none, entry⟩).getD db, p)
    | _ => none
  | .crash => some (db, { p with lock := .idle, stage := .down, ticker := .off })

/-- What the steps of a runner come to. -/
inductive Moves (cfg : Config) (i : ℕ) (clock : ℚ) (db : Db) (p : Proc) : Move → Db → Proc → Prop
  | refused (moment : ℚ) : Moves cfg i clock db p (.acquire moment) db p
  | reads {moment : ℚ} (hl : p.lock = .idle) (hm : moment ≤ clock)
      (hr : db.lock.any (·.refuses i moment) = false) :
      Moves cfg i clock db p (.acquire moment) db { p with lock := .acquiring moment db.lock }
  | fails {moment : ℚ} {seen : Option WorkerLockRow} (hl : p.lock = .acquiring moment seen) :
      Moves cfg i clock db p .write db { p with lock := .idle }
  | acquires {moment : ℚ} {seen lock : Option WorkerLockRow} (hl : p.lock = .acquiring moment seen)
      (hw : acquireWrite (cfg.lockRow i moment) seen db.lock = some lock) :
      Moves cfg i clock db p .write { db with lock }
        { p with lock := .idle, since := some clock, stage := p.stage.acquired }
  | stops (hl : p.lock = .idle) (ho : db.lock.any (·.ownerId == i) = true) :
      Moves cfg i clock db p .release db
        { p with lock := .releasing, stage := .down, ticker := .off }
  | stopped (hl : p.lock = .idle) (ho : db.lock.any (·.ownerId == i) = false) :
      Moves cfg i clock db p .release db { p with since := none, stage := .down, ticker := .off }
  | deletes (hl : p.lock = .releasing) :
      Moves cfg i clock db p .delete { db with lock := none }
        { p with lock := .idle, since := none }
  | beats {moment : ℚ} (hm : moment ≤ clock) :
      Moves cfg i clock db p (.beat moment) { db with lock := db.lock.map fun row =>
        if row.ownerId = i then { row with heartbeatAt := moment } else row } p
  | recovers (hs : p.stage = .starting) :
      Moves cfg i clock db p .recover (db.recoverInterrupted clock)
        { p with stage := afterSweep (runRetention cfg.retentionDays) }
  | sleeps (hs : p.stage = .looping) (hq : db.nextQueued = none) :
      Moves cfg i clock db p .look db p
  | looks {scan : ScanRow} (hs : p.stage = .looping) (hq : db.nextQueued = some scan) :
      Moves cfg i clock db p .look db { p with stage := .claiming scan.id }
  | loses {candidate : ℕ} (hs : p.stage = .claiming candidate) :
      Moves cfg i clock db p .claim db { p with stage := .looping }
  | claims {candidate : ℕ} (hs : p.stage = .claiming candidate)
      (hc : (db.claim candidate i clock).2 = true) :
      Moves cfg i clock db p .claim (db.claim candidate i clock).1 { p with
        stage := afterStatement candidate .reading
          (executeScan cfg.registry cfg.retentionDays candidate) }
  | sweeps {e : Answers} {o : RunnerOp} {k : Except Exn o.Answer → Runner Unit}
      (hs : p.stage = .sweeping (.op o k)) {r : Except Exn o.Answer} {w : World}
      (hw : World.serve { e with now := clock } ⟨db, p.ticker⟩ o = (r, w)) :
      Moves cfg i clock db p (.serve e) w.db
        { p with stage := afterSweep (k r), ticker := w.ticker }
  | executes {e : Answers} {scanId : ℕ} {point : Point} {o : RunnerOp}
      {k : Except Exn o.Answer → Runner ScanStatus}
      (hs : p.stage = .executing scanId point (.op o k)) {r : Except Exn o.Answer} {w : World}
      (hw : World.serve { e with now := clock } ⟨db, p.ticker⟩ o = (r, w)) :
      Moves cfg i clock db p (.serve e) w.db { p with
        stage := afterStatement scanId (point.next o r) (k r), ticker := w.ticker }
  | ticks {hostsProbed portsTouched scanId : ℕ} (ht : p.ticker = .asleep scanId) :
      Moves cfg i clock db p (.tick hostsProbed portsTouched) db { p with
        ticker := .publishing
          ⟨scanId, db.nextSequence scanId, none, .footprint hostsProbed portsTouched⟩ }
  | tocks {row : ScanEventRow} {db₁ : Db} (ht : p.ticker = .publishing row)
      (hi : db.insertEvent row = some db₁) :
      Moves cfg i clock db p .tock db₁ { p with ticker := .asleep row.scanId }
  | tockFails {row : ScanEventRow} (ht : p.ticker = .publishing row)
      (hi : db.insertEvent row = none) :
      Moves cfg i clock db p .tock db { p with ticker := .failed (.failure .integrity) }
  | records {entry : LedgerEntry} {module : ModuleMetadata} {context : ModuleContext}
      {scanId : ℕ} {point : Point} {k : Except Exn ModuleResult → Runner ScanStatus}
      (hs : p.stage = .executing scanId point (.op (.runModule module context) k)) :
      Moves cfg i clock db p (.record entry)
        ((db.insertLedger ⟨some context.scanId, none, entry⟩).getD db) p
  | crashes : Moves cfg i clock db p .crash db
      { p with lock := .idle, stage := .down, ticker := .off }

theorem procStep_moves {cfg : Config} {i : ℕ} {clock : ℚ} {db db' : Db} {p p' : Proc} {m : Move}
    (h : procStep cfg i clock db p m = some (db', p')) : Moves cfg i clock db p m db' p' := by
  cases m with
  | acquire moment =>
    simp only [procStep] at h
    split_ifs at h with hl hr <;> cases h
    · exact .refused moment
    · exact .reads hl.1 hl.2 (by simpa using hr)
  | write =>
    simp only [procStep] at h
    split at h
    · rename_i moment seen hl
      split at h <;> cases h
      · exact .fails hl
      · rename_i lock hw
        exact .acquires hl hw
    · cases h
  | release =>
    simp only [procStep] at h
    split_ifs at h with hl ho <;> cases h
    · exact .stops hl.1 ho
    · exact .stopped hl.1 (by simpa using ho)
  | delete =>
    simp only [procStep] at h
    split at h <;> cases h
    rename_i hl
    exact .deletes hl
  | beat moment =>
    simp only [procStep] at h
    split_ifs at h with hb
    cases h
    exact .beats hb.2
  | recover =>
    simp only [procStep] at h
    split at h <;> cases h
    rename_i hs
    exact .recovers hs
  | look =>
    simp only [procStep] at h
    split at h
    · rename_i hs
      split at h <;> cases h
      · rename_i hq
        exact .sleeps hs hq
      · rename_i scan hq
        exact .looks hs hq
    · cases h
  | claim =>
    simp only [procStep] at h
    split at h
    · rename_i candidate hs
      split_ifs at h with hc <;> cases h
      · exact .claims hs hc
      · exact .loses hs
    · cases h
  | serve e =>
    simp only [procStep] at h
    split at h <;> cases h
    · rename_i o k hs
      exact .sweeps hs rfl
    · rename_i scanId point o k hs
      exact .executes hs rfl
  | tick hostsProbed portsTouched =>
    simp only [procStep] at h
    split at h <;> cases h
    rename_i scanId ht
    exact .ticks ht
  | tock =>
    simp only [procStep] at h
    split at h
    · rename_i row ht
      split at h <;> cases h
      · rename_i db₁ hi
        exact .tocks ht hi
      · rename_i hi
        exact .tockFails ht hi
    · cases h
  | record entry =>
    simp only [procStep] at h
    split at h <;> cases h
    rename_i hs
    exact .records hs
  | crash =>
    cases h
    exact .crashes

/-! ### What the statements of a runner leave alone -/

theorem Db.insertLedger_lock (db : Db) (row : ScanLedgerRow) :
    ((db.insertLedger row).getD db).lock = db.lock := by
  cases h : db.insertLedger row with
  | none => rfl
  | some db' =>
    obtain ⟨-, rfl⟩ := Db.insertLedger_eq_some.mp h
    rfl

theorem World.serve_lock (e : Answers) (w : World) (o : RunnerOp) :
    (w.serve e o).2.db.lock = w.db.lock := by
  have hinsert : ∀ {db : Option Db}, (∀ db', db = some db' → db'.lock = w.db.lock) →
      (w.insert db).2.db.lock = w.db.lock := by
    rintro (_ | db') h
    · rfl
    · exact h db' rfl
  cases o with
  | insertFindings scanId findings =>
    refine hinsert fun db' h => ?_
    obtain ⟨-, rfl⟩ := Db.insertFindings_eq_some.mp h
    rfl
  | insertEvent row =>
    refine hinsert fun db' h => ?_
    obtain ⟨-, rfl⟩ := Db.insertEvent_eq_some.mp h
    rfl
  | guard ledger o =>
    cases o with
    | record entry =>
      refine hinsert fun db' h => ?_
      obtain ⟨-, rfl⟩ := Db.insertLedger_eq_some.mp h
      rfl
    | _ => rfl
  | stopTicker =>
    unfold World.serve
    split <;> rfl
  | _ => rfl

theorem World.lock_of_serve {e : Answers} {w w' : World} {o : RunnerOp} {r : Except Exn o.Answer}
    (h : w.serve e o = (r, w')) : w'.db.lock = w.db.lock := by
  have hlock := w.serve_lock e o
  rwa [h] at hlock

/-! ### Requests -/

/-- The writes of the API's requests. -/
inductive ApiStep
  | createScope (payload : ScopeCreate)
  | updateScope (seen : ScopeProfileRow) (payload : ScopeCreate)
  | deleteScope (scopeId : ℕ)
  /-- A decision of the guard in `create_scan`, before there is a scan. -/
  | decide (scopeId : ℕ) (entry : LedgerEntry)
  | createScan (request : ScanCreate)
  /-- The UPDATE of `cancel_scan`, which read the status as `seen`. -/
  | cancelScan (seen : ScanStatus) (scanId : ℕ)
  | deleteScan (scanId : ℕ)
  deriving DecidableEq, Repr

/-- The scans that a request deletes. -/
def ApiStep.deleted : ApiStep → List ℕ
  | .deleteScan scanId => [scanId]
  | .createScope _ | .updateScope _ _ | .deleteScope _ | .decide _ _ | .createScan _
  | .cancelScan _ _ => []

/-- The checks of `create_scan` on the request alone. -/
def ScanCreate.valid (registry : ModuleRegistry) (request : ScanCreate) : Bool :=
  (intensityProfiles.lookup request.intensityProfile).isSome &&
    request.modules.all (registry.has ·)

/-- A refused request, or one whose statement fails, leaves the tables alone. -/
def Db.serveApi (registry : ModuleRegistry) (clock : ℚ) (db : Db) : ApiStep → Db
  | .createScope payload => if payload.valid then (db.createScope payload).getD db else db
  | .updateScope seen payload =>
    if payload.valid then (db.updateScope seen payload).getD db else db
  | .deleteScope scopeId => (db.deleteScope scopeId).getD db
  | .createScan request =>
    if request.valid registry then (db.createScan request clock).getD db else db
  | .decide scopeId entry => (db.insertLedger ⟨none, some scopeId, entry⟩).getD db
  | .cancelScan seen scanId => if seen.isTerminal then db else db.requestCancel scanId
  | .deleteScan scanId => db.deleteScans [scanId]

/-- What a request comes to. -/
inductive Serves (registry : ModuleRegistry) (clock : ℚ) (db : Db) : ApiStep → Db → Prop
  | refused (a : ApiStep) (h : a.deleted = []) : Serves registry clock db a db
  | createsScope {payload : ScopeCreate} {db₁ : Db} (hv : payload.valid = true)
      (h : db.createScope payload = some db₁) : Serves registry clock db (.createScope payload) db₁
  | updatesScope {seen : ScopeProfileRow} {payload : ScopeCreate} {db₁ : Db}
      (hv : payload.valid = true) (h : db.updateScope seen payload = some db₁) :
      Serves registry clock db (.updateScope seen payload) db₁
  | deletesScope {scopeId : ℕ} {db₁ : Db} (h : db.deleteScope scopeId = some db₁) :
      Serves registry clock db (.deleteScope scopeId) db₁
  | createsScan {request : ScanCreate} {db₁ : Db} (hv : request.valid registry = true)
      (h : db.createScan request clock = some db₁) :
      Serves registry clock db (.createScan request) db₁
  | decides (scopeId : ℕ) (entry : LedgerEntry) :
      Serves registry clock db (.decide scopeId entry)
        { db with ledger := db.ledger ++ [⟨none, some scopeId, entry⟩] }
  | cancels {seen : ScanStatus} (hs : seen.isTerminal = false) (scanId : ℕ) :
      Serves registry clock db (.cancelScan seen scanId) (db.requestCancel scanId)
  | deletes (scanId : ℕ) : Serves registry clock db (.deleteScan scanId) (db.deleteScans [scanId])

theorem Db.serveApi_serves (registry : ModuleRegistry) (clock : ℚ) (db : Db) (a : ApiStep) :
    Serves registry clock db a (db.serveApi registry clock a) := by
  cases a with
  | createScope payload =>
    simp only [Db.serveApi]
    split_ifs with hv
    · cases h : db.createScope payload with
      | none => exact .refused _ rfl
      | some db₁ => exact .createsScope hv h
    · exact .refused _ rfl
  | updateScope seen payload =>
    simp only [Db.serveApi]
    split_ifs with hv
    · cases h : db.updateScope seen payload with
      | none => exact .refused _ rfl
      | some db₁ => exact .updatesScope hv h
    · exact .refused _ rfl
  | deleteScope scopeId =>
    simp only [Db.serveApi]
    cases h : db.deleteScope scopeId with
    | none => exact .refused _ rfl
    | some db₁ => exact .deletesScope h
  | createScan request =>
    simp only [Db.serveApi]
    split_ifs with hv
    · cases h : db.createScan request clock with
      | none => exact .refused _ rfl
      | some db₁ => exact .createsScan hv h
    · exact .refused _ rfl
  | decide scopeId entry =>
    simp only [Db.serveApi, Db.insertLedger_of_none, Option.getD_some]
    exact .decides scopeId entry
  | cancelScan seen scanId =>
    simp only [Db.serveApi]
    split_ifs with hs
    · exact .refused _ rfl
    · exact .cancels (by simpa using hs) scanId
  | deleteScan scanId => exact .deletes scanId

theorem Serves.lock {registry : ModuleRegistry} {clock : ℚ} {db db' : Db} {a : ApiStep}
    (h : Serves registry clock db a db') : db'.lock = db.lock := by
  cases h with
  | createsScope _ h =>
    obtain ⟨-, rfl⟩ := Db.createScope_eq_some.mp h
    rfl
  | updatesScope _ h =>
    obtain ⟨-, rfl⟩ := Db.updateScope_eq_some.mp h
    rfl
  | deletesScope h =>
    obtain ⟨-, rfl⟩ := Db.deleteScope_eq_some.mp h
    rfl
  | createsScan _ h =>
    obtain ⟨-, rfl⟩ := Db.createScan_eq_some.mp h
    rfl
  | refused | decides | cancels | deletes => rfl

/-! ### The system -/

structure Sys where
  db : Db
  clock : ℚ
  procs : ℕ → Proc

namespace Sys

/-- A database before any runner is started on it. -/
def init (db : Db) (clock : ℚ) : Sys := ⟨db, clock, fun _ => .new⟩

/-- After a step of runner `i`. -/
def put (s : Sys) (i : ℕ) (db : Db) (p : Proc) : Sys :=
  { s with db, procs := Function.update s.procs i p }

theorem put_db (s : Sys) (i : ℕ) (db : Db) (p : Proc) : (s.put i db p).db = db := rfl

@[simp] theorem put_self (s : Sys) (i : ℕ) (db : Db) (p : Proc) : (s.put i db p).procs i = p := by
  simp only [put, Function.update_self]

@[simp] theorem put_of_ne (s : Sys) {i j : ℕ} (h : j ≠ i) (db : Db) (p : Proc) :
    (s.put i db p).procs j = s.procs j := by
  simp only [put, Function.update_of_ne h]

/-- What holds of all runners before a step of `i` holds after it, if it holds
of `i`. -/
theorem forall_put {s : Sys} {i : ℕ} {db : Db} {p : Proc} {P : ℕ → Proc → Prop}
    (h : ∀ j, j ≠ i → P j (s.procs j)) (hi : P i p) : ∀ j, P j ((s.put i db p).procs j) := by
  intro j
  by_cases hj : j = i
  · subst hj
    rwa [put_self]
  · rw [put_of_ne s hj]
    exact h j hj

end Sys

inductive SysAct
  | tick (d : ℚ)
  | api (a : ApiStep)
  | run (i : ℕ) (m : Move)

def Sys.step (cfg : Config) (s : Sys) : SysAct → Option Sys
  | .tick d => if 0 ≤ d then some { s with clock := s.clock + d } else none
  | .api a => some { s with db := s.db.serveApi cfg.registry s.clock a }
  | .run i m => (procStep cfg i s.clock s.db (s.procs i) m).map fun r => s.put i r.1 r.2

/-- What the steps of the system come to. -/
inductive Sys.Steps (cfg : Config) (s : Sys) : SysAct → Sys → Prop
  | tick {d : ℚ} (hd : 0 ≤ d) : Steps cfg s (.tick d) { s with clock := s.clock + d }
  | api {a : ApiStep} {db : Db} (h : Serves cfg.registry s.clock s.db a db) :
      Steps cfg s (.api a) { s with db }
  | run {i : ℕ} {m : Move} {db : Db} {p : Proc} (h : Moves cfg i s.clock s.db (s.procs i) m db p) :
      Steps cfg s (.run i m) (s.put i db p)

theorem Sys.step_steps {cfg : Config} {s s' : Sys} {a : SysAct} (h : s.step cfg a = some s') :
    s.Steps cfg a s' := by
  cases a with
  | tick d =>
    simp only [Sys.step] at h
    split_ifs at h with hd
    cases h
    exact .tick hd
  | api a =>
    cases h
    exact .api (s.db.serveApi_serves cfg.registry s.clock a)
  | run i m =>
    obtain ⟨⟨db, p⟩, hstep, rfl⟩ := Option.map_eq_some_iff.mp h
    exact .run (procStep_moves hstep)

end ScanLedger
