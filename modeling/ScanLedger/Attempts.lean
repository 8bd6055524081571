/-
# The attempts at a module run

What `execute_scan` and `recover_interrupted` do to one row of the module runs,
attempt by attempt. An attempt writes the row as running and, unless the worker
is still at it, one of the ways to end it; a module that does not apply is
settled in one write; a cancel skips a row that was queued. Each statement
writes the columns it has a value for and leaves the others, and a reason or a
code is never taken back. So a row shows its latest attempt only when the
attempts before it left nothing in a column that the latest leaves alone
(`shows_latest_iff`): an interrupted attempt leaves its message to the
successful one that follows.

Key definitions: `RowOp`, `ModuleAttempt`, `ModuleRunRow.shown`, `LeavesNothing`.
Key theorems: `Db.rowsOf_attempts`, `shown_attempts`, `shows_latest_iff`.
-/
import ScanLedger.Database

namespace ScanLedger

open Table

/-! ### The statements -/

/-- A statement that writes to a module run. -/
inductive RowOp
  | write (u : ModuleUpdate)
  | skip (reason : String) (now : ℚ)
  | interrupt (now : ℚ)
  deriving DecidableEq, Repr

/-- The statement, for the run of `module` in the scan. -/
def RowOp.statement (scanId : ℕ) (module : String) (db : Db) : RowOp → Db
  | .write u => db.updateModuleRun scanId module u
  | .skip reason now => db.skipRemaining scanId reason now
  | .interrupt now => db.recoverInterrupted now

/-- What the statement makes of a row it may select. -/
def RowOp.apply (r : ModuleRunRow) : RowOp → ModuleRunRow
  | .write u => u.apply r
  | .skip reason now =>
    if r.status == .queued || r.status == .running then
      { r with status := .skipped, safeErrorMessage := some reason, finishedAt := some now }
    else r
  | .interrupt now =>
    if r.status == .running then
      { r with
        status := .interrupted
        safeErrorMessage := some "the worker stopped before this module finished"
        finishedAt := some now }
    else r

/-- A module run as `create_scan` adds it. -/
def ModuleRunRow.queued (scanId : ℕ) (module : String) : ModuleRunRow :=
  ⟨scanId, module, .queued, 0, false, 0, none, none, none, none⟩

/-- The rows of one module run. -/
def Db.rowsOf (db : Db) (scanId : ℕ) (module : String) : List ModuleRunRow :=
  db.moduleRuns.filter fun r => r.scanId == scanId && r.module == module

/-! ### The attempts -/

/-- How an attempt that was set to running goes on. -/
inductive Ending
  | running
  | done (now : ℚ) (findingCount : ℕ) (cacheHit : Bool) (reason code : Option String)
  | failed (now : ℚ) (reason code : Option String)
  | interrupted (now : ℚ)
  | skipped (reason : String) (now : ℚ)
  deriving DecidableEq, Repr

inductive ModuleAttempt
  | notApplicable (now : ℚ) (reason code : Option String)
  | skipped (reason : String) (now : ℚ)
  | ran (started : ℚ) (ending : Ending)
  deriving DecidableEq, Repr

def Ending.ops : Ending → List RowOp
  | .running => []
  | .done now findingCount cacheHit reason code =>
    [.write ⟨.done, now, findingCount, cacheHit, reason, code⟩]
  | .failed now reason code => [.write ⟨.failed, now, 0, false, reason, code⟩]
  | .interrupted now => [.interrupt now]
  | .skipped reason now => [.skip reason now]

/-- The statements of an attempt, in their order. -/
def ModuleAttempt.ops : ModuleAttempt → List RowOp
  | .notApplicable now reason code => [.write ⟨.notApplicable, now, 0, false, reason, code⟩]
  | .skipped reason now => [.skip reason now]
  | .ran started ending => .write ⟨.running, started, 0, false, none, none⟩ :: ending.ops

/-- The database after attempts at the run of `module` in the scan. -/
def Db.attempts (db : Db) (scanId : ℕ) (module : String) (as : List ModuleAttempt) : Db :=
  (as.flatMap ModuleAttempt.ops).foldl (RowOp.statement scanId module) db

/-- A cancel finds no row to skip once the run has been attempted: the row is
neither queued nor running then. -/
def InOrder (as : List ModuleAttempt) : Prop :=
  ∀ a ∈ as.tail, ∀ reason now, a ≠ .skipped reason now

/-! ### What they write -/

/-- What a row shows of its run. -/
structure Shown where
  status : ModuleStatus
  code : Option String
  message : Option String
  counts : ℕ × Bool
  finished : Option ℚ
  deriving DecidableEq, Repr

def ModuleRunRow.shown (r : ModuleRunRow) : Shown :=
  ⟨r.status, r.safeErrorCode, r.safeErrorMessage, (r.findingCount, r.cacheHit), r.finishedAt⟩

namespace ModuleAttempt

def status : ModuleAttempt → ModuleStatus
  | .notApplicable _ _ _ => .notApplicable
  | .skipped _ _ | .ran _ (.skipped _ _) => .skipped
  | .ran _ .running => .running
  | .ran _ (.done _ _ _ _ _) => .done
  | .ran _ (.failed _ _ _) => .failed
  | .ran _ (.interrupted _) => .interrupted

/-- The message it writes, if it writes one. -/
def message : ModuleAttempt → Option String
  | .notApplicable _ reason _ | .ran _ (.done _ _ _ reason _) | .ran _ (.failed _ reason _) =>
    reason
  | .skipped reason _ | .ran _ (.skipped reason _) => some reason
  | .ran _ (.interrupted _) => some "the worker stopped before this module finished"
  | .ran _ .running => none

/-- The code it writes, if it writes one. -/
def code : ModuleAttempt → Option String
  | .notApplicable _ _ code | .ran _ (.done _ _ _ _ code) | .ran _ (.failed _ _ code) => code
  | _ => none

/-- The finding count and the cache hit it writes, if it writes them. -/
def counts : ModuleAttempt → Option (ℕ × Bool)
  | .notApplicable _ _ _ | .ran _ (.failed _ _ _) => some (0, false)
  | .ran _ (.done _ findingCount cacheHit _ _) => some (findingCount, cacheHit)
  | _ => none

/-- The time it writes as its end, if it has ended. -/
def finished : ModuleAttempt → Option ℚ
  | .notApplicable now _ _ | .skipped _ now | .ran _ (.done now _ _ _ _)
  | .ran _ (.failed now _ _) | .ran _ (.interrupted now) | .ran _ (.skipped _ now) => some now
  | .ran _ .running => none

/-- What a row shows after the attempt, from what it showed before. -/
def onto (p : Shown) (a : ModuleAttempt) : Shown where
  status := a.status
  code := a.code <|> p.code
  message := a.message <|> p.message
  counts := a.counts.getD p.counts
  finished := a.finished <|> p.finished

end ModuleAttempt

/-- What the last attempt leaves alone, no earlier one has written, or it wrote
what a queued row has. -/
structure LeavesNothing (earlier : List ModuleAttempt) (last : ModuleAttempt) : Prop where
  code : last.code = none → ∀ a ∈ earlier, a.code = none
  message : last.message = none → ∀ a ∈ earlier, a.message = none
  counts : last.counts = none →
    ∀ c ∈ (earlier.filterMap ModuleAttempt.counts).getLast?, c = (0, false)
  finished : last.finished = none → ∀ a ∈ earlier, a.finished = none

/-! ### The rows after a statement -/

section

variable {db : Db} {scanId : ℕ} {module : String}

@[simp] theorem RowOp.apply_scanId (o : RowOp) (r : ModuleRunRow) :
    (o.apply r).scanId = r.scanId := by
  cases o with
  | write u => exact u.apply_scanId r
  | skip reason now =>
    unfold RowOp.apply
    dsimp only
    split_ifs <;> rfl
  | interrupt now =>
    unfold RowOp.apply
    dsimp only
    split_ifs <;> rfl

@[simp] theorem RowOp.apply_module (o : RowOp) (r : ModuleRunRow) :
    (o.apply r).module = r.module := by
  cases o with
  | write u => exact u.apply_module r
  | skip reason now =>
    unfold RowOp.apply
    dsimp only
    split_ifs <;> rfl
  | interrupt now =>
    unfold RowOp.apply
    dsimp only
    split_ifs <;> rfl

/-- A statement that does to the rows of a run what `f` does, and does not move
a row from one run to another. -/
theorem Db.rowsOf_map {db' : Db} {f g : ModuleRunRow → ModuleRunRow}
    (hruns : db'.moduleRuns = db.moduleRuns.map g)
    (hkey : ∀ r, (g r).scanId = r.scanId ∧ (g r).module = r.module)
    (hrow : ∀ r : ModuleRunRow, r.scanId = scanId → r.module = module → g r = f r) :
    db'.rowsOf scanId module = (db.rowsOf scanId module).map f := by
  unfold rowsOf
  rw [hruns, List.filter_map]
  have hsame : ((fun r : ModuleRunRow => r.scanId == scanId && r.module == module) ∘ g) =
      fun r => r.scanId == scanId && r.module == module := by
    funext r
    rw [Function.comp_apply, (hkey r).1, (hkey r).2]
  rw [hsame]
  refine List.map_congr_left fun r hr => ?_
  obtain ⟨-, hsel⟩ := List.mem_filter.mp hr
  rw [Bool.and_eq_true, beq_iff_eq, beq_iff_eq] at hsel
  exact hrow r hsel.1 hsel.2

/-- **One statement.** -/
theorem Db.rowsOf_statement (o : RowOp) : (o.statement scanId module db).rowsOf scanId module =
    (db.rowsOf scanId module).map o.apply := by
  cases o with
  | write u =>
    refine Db.rowsOf_map rfl (fun r => ?_) fun r hid hmod => ?_
    · dsimp only
      split_ifs <;> simp
    · simp [RowOp.apply, hid, hmod]
  | skip reason now =>
    refine Db.rowsOf_map rfl (fun r => ?_) fun r hid hmod => ?_
    · dsimp only
      split_ifs <;> exact ⟨rfl, rfl⟩
    · simp [RowOp.apply, hid]
  | interrupt now =>
    refine Db.rowsOf_map rfl (fun r => ?_) fun r hid hmod => rfl
    dsimp only
    split_ifs <;> exact ⟨rfl, rfl⟩

theorem Db.rowsOf_statements (os : List RowOp) :
    (os.foldl (RowOp.statement scanId module) db).rowsOf scanId module =
      (db.rowsOf scanId module).map fun r => os.foldl RowOp.apply r := by
  induction os generalizing db with
  | nil => simp
  | cons o os ih => simp [ih, Db.rowsOf_statement, Function.comp_def]

/-- The rows of a run after attempts at it. -/
theorem Db.rowsOf_attempts (as : List ModuleAttempt) :
    (db.attempts scanId module as).rowsOf scanId module =
      (db.rowsOf scanId module).map fun r => (as.flatMap ModuleAttempt.ops).foldl RowOp.apply r :=
  Db.rowsOf_statements _

end

/-! ### The row after an attempt -/

/-- An attempt's statements select the row they are meant for. -/
def ModuleAttempt.fits (r : ModuleRunRow) : ModuleAttempt → Prop
  | .skipped _ _ => r.status = .queued
  | _ => True

/-- **One attempt.** -/
theorem shown_attempt {r : ModuleRunRow} {a : ModuleAttempt} (h : a.fits r) :
    (a.ops.foldl RowOp.apply r).shown = a.onto r.shown := by
  cases a with
  | notApplicable now reason code => rfl
  | skipped reason now =>
    have hstatus : r.status = .queued := h
    simp [ModuleAttempt.ops, RowOp.apply, hstatus, ModuleRunRow.shown, ModuleAttempt.onto,
      ModuleAttempt.status, ModuleAttempt.code, ModuleAttempt.message, ModuleAttempt.counts,
      ModuleAttempt.finished]
  | ran started ending => cases ending <;> rfl

variable {as earlier : List ModuleAttempt} {last : ModuleAttempt} {scanId : ℕ} {module : String}

/-- **A sequence of attempts**, from a queued row. -/
theorem shown_attempts (hord : InOrder as) :
    ((as.flatMap ModuleAttempt.ops).foldl RowOp.apply (.queued scanId module)).shown =
      as.foldl ModuleAttempt.onto (ModuleRunRow.queued scanId module).shown := by
  have hrest : ∀ (as : List ModuleAttempt) (r : ModuleRunRow),
      (∀ a ∈ as, ∀ reason now, a ≠ .skipped reason now) →
        ((as.flatMap ModuleAttempt.ops).foldl RowOp.apply r).shown =
          as.foldl ModuleAttempt.onto r.shown := by
    intro as
    induction as with
    | nil => exact fun r _ => rfl
    | cons a as ih =>
      intro r hno
      have hfits : a.fits r := by
        cases a with
        | skipped reason now => exact absurd rfl (hno _ List.mem_cons_self reason now)
        | notApplicable | ran => trivial
      rw [List.flatMap_cons, List.foldl_append, List.foldl_cons, ← shown_attempt hfits]
      exact ih _ fun b hb => hno b (List.mem_cons_of_mem a hb)
  cases as with
  | nil => rfl
  | cons a as =>
    have hfits : a.fits (.queued scanId module) := by
      cases a with
      | skipped reason now => rfl
      | notApplicable | ran => trivial
    rw [List.flatMap_cons, List.foldl_append, List.foldl_cons, ← shown_attempt hfits]
    exact hrest as _ hord

/-! ### What earlier attempts leave -/

/-- A column that attempts write or leave is unwritten after those that leave it. -/
theorem foldl_orElse_eq_none {α β : Type} (f : α → Option β) (p : Option β) (as : List α) :
    as.foldl (fun p a => f a <|> p) p = none ↔ p = none ∧ ∀ a ∈ as, f a = none := by
  induction as generalizing p with
  | nil => simp
  | cons a as ih =>
    rw [List.foldl_cons, ih]
    cases h : f a <;> simp [h]

theorem foldl_getD {α β : Type} (f : α → Option β) (p : β) (as : List α) :
    as.foldl (fun p a => (f a).getD p) p = (as.filterMap f).getLast?.getD p := by
  induction as generalizing p with
  | nil => rfl
  | cons a as ih =>
    rw [List.foldl_cons, ih]
    cases hf : f a with
    | none => rw [List.filterMap_cons_none hf, Option.getD_none]
    | some b =>
      rw [List.filterMap_cons_some hf, List.getLast?_cons, Option.getD_some, Option.getD_some]

/-- The columns after a sequence of attempts, one by one. -/
theorem onto_columns (p : Shown) (as : List ModuleAttempt) :
    (as.foldl ModuleAttempt.onto p).code = as.foldl (fun c a => a.code <|> c) p.code ∧
      (as.foldl ModuleAttempt.onto p).message = as.foldl (fun c a => a.message <|> c) p.message ∧
      (as.foldl ModuleAttempt.onto p).counts = as.foldl (fun c a => a.counts.getD c) p.counts ∧
      (as.foldl ModuleAttempt.onto p).finished =
        as.foldl (fun c a => a.finished <|> c) p.finished := by
  induction as generalizing p with
  | nil => exact ⟨rfl, rfl, rfl, rfl⟩
  | cons a as ih => exact ih (a.onto p)

theorem orElse_eq_orElse_none {β : Type} {o p : Option β} :
    (o <|> p) = (o <|> none) ↔ (o = none → p = none) := by
  cases o <;> simp

/-- What the last attempt shows over any row is what it shows over a queued
one, when the row is as queued in the columns it leaves alone. -/
theorem onto_eq_iff (a : ModuleAttempt) (p q : Shown) (hcode : q.code = none)
    (hmessage : q.message = none) (hfinished : q.finished = none) :
    a.onto p = a.onto q ↔ (a.code = none → p.code = none) ∧ (a.message = none → p.message = none) ∧
      (a.counts = none → p.counts = q.counts) ∧ (a.finished = none → p.finished = none) := by
  have hcounts : a.counts.getD p.counts = a.counts.getD q.counts ↔
      (a.counts = none → p.counts = q.counts) := by
    cases a.counts <;> simp
  unfold ModuleAttempt.onto
  rw [Shown.mk.injEq, hcode, hmessage, hfinished, orElse_eq_orElse_none, orElse_eq_orElse_none,
    orElse_eq_orElse_none, hcounts]
  exact and_iff_right rfl

variable {db : Db}

/-- **The latest attempt.** After attempts at a queued run, the run shows what
its last attempt alone would have left of a queued row, exactly when the earlier
ones left nothing in the columns that the last one does not write. -/
theorem shows_latest_iff (hqueued : db.rowsOf scanId module = [.queued scanId module])
    (hord : InOrder (earlier ++ [last])) :
    ((db.attempts scanId module (earlier ++ [last])).rowsOf scanId module).map
        ModuleRunRow.shown =
      ((db.attempts scanId module [last]).rowsOf scanId module).map ModuleRunRow.shown ↔
      LeavesNothing earlier last := by
  have hlast : InOrder [last] := fun a ha => absurd ha List.not_mem_nil
  rw [Db.rowsOf_attempts, Db.rowsOf_attempts, hqueued]
  simp only [List.map_cons, List.map_nil, List.cons.injEq, and_true]
  rw [shown_attempts hord, shown_attempts hlast, List.foldl_append]
  simp only [List.foldl_cons, List.foldl_nil]
  rw [onto_eq_iff last _ _ rfl rfl rfl]
  obtain ⟨hcode, hmessage, hcounts, hfinished⟩ :=
    onto_columns (ModuleRunRow.queued scanId module).shown earlier
  rw [hcode, hmessage, hcounts, hfinished, foldl_orElse_eq_none, foldl_orElse_eq_none,
    foldl_orElse_eq_none, foldl_getD]
  have hcount : (earlier.filterMap ModuleAttempt.counts).getLast?.getD
        (ModuleRunRow.queued scanId module).shown.counts =
        (ModuleRunRow.queued scanId module).shown.counts ↔
      ∀ c ∈ (earlier.filterMap ModuleAttempt.counts).getLast?, c = (0, false) := by
    cases (earlier.filterMap ModuleAttempt.counts).getLast? with
    | none => simp
    | some c => simp [ModuleRunRow.shown, ModuleRunRow.queued]
  rw [hcount]
  constructor
  · rintro ⟨h1, h2, h3, h4⟩
    exact ⟨fun h => (h1 h).2, fun h => (h2 h).2, h3, fun h => (h4 h).2⟩
  · intro h
    exact ⟨fun hc => ⟨rfl, h.code hc⟩, fun hm => ⟨rfl, h.message hm⟩, h.counts,
      fun hf => ⟨rfl, h.finished hf⟩⟩

/-- A database with one queued run. -/
def oneQueued : Db :=
  { Db.empty with moduleRuns := [.queued 0 "service_detect"], nextId := 1 }

theorem shows_latest_failedTwice :
    ((oneQueued.attempts 0 "service_detect"
        ([.ran 1 (.interrupted 2)] ++ [.ran 3 (.failed 4 (some "e") (some "c"))])).rowsOf 0
          "service_detect").map ModuleRunRow.shown =
      ((oneQueued.attempts 0 "service_detect" [.ran 3 (.failed 4 (some "e") (some "c"))]).rowsOf 0
          "service_detect").map ModuleRunRow.shown ↔
      LeavesNothing [.ran 1 (.interrupted 2)] (.ran 3 (.failed 4 (some "e") (some "c"))) :=
  shows_latest_iff (by decide +kernel) (by simp [InOrder])

/-- A module that succeeds after a crash keeps the message of the crash. -/
theorem not_shows_latest : ¬ ∀ (db : Db) (scanId : ℕ) (module : String)
    (earlier : List ModuleAttempt) (last : ModuleAttempt),
      db.rowsOf scanId module = [.queued scanId module] → InOrder (earlier ++ [last]) →
      ((db.attempts scanId module (earlier ++ [last])).rowsOf scanId module).map
          ModuleRunRow.shown =
        ((db.attempts scanId module [last]).rowsOf scanId module).map ModuleRunRow.shown := by
  intro h
  have hshows := h oneQueued 0 "service_detect" [.ran 1 (.interrupted 2)]
    (.ran 3 (.done 4 0 false none none)) (by decide +kernel) (by simp [InOrder])
  revert hshows
  decide +kernel

end ScanLedger
