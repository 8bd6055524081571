/-
# Origins

Where a row of the tables comes from: what each statement and each request
leaves of the scans and the module runs, and from it, what a step of the system
does. A scan's row is written when it is marked to be cancelled, queued again,
claimed or ended; a run's when recovery interrupts it, or by an executor of its
scan.

Key definitions: `ScanOrigin`, `RunOrigin`, `Turn`.
Key theorems: `Effect.mem_scans`, `Effect.mem_runs`, `Serves.mem_scans`,
`Tracks.turn`, `Tracks.scan_origin`, `Tracks.run_origin`.
-/
import ScanLedger.Tracking

namespace ScanLedger

open Prog Run Table

/-! ### What the statements leave -/

section

variable {db db' : Db} {o : RunnerOp} {r : Except Exn o.Answer}

/-- A statement that ends a scan, or none. -/
theorem Effect.mem_scans (h : Effect db o r db') {scan : ScanRow} (hs : scan ∈ db'.scans) :
    scan ∈ db.scans ∨ ∃ scan₀ ∈ db.scans, ∃ status now,
      o = .updateScan scan₀.id status now ∧
        scan = { scan₀ with status := status, finishedAt := some now } := by
  cases h with
  | updatesScan scanId status now =>
    obtain ⟨scan₀, hs₀, ⟨hid, rfl⟩ | ⟨-, rfl⟩⟩ := Table.mem_updateWhere.mp hs
    · have hid : scan₀.id = scanId := eq_of_beq hid
      exact Or.inr ⟨scan₀, hs₀, status, now, by rw [hid], rfl⟩
    · exact Or.inl hs₀
  | deletes ids => exact Or.inl (List.mem_of_mem_filter hs)
  | _ => exact Or.inl hs

/-- A statement that writes a module run, or skips the open ones, or none. -/
theorem Effect.mem_runs (h : Effect db o r db') {run : ModuleRunRow} (hr : run ∈ db'.moduleRuns) :
    run ∈ db.moduleRuns ∨ (∃ run₀ ∈ db.moduleRuns, ∃ u,
        o = .updateModuleRun run₀.scanId run₀.module u ∧ run = u.apply run₀) ∨
      ∃ run₀ ∈ db.moduleRuns, ∃ reason now, o = .skipRemaining run₀.scanId reason now ∧
        run = { run₀ with
          status := .skipped, safeErrorMessage := some reason, finishedAt := some now } := by
  cases h with
  | updatesRun scanId module u =>
    obtain ⟨run₀, hr₀, ⟨hp, rfl⟩ | ⟨-, rfl⟩⟩ := Table.mem_updateWhere.mp hr
    · obtain ⟨hid, hname⟩ := Bool.and_eq_true_iff.mp hp
      refine Or.inr (Or.inl ⟨run₀, hr₀, u, ?_, rfl⟩)
      rw [eq_of_beq hid, eq_of_beq hname]
    · exact Or.inl hr₀
  | skips scanId reason now =>
    obtain ⟨run₀, hr₀, ⟨hp, rfl⟩ | ⟨-, rfl⟩⟩ := Table.mem_updateWhere.mp hr
    · have hid : run₀.scanId = scanId := eq_of_beq (Bool.and_eq_true_iff.mp hp).1
      exact Or.inr (Or.inr ⟨run₀, hr₀, reason, now, by rw [hid], rfl⟩)
    · exact Or.inl hr₀
  | deletes ids => exact Or.inl (List.mem_of_mem_filter hr)
  | _ => exact Or.inl hr

/-- Findings are stored by the statement that stores them. -/
theorem Effect.findings_of_stores {scanId : ℕ} {findings : List Finding}
    (h : Effect db (.insertFindings scanId findings) (.ok ()) db') :
    db'.findings = db.findings ++ findings.map fun f => ⟨scanId, f⟩ := by
  cases h with
  | reads _ _ hreads => cases hreads
  | stores => rfl

theorem Effect.nextId (h : Effect db o r db') : db'.nextId = db.nextId := by
  cases h <;> rfl

/-- A request creates a scan, marks it to be cancelled, or leaves it as it is. -/
theorem Serves.mem_scans {registry : ModuleRegistry} {clock : ℚ} {a : ApiStep}
    (h : Serves registry clock db a db') {scan : ScanRow} (hs : scan ∈ db'.scans) :
    scan ∈ db.scans ∨
      (∃ scan₀ ∈ db.scans, ∃ seen, a = .cancelScan seen scan₀.id ∧ seen.isTerminal = false ∧
        scan = { scan₀ with cancelRequested := true }) ∨
      ∃ request, a = .createScan request ∧ scan.id = db.nextId ∧ scan.status = .queued ∧
        scan.cancelRequested = false ∧ scan.selectedModules = request.modules := by
  cases h with
  | refused | decides => exact Or.inl hs
  | createsScope _ h =>
    obtain ⟨-, rfl⟩ := Db.createScope_eq_some.mp h
    exact Or.inl hs
  | updatesScope _ h =>
    obtain ⟨-, rfl⟩ := Db.updateScope_eq_some.mp h
    exact Or.inl hs
  | deletesScope h =>
    obtain ⟨-, rfl⟩ := Db.deleteScope_eq_some.mp h
    exact Or.inl hs
  | createsScan _ h =>
    rename_i request db₁
    obtain ⟨-, rfl⟩ := Db.createScan_eq_some.mp h
    rcases List.mem_append.mp hs with hs | hs
    · exact Or.inl hs
    · rw [List.mem_singleton] at hs
      subst hs
      exact Or.inr (Or.inr ⟨request, rfl, rfl, rfl, rfl, rfl⟩)
  | cancels hseen scanId =>
    rename_i seen
    obtain ⟨scan₀, hs₀, ⟨hid, rfl⟩ | ⟨-, rfl⟩⟩ := Table.mem_updateWhere.mp hs
    · have hid : scan₀.id = scanId := eq_of_beq hid
      exact Or.inr (Or.inl ⟨scan₀, hs₀, seen, by rw [hid], hseen, rfl⟩)
    · exact Or.inl hs₀
  | deletes scanId => exact Or.inl (List.mem_of_mem_filter hs)

/-- A request stores the runs of a new scan, all queued, or it writes none. -/
theorem Serves.mem_runs {registry : ModuleRegistry} {clock : ℚ} {a : ApiStep}
    (h : Serves registry clock db a db') {run : ModuleRunRow} (hr : run ∈ db'.moduleRuns) :
    run ∈ db.moduleRuns ∨ run.scanId = db.nextId ∧ run.status = .queued := by
  cases h with
  | refused | decides | cancels => exact Or.inl hr
  | createsScope _ h =>
    obtain ⟨-, rfl⟩ := Db.createScope_eq_some.mp h
    exact Or.inl hr
  | updatesScope _ h =>
    obtain ⟨-, rfl⟩ := Db.updateScope_eq_some.mp h
    exact Or.inl hr
  | deletesScope h =>
    obtain ⟨-, rfl⟩ := Db.deleteScope_eq_some.mp h
    exact Or.inl hr
  | createsScan _ h =>
    obtain ⟨-, rfl⟩ := Db.createScan_eq_some.mp h
    rcases List.mem_append.mp hr with hr | hr
    · exact Or.inl hr
    · obtain ⟨name, -, rfl⟩ := List.mem_map.mp hr
      exact Or.inr ⟨rfl, rfl⟩
  | deletes scanId => exact Or.inl (List.mem_of_mem_filter hr)

theorem Serves.nextId_le {registry : ModuleRegistry} {clock : ℚ} {a : ApiStep}
    (h : Serves registry clock db a db') : db.nextId ≤ db'.nextId := by
  cases h with
  | refused | decides | cancels | deletes => exact le_rfl
  | createsScope _ h =>
    obtain ⟨-, rfl⟩ := Db.createScope_eq_some.mp h
    exact Nat.le_succ _
  | updatesScope _ h =>
    obtain ⟨-, rfl⟩ := Db.updateScope_eq_some.mp h
    exact le_rfl
  | deletesScope h =>
    obtain ⟨-, rfl⟩ := Db.deleteScope_eq_some.mp h
    exact le_rfl
  | createsScan _ h =>
    obtain ⟨-, rfl⟩ := Db.createScan_eq_some.mp h
    exact Nat.le_succ _

/-- Scans that a request has stored have smaller numbers than the next. -/
theorem Serves.fresh {registry : ModuleRegistry} {clock : ℚ} {a : ApiStep}
    (h : Serves registry clock db a db') (hf : ∀ scan ∈ db.scans, scan.id < db.nextId) :
    ∀ scan ∈ db'.scans, scan.id < db'.nextId := by
  intro scan hs
  have hle := h.nextId_le
  cases h with
  | createsScan _ hc =>
    obtain ⟨-, rfl⟩ := Db.createScan_eq_some.mp hc
    rcases List.mem_append.mp hs with hs | hs
    · exact lt_of_lt_of_le (hf scan hs) hle
    · rw [List.mem_singleton] at hs
      subst hs
      exact Nat.lt_succ_self _
  | cancels hseen scanId =>
    obtain ⟨scan₀, hs₀, ⟨-, rfl⟩ | ⟨-, rfl⟩⟩ := Table.mem_updateWhere.mp hs
    · exact hf scan₀ hs₀
    · exact hf scan hs₀
  | deletes scanId => exact hf scan (List.mem_of_mem_filter hs)
  | refused | decides => exact hf scan hs
  | createsScope _ hc =>
    obtain ⟨-, rfl⟩ := Db.createScope_eq_some.mp hc
    exact lt_of_lt_of_le (hf scan hs) hle
  | updatesScope _ hc =>
    obtain ⟨-, rfl⟩ := Db.updateScope_eq_some.mp hc
    exact hf scan hs
  | deletesScope hc =>
    obtain ⟨-, rfl⟩ := Db.deleteScope_eq_some.mp hc
    exact hf scan hs

theorem Db.mem_scans_claim {candidate ownerId : ℕ} {now : ℚ} {scan : ScanRow}
    (hs : scan ∈ (db.claim candidate ownerId now).1.scans) :
    scan ∈ db.scans ∧ (scan.id = candidate → scan.status ≠ .queued) ∨
      ∃ scan₀ ∈ db.scans, scan₀.id = candidate ∧ scan₀.status = .queued ∧ scan = { scan₀ with
        status := .running, claimedBy := some ownerId, startedAt := some now } := by
  obtain ⟨scan₀, hs₀, ⟨hp, rfl⟩ | ⟨hp, rfl⟩⟩ := Table.mem_updateWhere.mp hs
  · obtain ⟨hid, hqueued⟩ := Bool.and_eq_true_iff.mp hp
    exact Or.inr ⟨scan₀, hs₀, eq_of_beq hid, eq_of_beq hqueued, rfl⟩
  · refine Or.inl ⟨hs₀, fun hid hqueued => ?_⟩
    rw [hid, hqueued] at hp
    simp at hp

theorem Db.mem_scans_recover {now : ℚ} {scan : ScanRow}
    (hs : scan ∈ (db.recoverInterrupted now).scans) :
    scan ∈ db.scans ∧ scan.status ≠ .running ∨
      ∃ scan₀ ∈ db.scans, scan₀.status = .running ∧
        scan = { scan₀ with status := .queued, claimedBy := none } := by
  obtain ⟨scan₀, hs₀, ⟨hp, rfl⟩ | ⟨hp, rfl⟩⟩ := Table.mem_updateWhere.mp hs
  · exact Or.inr ⟨scan₀, hs₀, eq_of_beq hp, rfl⟩
  · refine Or.inl ⟨hs₀, fun hr => ?_⟩
    rw [hr] at hp
    cases hp

/-- Any table but the lock reads the same. -/
theorem Db.SameTables.read {α : Type} (h : db.SameTables db') {f : Db → α}
    (hf : ∀ lock, f { db' with lock } = f db') : f db' = f db := by
  have h : { db' with lock := db.lock } = db := h
  rw [← hf db.lock, h]

theorem Db.SameTables.scans (h : db.SameTables db') : db'.scans = db.scans :=
  h.read fun _ => rfl

theorem Db.SameTables.nextId (h : db.SameTables db') : db'.nextId = db.nextId :=
  h.read fun _ => rfl

end

/-! ### Steps -/

/-- Where a scan's row comes from in a step. -/
inductive ScanOrigin (s : Sys) (γ : ℕ → Standing) (a : SysAct) (scan : ScanRow) : Prop
  | kept (h : scan ∈ s.db.scans)
  | created (hid : scan.id = s.db.nextId) (hstatus : scan.status = .queued)
      (hflag : scan.cancelRequested = false)
  | flagged {seen : ScanStatus} {scan₀ : ScanRow} (ha : a = .api (.cancelScan seen scan₀.id))
      (hseen : seen.isTerminal = false) (h₀ : scan₀ ∈ s.db.scans)
      (h : scan = { scan₀ with cancelRequested := true })
  | requeued {i : ℕ} {scan₀ : ScanRow} (ha : a = .run i .recover)
      (hstart : (s.procs i).stage = .starting) (h₀ : scan₀ ∈ s.db.scans)
      (hrunning : scan₀.status = .running)
      (h : scan = { scan₀ with status := .queued, claimedBy := none })
  | claimed {i : ℕ} {scan₀ : ScanRow} {now : ℚ} (ha : a = .run i .claim)
      (h₀ : scan₀ ∈ s.db.scans) (hqueued : scan₀.status = .queued)
      (h : scan = { scan₀ with status := .running, claimedBy := some i, startedAt := some now })
  | ended {i : ℕ} {e : Answers} {scan₀ : ScanRow} {status : ScanStatus} {now : ℚ}
      {k : Except Exn Unit → Runner ScanStatus} (ha : a = .run i (.serve e))
      (hstage : (s.procs i).stage =
        .executing scan₀.id (γ i).point (.op (.updateScan scan₀.id status now) k))
      (h₀ : scan₀ ∈ s.db.scans) (hw : (γ i).allows scan₀.id (.updateScan scan₀.id status now))
      (h : scan = { scan₀ with status := status, finishedAt := some now })

/-- Where a module run's row comes from in a step. -/
inductive RunOrigin (s : Sys) (γ : ℕ → Standing) (a : SysAct) (run : ModuleRunRow) : Prop
  | kept (h : run ∈ s.db.moduleRuns)
  | created (hid : run.scanId = s.db.nextId) (hstatus : run.status = .queued)
  | interrupted {i : ℕ} {run₀ : ModuleRunRow} {now : ℚ} (ha : a = .run i .recover)
      (h₀ : run₀ ∈ s.db.moduleRuns) (hrunning : run₀.status = .running)
      (h : run = { run₀ with
        status := .interrupted
        safeErrorMessage := some "the worker stopped before this module finished"
        finishedAt := some now })
  | written {i : ℕ} {e : Answers} {run₀ : ModuleRunRow} {u : ModuleUpdate}
      {k : Except Exn Unit → Runner ScanStatus} (ha : a = .run i (.serve e))
      (hstage : (s.procs i).stage = .executing run₀.scanId (γ i).point
        (.op (.updateModuleRun run₀.scanId run₀.module u) k)) (h₀ : run₀ ∈ s.db.moduleRuns)
      (hw : (γ i).allows run₀.scanId (.updateModuleRun run₀.scanId run₀.module u))
      (h : run = u.apply run₀)
  | skipped {i : ℕ} {e : Answers} {run₀ : ModuleRunRow} {reason : String} {now : ℚ}
      {k : Except Exn Unit → Runner ScanStatus} (ha : a = .run i (.serve e))
      (hstage : (s.procs i).stage = .executing run₀.scanId (γ i).point
        (.op (.skipRemaining run₀.scanId reason now) k)) (h₀ : run₀ ∈ s.db.moduleRuns)
      (hw : (γ i).allows run₀.scanId (.skipRemaining run₀.scanId reason now))
      (h : run = { run₀ with
        status := .skipped, safeErrorMessage := some reason, finishedAt := some now })

/-- What a step is to runner `j`, which executes this scan after it: another's
step, its claim, or a statement of its own. -/
inductive Turn (cfg : Config) (s : Sys) (γ : ℕ → Standing) (a : SysAct) (s' : Sys)
    (γ' : ℕ → Standing) (j scanId : ℕ) : Prop
  | beside (ha : ∀ e, a ≠ .run j (.serve e)) (he : s.Executes j scanId) (hγ : γ' j = γ j)
  | claims (ha : a = .run j .claim) (hc : (s.db.claim scanId j s.clock).2 = true)
      (hdb : s'.db = (s.db.claim scanId j s.clock).1) (hγ : γ' j = .start)
  | own {e : Answers} {o : RunnerOp} {k : Except Exn o.Answer → Runner ScanStatus}
      (ha : a = .run j (.serve e))
      (hstage : (s.procs j).stage = .executing scanId (γ j).point (.op o k))
      (hallows : (γ j).allows scanId o) {r : Except Exn o.Answer} {w : World}
      (hw : World.serve { e with now := s.clock } ⟨s.db, (s.procs j).ticker⟩ o = (r, w))
      (hdb : s'.db = w.db) (hγ : γ' j = (γ j).next cfg.registry o r)

section

variable {cfg : Config} {s s' : Sys} {γ γ' : ℕ → Standing} {a : SysAct}

theorem Tracks.turn (ht : Tracks cfg s γ a s' γ') {j scanId : ℕ} (he : s'.Executes j scanId) :
    Turn cfg s γ a s' γ' j scanId := by
  have hother : ∀ {i : ℕ} {db : Db} {p : Proc}, j ≠ i → (s.put i db p).Executes j scanId →
      s.Executes j scanId := by
    rintro i db p hj ⟨point, rest, he⟩
    rw [Sys.put_of_ne s hj] at he
    exact ⟨point, rest, he⟩
  cases ht with
  | rests ha hclock hdb hexec => exact .beside (ha j) (hexec j scanId he) rfl
  | api => exact .beside nofun he rfl
  | recovers hstart hp =>
    exact .beside nofun
      (he.of_put fun id point rest hexec => absurd hexec (hp id point rest)) rfl
  | claims hc hp =>
    rename_i i candidate p
    by_cases hj : j = i
    · subst hj
      obtain ⟨point, rest, he⟩ := he
      rw [Sys.put_self] at he
      have hid := hp scanId point rest he
      subst hid
      exact .claims rfl hc rfl (Function.update_self ..)
    · exact .beside nofun (hother hj he) (Function.update_of_ne hj ..)
  | executes hstage ha hw hp =>
    rename_i i e id o k p r w
    by_cases hj : j = i
    · subst hj
      obtain ⟨point, rest, he⟩ := he
      rw [Sys.put_self] at he
      have hid := hp scanId point rest he
      subst hid
      exact .own rfl hstage ha hw rfl (Function.update_self ..)
    · refine .beside (fun e' ha => ?_) (hother hj he) (Function.update_of_ne hj ..)
      cases ha
      exact hj rfl
  | sweeps hstage ha hw hp =>
    rename_i i e o k p r w
    by_cases hj : j = i
    · subst hj
      obtain ⟨point, rest, he⟩ := he
      rw [Sys.put_self] at he
      exact absurd he (hp scanId point rest)
    · refine .beside (fun e' ha => ?_) (hother hj he) (Function.update_of_ne hj ..)
      cases ha
      exact hj rfl
  | beside hm heffect ho hp =>
    refine .beside (fun e ha => ?_)
      (he.of_put fun id point rest hexec => ⟨point, rest, hp ▸ hexec⟩) rfl
    cases ha
    exact hm e rfl

theorem Tracks.scan_origin (ht : Tracks cfg s γ a s' γ') {scan : ScanRow}
    (hs : scan ∈ s'.db.scans) : ScanOrigin s γ a scan := by
  cases ht with
  | rests ha hclock hdb =>
    rw [hdb.scans] at hs
    exact .kept hs
  | api hserves =>
    rcases hserves.mem_scans hs with hs | ⟨scan₀, h₀, seen, rfl, hseen, h⟩ |
      ⟨request, -, hid, hstatus, hflag, -⟩
    · exact .kept hs
    · exact .flagged rfl hseen h₀ h
    · exact .created hid hstatus hflag
  | recovers hstart hp =>
    rcases Db.mem_scans_recover hs with ⟨hs, -⟩ | ⟨scan₀, h₀, hrunning, h⟩
    · exact .kept hs
    · exact .requeued rfl hstart h₀ hrunning h
  | claims hc hp =>
    rcases Db.mem_scans_claim hs with ⟨hs, -⟩ | ⟨scan₀, h₀, -, hqueued, h⟩
    · exact .kept hs
    · exact .claimed rfl h₀ hqueued h
  | executes hstage ha hw hp =>
    rcases (effect_of_serve hw).mem_scans hs with hs | ⟨scan₀, h₀, status, now, rfl, h⟩
    · exact .kept hs
    · have hid := ha.1
      subst hid
      exact .ended rfl hstage h₀ ha h
  | sweeps hstage ha hw hp =>
    rcases (effect_of_serve hw).mem_scans hs with hs | ⟨scan₀, h₀, status, now, rfl, h⟩
    · exact .kept hs
    · exact ha.elim
  | beside hm he ho hp =>
    rcases he.mem_scans hs with hs | ⟨scan₀, h₀, status, now, rfl, h⟩
    · exact .kept hs
    · rcases ho with ⟨row, ho⟩ | ⟨ledger, entry, ho⟩ <;> cases ho

theorem Tracks.run_origin (ht : Tracks cfg s γ a s' γ') {run : ModuleRunRow}
    (hr : run ∈ s'.db.moduleRuns) : RunOrigin s γ a run := by
  cases ht with
  | rests ha hclock hdb =>
    rw [hdb.read (f := (·.moduleRuns)) fun _ => rfl] at hr
    exact .kept hr
  | api hserves =>
    rcases hserves.mem_runs hr with hr | ⟨hid, hstatus⟩
    · exact .kept hr
    · exact .created hid hstatus
  | recovers hstart hp =>
    obtain ⟨run₀, h₀, ⟨hrunning, rfl⟩ | ⟨-, rfl⟩⟩ := mem_updateWhere.mp hr
    · exact .interrupted rfl h₀ (eq_of_beq hrunning) rfl
    · exact .kept h₀
  | claims => exact .kept hr
  | executes hstage ha hw hp =>
    rcases (effect_of_serve hw).mem_runs hr with h₀ | ⟨run₀, h₀, u, rfl, h⟩ |
      ⟨run₀, h₀, reason, now, rfl, h⟩
    · exact .kept h₀
    · have hid := ha.1
      subst hid
      exact .written rfl hstage h₀ ha h
    · have hid := ha.1
      subst hid
      exact .skipped rfl hstage h₀ ha h
  | sweeps hstage ha hw hp =>
    rcases (effect_of_serve hw).mem_runs hr with h₀ | ⟨run₀, h₀, u, rfl, h⟩ |
      ⟨run₀, h₀, reason, now, rfl, h⟩
    · exact .kept h₀
    · exact ha.elim
    · exact ha.elim
  | beside hm he ho hp =>
    rcases he.mem_runs hr with h₀ | ⟨run₀, h₀, u, rfl, -⟩ | ⟨run₀, h₀, reason, now, rfl, -⟩
    · exact .kept h₀
    · rcases ho with ⟨row, ho⟩ | ⟨ledger, entry, ho⟩ <;> cases ho
    · rcases ho with ⟨row, ho⟩ | ⟨ledger, entry, ho⟩ <;> cases ho

end

end ScanLedger
