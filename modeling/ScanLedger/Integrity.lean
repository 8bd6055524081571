/-
# Integrity

What the keys of the tables say, in every state that the system reaches from an
empty database: a scan's id is its own and is never given out again, every run,
finding and ledger row that names a scan has it, a scan's runs are those of its
selected modules, and what `create_scan` checked of it stays true. A scan goes
with all that it owns; otherwise rows are only added, and of a scan's row and a
run's what names them stays as it was.

Key definitions: `Db.Extends`, `Db.ScanKeys`, `Db.Integral`.
Key theorems: `extends_step`, `Db.ScanKeys.extends`, `Db.Integral.extends`, `exec_integral`.
-/
import ScanLedger.Executors

namespace ScanLedger

open Prog Run Table
open Governor (limitsOf intensityProfiles intensityProfiles_valid)

/-! ### What goes and what comes -/

/-- The statement that a runner carries out next. -/
def Stage.head : Stage → Option RunnerOp
  | .sweeping rest => rest.head
  | .executing _ _ rest => rest.head
  | .down | .starting | .looping | .claiming _ | .dead _ => none

/-- The scans that a step deletes. -/
def Sys.deleted (s : Sys) : SysAct → List ℕ
  | .api a => a.deleted
  | .run i (.serve _) => match (s.procs i).stage.head with
    | some o => o.deleted
    | none => []
  | _ => []

/-- A row that belongs to this scan, or to none, is not among what goes with
the deleted ones. -/
def Survives (deleted : List ℕ) (scanId : Option ℕ) : Bool := decide (∀ id ∈ scanId, id ∉ deleted)

/-- A scan's row as `create_scan` stored it. -/
def ScanRow.created (scan : ScanRow) : ScanRow :=
  { scan with
    status := .queued, cancelRequested := false, claimedBy := none, startedAt := none
    finishedAt := none }

/-- What a module run is the run of. -/
def ModuleRunRow.key (run : ModuleRunRow) : ℕ × String := (run.scanId, run.module)

/-- These scans go with all that they own; what is added belongs to a scan that
is there. -/
structure Db.Extends (registry : ModuleRegistry) (deleted : List ℕ) (db db' : Db) : Prop where
  nextId : db.nextId ≤ db'.nextId
  ids : db'.ids.Sublist db.ids ∨ db'.ids = db.ids ++ [db.nextId] ∧ db'.nextId = db.nextId + 1
  scans : Grows (fun r => Survives deleted (some r.id))
    (fun r => r.id = db.nextId ∧ r.sound registry = true)
    (db.scans.map (·.created)) (db'.scans.map (·.created))
  runs : Grows (fun k => Survives deleted (some k.1))
    (fun k => ∃ scan ∈ db'.scans, scan.id = k.1 ∧ k.2 ∈ scan.selectedModules)
    (db.moduleRuns.map (·.key)) (db'.moduleRuns.map (·.key))
  ledger : Grows (fun r => Survives deleted r.scanId)
    (fun r => ∀ id ∈ r.scanId, db'.hasScan id = true) db.ledger db'.ledger
  findings : Grows (fun r => Survives deleted (some r.scanId))
    (fun r => db'.hasScan r.scanId = true) db.findings db'.findings

theorem Sys.deleted_serve {s : Sys} {i : ℕ} {o : RunnerOp} {e : Answers}
    (h : (s.procs i).stage.head = some o) : s.deleted (.run i (.serve e)) = o.deleted := by
  show (match (s.procs i).stage.head with
    | some o => o.deleted
    | none => []) = o.deleted
  rw [h]

theorem survives_nil (scanId : Option ℕ) : Survives [] scanId = true :=
  decide_eq_true fun _ _ => List.not_mem_nil

theorem survives_none (deleted : List ℕ) : Survives deleted none = true :=
  decide_eq_true fun _ h => by cases h

theorem survives_some {deleted : List ℕ} {scanId : ℕ} :
    Survives deleted (some scanId) = true ↔ scanId ∉ deleted := by
  unfold Survives
  rw [decide_eq_true_iff]
  refine ⟨fun h => h scanId rfl, fun h id hid => ?_⟩
  rwa [← Option.some.inj hid]

theorem survives_append (deleted deleted' : List ℕ) (scanId : Option ℕ) :
    Survives (deleted ++ deleted') scanId =
      (Survives deleted scanId && Survives deleted' scanId) := by
  cases scanId with
  | none => rw [survives_none, survives_none, survives_none, Bool.and_self]
  | some id =>
    rw [Bool.eq_iff_iff, Bool.and_eq_true_iff, survives_some, survives_some, survives_some,
      List.mem_append, not_or]

section

variable {registry : ModuleRegistry} {db db' : Db} {deleted : List ℕ}

/-- Only columns that name nothing are written. -/
theorem Db.Extends.same (hnext : db'.nextId = db.nextId)
    (hscans : db'.scans.map (·.created) = db.scans.map (·.created))
    (hruns : db'.moduleRuns.map (·.key) = db.moduleRuns.map (·.key))
    (hledger : db'.ledger = db.ledger) (hfindings : db'.findings = db.findings) :
    db.Extends registry [] db' where
  nextId := hnext.ge
  ids := by
    have hids : ∀ db : Db, db.ids = (db.scans.map (·.created)).map (·.id) := fun db => by
      rw [List.map_map]
      rfl
    rw [hids, hids, hscans]
    exact Or.inl (List.Sublist.refl _)
  scans := by
    rw [hscans]
    exact grows_refl fun r _ => survives_nil (some r.id)
  runs := by
    rw [hruns]
    exact grows_refl fun k _ => survives_nil (some k.1)
  ledger := by
    rw [hledger]
    exact grows_refl fun r _ => survives_nil r.scanId
  findings := by
    rw [hfindings]
    exact grows_refl fun r _ => survives_nil (some r.scanId)

theorem Db.extends_refl (db : Db) : db.Extends registry [] db := .same rfl rfl rfl rfl rfl

theorem Db.extends_deleteScans (db : Db) (ids : List ℕ) :
    db.Extends registry ids (db.deleteScans ids) := by
  have hsurvives : ∀ id : ℕ, Survives ids (some id) = decide (id ∉ ids) := fun id => by
    rw [Bool.eq_iff_iff, survives_some, decide_eq_true_iff]
  refine ⟨le_rfl, Or.inl (List.filter_sublist.map _), ?_, ?_, grows_filter _ _ _, ?_⟩
  · have hscans : (db.deleteScans ids).scans.map (·.created) =
        (db.scans.map (·.created)).filter fun r => Survives ids (some r.id) := by
      rw [List.filter_map]
      congr 1
      exact List.filter_congr fun r _ => (hsurvives r.id).symm
    rw [hscans]
    exact grows_filter _ _ _
  · have hruns : (db.deleteScans ids).moduleRuns.map (·.key) =
        (db.moduleRuns.map (·.key)).filter fun k => Survives ids (some k.1) := by
      rw [List.filter_map]
      congr 1
      exact List.filter_congr fun r _ => (hsurvives r.scanId).symm
    rw [hruns]
    exact grows_filter _ _ _
  · have hfindings : (db.deleteScans ids).findings =
        db.findings.filter fun r => Survives ids (some r.scanId) :=
      List.filter_congr fun r _ => (hsurvives r.scanId).symm
    rw [hfindings]
    exact grows_filter _ _ _

/-- Ledger rows come with their scan. -/
theorem Db.extends_ledger {new : List ScanLedgerRow}
    (h : ∀ r ∈ new, ∀ id ∈ r.scanId, db.hasScan id = true) :
    db.Extends registry [] { db with ledger := db.ledger ++ new } :=
  { db.extends_refl with ledger := grows_append (fun r _ => survives_nil r.scanId) h }

theorem Db.extends_findings {new : List FindingRow}
    (h : ∀ r ∈ new, db.hasScan r.scanId = true) :
    db.Extends registry [] { db with findings := db.findings ++ new } :=
  { db.extends_refl with findings := grows_append (fun r _ => survives_nil (some r.scanId)) h }

theorem Effect.extends {o : RunnerOp} {r : Except Exn o.Answer} (h : Effect db o r db') :
    db.Extends registry o.deleted db' := by
  cases h with
  | reads _ _ hreads =>
    rw [RunnerOp.deleted_of_reads hreads]
    exact db.extends_refl
  | updatesScan => exact .same rfl (map_updateWhere (fun _ _ => by rfl) _) rfl rfl rfl
  | updatesRun scanId module u =>
    refine .same rfl rfl (map_updateWhere (fun run _ => ?_) _) rfl rfl
    unfold ModuleRunRow.key
    rw [u.apply_scanId, u.apply_module]
  | skips => exact .same rfl rfl (map_updateWhere (fun _ _ => by rfl) _) rfl rfl
  | publishes => exact .same rfl rfl rfl rfl rfl
  | deletes ids => exact db.extends_deleteScans ids
  | stores scanId findings hscan =>
    refine Db.extends_findings fun r hr => ?_
    obtain ⟨f, -, rfl⟩ := List.mem_map.mp hr
    exact hscan
  | records ledger entry hscan =>
    refine Db.extends_ledger fun r hr => ?_
    rw [List.mem_singleton.mp hr]
    exact hscan

/-- What `create_scan` checks of a request makes a sound scan. -/
theorem ScanCreate.valid_sound {request : ScanCreate} (h : request.valid registry = true)
    {scan : ScanRow} (hi : scan.intensityProfile = request.intensityProfile)
    (hm : scan.selectedModules = request.modules) : scan.sound registry = true := by
  obtain ⟨hprofile, hall⟩ := Bool.and_eq_true_iff.mp h
  obtain ⟨limits, hlookup⟩ := Option.isSome_iff_exists.mp hprofile
  obtain ⟨before, after, hprofiles, -⟩ := List.lookup_eq_some_iff.mp hlookup
  have hvalid := intensityProfiles_valid (request.intensityProfile, limits) (by
    rw [hprofiles]
    exact List.mem_append_right _ List.mem_cons_self)
  have hok : ∃ L, limitsOf scan.intensityProfile intensityProfiles = .ok L := by
    unfold limitsOf
    rw [hi, hlookup]
    dsimp only
    split
    · rename_i e he
      rw [hvalid] at he
      cases he
    · exact ⟨_, rfl⟩
  obtain ⟨L, hL⟩ := hok
  unfold ScanRow.sound
  rw [hL, hm, hall]
  rfl

theorem Serves.extends {clock : ℚ} {a : ApiStep} (h : Serves registry clock db a db') :
    db.Extends registry a.deleted db' := by
  cases h with
  | refused _ hnone =>
    rw [hnone]
    exact db.extends_refl
  | createsScope _ h =>
    obtain ⟨-, rfl⟩ := Db.createScope_eq_some.mp h
    have hsame : db.Extends registry [] db := db.extends_refl
    exact ⟨Nat.le_succ _, Or.inl (List.Sublist.refl _), hsame.scans, hsame.runs, hsame.ledger,
      hsame.findings⟩
  | updatesScope _ h =>
    obtain ⟨-, rfl⟩ := Db.updateScope_eq_some.mp h
    exact .same rfl rfl rfl rfl rfl
  | deletesScope h =>
    obtain ⟨-, rfl⟩ := Db.deleteScope_eq_some.mp h
    exact .same rfl rfl rfl rfl rfl
  | createsScan hv h =>
    obtain ⟨-, rfl⟩ := Db.createScan_eq_some.mp h
    refine ⟨Nat.le_succ _, Or.inr ⟨?_, rfl⟩, ?_, ?_, grows_refl fun r _ => survives_nil r.scanId,
      grows_refl fun r _ => survives_nil (some r.scanId)⟩
    · unfold Db.ids
      rw [List.map_append]
      rfl
    · rw [List.map_append]
      refine grows_append (fun r _ => survives_nil (some r.id)) fun r hr => ?_
      rw [List.map_singleton, List.mem_singleton] at hr
      rw [hr]
      exact ⟨rfl, ScanCreate.valid_sound hv rfl rfl⟩
    · rw [List.map_append]
      refine grows_append (fun k _ => survives_nil (some k.1)) fun k hk => ?_
      obtain ⟨run, hrun, rfl⟩ := List.mem_map.mp hk
      obtain ⟨name, hname, rfl⟩ := List.mem_map.mp hrun
      exact ⟨_, List.mem_append_right _ (List.mem_singleton_self _), rfl, hname⟩
  | decides scopeId entry =>
    refine Db.extends_ledger fun r hr id hid => ?_
    rw [List.mem_singleton.mp hr] at hid
    cases hid
  | cancels => exact .same rfl (map_updateWhere (fun _ _ => by rfl) _) rfl rfl rfl
  | deletes scanId => exact db.extends_deleteScans [scanId]

theorem Db.extends_insertLedger (db : Db) (row : ScanLedgerRow) :
    db.Extends registry [] ((db.insertLedger row).getD db) := by
  cases h : db.insertLedger row with
  | none => exact db.extends_refl
  | some db' =>
    obtain ⟨hscan, rfl⟩ := Db.insertLedger_eq_some.mp h
    refine Db.extends_ledger fun r hr => ?_
    rw [List.mem_singleton.mp hr]
    exact hscan

end

/-- **One step.** What it deletes goes with all that belongs to it, and nothing
else goes. -/
theorem extends_step {cfg : Config} {s s' : Sys} {a : SysAct} (h : s.step cfg a = some s') :
    s.db.Extends cfg.registry (s.deleted a) s'.db := by
  cases Sys.step_steps h with
  | tick => exact s.db.extends_refl
  | api hserves => exact hserves.extends
  | run hmoves =>
    rw [Sys.put_db]
    cases hmoves with
    | sweeps hs hw | executes hs hw =>
      rw [Sys.deleted_serve (congrArg Stage.head hs)]
      exact (effect_of_serve hw).extends
    | tocks ht hi =>
      obtain ⟨-, rfl⟩ := Db.insertEvent_eq_some.mp hi
      exact .same rfl rfl rfl rfl rfl
    | records hs => exact s.db.extends_insertLedger _
    | recovers =>
      exact .same rfl (map_updateWhere (fun _ _ => by rfl) _)
        (map_updateWhere (fun _ _ => by rfl) _)
        rfl rfl
    | claims => exact .same rfl (map_updateWhere (fun _ _ => by rfl) _) rfl rfl rfl
    | _ => exact .same rfl rfl rfl rfl rfl

/-! ### The invariant -/

structure Db.Integral (registry : ModuleRegistry) (db : Db) : Prop where
  fresh : db.Fresh
  keys : db.ids.Nodup
  sound : ∀ scan ∈ db.scans, scan.sound registry = true
  runs : ∀ run ∈ db.moduleRuns, ∃ scan ∈ db.scans,
    scan.id = run.scanId ∧ run.module ∈ scan.selectedModules
  ledger : ∀ row ∈ db.ledger, ∀ id ∈ row.scanId, db.hasScan id = true
  findings : ∀ row ∈ db.findings, db.hasScan row.scanId = true

theorem integral_empty (registry : ModuleRegistry) : Db.empty.Integral registry where
  fresh _ h := absurd h List.not_mem_nil
  keys := List.nodup_nil
  sound _ h := absurd h List.not_mem_nil
  runs _ h := absurd h List.not_mem_nil
  ledger _ h := absurd h List.not_mem_nil
  findings _ h := absurd h List.not_mem_nil

section

variable {registry : ModuleRegistry} {db db' : Db} {deleted : List ℕ}

/-- A scan that is not deleted has its row, but for what is written there. -/
theorem Db.Extends.mem_scans (h : db.Extends registry deleted db') {scan : ScanRow}
    (hs : scan ∈ db.scans) (hid : scan.id ∉ deleted) :
    ∃ scan' ∈ db'.scans, scan'.created = scan.created := by
  have hmem := h.scans.mem (List.mem_map_of_mem hs) (survives_some.mpr hid)
  exact List.mem_map.mp hmem

/-- A scan has had its row before, or it is new. -/
theorem Db.Extends.of_mem_scans (h : db.Extends registry deleted db') {scan : ScanRow}
    (hs : scan ∈ db'.scans) :
    (∃ scan₀ ∈ db.scans, scan₀.created = scan.created ∧ scan.id ∉ deleted) ∨
      scan.id = db.nextId ∧ scan.sound registry = true := by
  obtain ⟨new, hnew, hrows⟩ := h.scans
  have hmem : scan.created ∈ db'.scans.map (·.created) := List.mem_map_of_mem hs
  rw [hrows] at hmem
  rcases List.mem_append.mp hmem with hmem | hmem
  · obtain ⟨hmem, hkept⟩ := List.mem_filter.mp hmem
    obtain ⟨scan₀, hs₀, hcreated⟩ := List.mem_map.mp hmem
    exact Or.inl ⟨scan₀, hs₀, hcreated, survives_some.mp hkept⟩
  · exact Or.inr (hnew scan.created hmem)

theorem Db.Extends.hasScan (h : db.Extends registry deleted db') {scanId : ℕ}
    (hs : db.hasScan scanId = true) (hid : scanId ∉ deleted) : db'.hasScan scanId = true := by
  obtain ⟨scan, hmem, hscan⟩ := List.any_eq_true.mp hs
  have hscan : scan.id = scanId := eq_of_beq hscan
  subst hscan
  obtain ⟨scan', hmem', hcreated⟩ := h.mem_scans hmem hid
  have hsame : scan'.id = scan.id := congrArg (fun r => r.id) hcreated
  exact List.any_eq_true.mpr ⟨scan', hmem', beq_iff_eq.mpr hsame⟩

/-- A scan that is not new is not there again. -/
theorem Db.Extends.not_hasScan (h : db.Extends registry deleted db') {scanId : ℕ}
    (hlt : scanId < db.nextId) (hs : db'.hasScan scanId = true) : db.hasScan scanId = true := by
  rw [Db.hasScan_iff] at hs ⊢
  rcases h.ids with hsub | ⟨hids, -⟩
  · exact hsub.subset hs
  · rw [hids] at hs
    rcases List.mem_append.mp hs with hs | hs
    · exact hs
    · rw [List.mem_singleton] at hs
      omega

/-- A scan that is still there was not deleted. -/
theorem Db.Extends.not_deleted (h : db.Extends registry deleted db') {scanId : ℕ}
    (hlt : scanId < db.nextId) (hs : db'.hasScan scanId = true) : scanId ∉ deleted := by
  obtain ⟨scan, hmem, hid⟩ := List.any_eq_true.mp hs
  have hid : scan.id = scanId := eq_of_beq hid
  rcases h.of_mem_scans hmem with ⟨-, -, -, hkept⟩ | ⟨hnew, -⟩
  · rwa [hid] at hkept
  · omega

/-- And its findings were not either. -/
theorem Db.Extends.keeps_findings (h : db.Extends registry deleted db') {scanId : ℕ}
    (hlt : scanId < db.nextId) (hs : db'.hasScan scanId = true) {rows : List FindingRow}
    (hrows : ∀ row ∈ rows, row.scanId = scanId) (hsub : rows.Sublist db.findings) :
    rows.Sublist db'.findings :=
  h.findings.sublist (fun row hrow => survives_some.mpr (by
    rw [hrows row hrow]
    exact h.not_deleted hlt hs)) hsub

/-- Scans are told apart by their ids, and so is the next one from them. -/
structure Db.ScanKeys (db : Db) : Prop where
  fresh : db.Fresh
  keys : db.ids.Nodup

theorem Db.ScanKeys.eq_of_id (h : db.ScanKeys) {scan scan' : ScanRow} (hs : scan ∈ db.scans)
    (hs' : scan' ∈ db.scans) (hid : scan.id = scan'.id) : scan = scan' :=
  List.inj_on_of_nodup_map h.keys hs hs' hid

theorem Db.ScanKeys.extends (hi : db.ScanKeys) (h : db.Extends registry deleted db') :
    db'.ScanKeys where
  fresh := by
    have hfresh : ∀ id ∈ db.ids, id < db.nextId := fun id hid => by
      obtain ⟨scan, hs, rfl⟩ := List.mem_map.mp hid
      exact hi.fresh scan hs
    have hle := h.nextId
    intro scan hs
    have hid : scan.id ∈ db'.ids := List.mem_map_of_mem hs
    rcases h.ids with hsub | ⟨hids, hnext⟩
    · exact lt_of_lt_of_le (hfresh scan.id (hsub.subset hid)) hle
    · rw [hids] at hid
      rcases List.mem_append.mp hid with hid | hid
      · exact lt_of_lt_of_le (hfresh scan.id hid) hle
      · rw [List.mem_singleton.mp hid]
        omega
  keys := by
    rcases h.ids with hsub | ⟨hids, -⟩
    · exact hi.keys.sublist hsub
    · rw [hids]
      refine List.nodup_append.mpr ⟨hi.keys, List.nodup_singleton _, ?_⟩
      intro id hid id' hid'
      obtain ⟨scan, hs, rfl⟩ := List.mem_map.mp hid
      rw [List.mem_singleton.mp hid']
      have hlt := hi.fresh scan hs
      omega

theorem Db.Integral.extends (hi : db.Integral registry) (h : db.Extends registry deleted db') :
    db'.Integral registry where
  fresh := (Db.ScanKeys.extends ⟨hi.fresh, hi.keys⟩ h).fresh
  keys := (Db.ScanKeys.extends ⟨hi.fresh, hi.keys⟩ h).keys
  sound scan hs := by
    rcases h.of_mem_scans hs with ⟨scan₀, hs₀, hcreated, -⟩ | ⟨-, hsound⟩
    · have hsound : scan₀.created.sound registry = true := hi.sound scan₀ hs₀
      rw [hcreated] at hsound
      exact hsound
    · exact hsound
  runs run hr := by
    have hall := h.runs.forall_mem (fun k hk hsurvives => by
      obtain ⟨run, hr, rfl⟩ := List.mem_map.mp hk
      obtain ⟨scan, hs, hid, hmem⟩ := hi.runs run hr
      have hkept : scan.id ∉ deleted := by
        rw [hid]
        exact survives_some.mp hsurvives
      obtain ⟨scan', hs', hcreated⟩ := h.mem_scans hs hkept
      have hid' : scan'.id = scan.id := congrArg (fun r => r.id) hcreated
      have hmodules : scan'.selectedModules = scan.selectedModules :=
        congrArg (fun r => r.selectedModules) hcreated
      exact ⟨scan', hs', hid'.trans hid, hmodules ▸ hmem⟩)
    exact hall run.key (List.mem_map_of_mem hr)
  ledger := h.ledger.forall_mem fun row hrow hkept id hid =>
    h.hasScan (hi.ledger row hrow id hid) (survives_some.mp (hid ▸ hkept))
  findings := h.findings.forall_mem fun row hrow hkept =>
    h.hasScan (hi.findings row hrow) (survives_some.mp hkept)

theorem Db.Integral.hasScan_run (h : db.Integral registry) {run : ModuleRunRow}
    (hr : run ∈ db.moduleRuns) : db.hasScan run.scanId = true := by
  obtain ⟨scan, hs, hid, -⟩ := h.runs run hr
  exact List.any_eq_true.mpr ⟨scan, hs, beq_iff_eq.mpr hid⟩

/-- A scan's row is the only one with its id. -/
theorem Db.Integral.eq_of_id (h : db.Integral registry) {scan scan' : ScanRow}
    (hs : scan ∈ db.scans) (hs' : scan' ∈ db.scans) (hid : scan.id = scan'.id) : scan = scan' :=
  List.inj_on_of_nodup_map h.keys hs hs' hid

end

/-- **Integrity.** It holds in every state that is reached from an empty database. -/
theorem exec_integral {cfg : Config} {clock : ℚ} {ls : List SysAct} {s : Sys}
    (h : exec (Sys.step cfg) (.init .empty clock) ls = some s) : s.db.Integral cfg.registry :=
  exec_inv (I := fun s => s.db.Integral cfg.registry)
    (fun _ _ _ hi hs => hi.extends (extends_step hs)) (integral_empty cfg.registry) h

/-! ### Requests in the lab -/

def labRequest : ScanCreate :=
  ⟨0, "10.10.0.5", "10.10.0.5", .ip, ["10.10.0.5"], "normal", ["host_discovery"], .object [], none,
    0⟩

/-- A scope, a decision on an address in it, and the scan of that address. -/
def labRequests : List SysAct :=
  [.api (.createScope ⟨"lab", ["127.0.0.0/24", "10.10.0.0/24"], false, false⟩),
    .api (.decide 0 (allowedEntry "10.10.0.5" none "validated")),
    .api (.createScan labRequest)]

end ScanLedger
