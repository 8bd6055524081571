/-
# Recovery

A crash may fall between any two statements, and whoever starts next queues
again what was running. Wherever the crashes fall, a module run is marked done
only once `module.run` has returned, with all it returned stored; and after a
recovery no run is running, and every scan that has not ended can be claimed.

Key definitions: `ModuleReturn`, `Sys.returns`, `CrashSafe`, `Advance`, `Backed`.
Key theorems: `Standing.advance`, `Tracks.result_origin`, `backed_step`, `crash_safe`.
-/
import ScanLedger.Integrity

namespace ScanLedger

open Prog Run Table

/-! ### The property -/

/-- A module has returned in a scan. -/
structure ModuleReturn where
  scanId : ℕ
  module : String
  result : ModuleResult

/-- These findings, as rows of a scan. -/
def findingRows (scanId : ℕ) (findings : List Finding) : List FindingRow :=
  findings.map fun f => ⟨scanId, f⟩

/-- What `_store_findings` stores of an attempt. -/
def ModuleReturn.rows (ret : ModuleReturn) : List FindingRow :=
  findingRows ret.scanId ret.result.findings

/-- The attempt that ends, if it is one, has come to `r`. -/
def Stage.returns (stage : Stage) (r : Except Exn ModuleResult) : List ModuleReturn :=
  match stage, r with
  | .executing scanId _ (.op (.runModule m _) _), .ok result => [⟨scanId, m.name, result⟩]
  | _, _ => []

/-- The attempts that a step ends with a result. -/
def Sys.returns (s : Sys) : SysAct → List ModuleReturn
  | .run i (.serve e) => (s.procs i).stage.returns e.result
  | _ => []

/-- In a state that the run `ls` has come to: each run that is done has had an
attempt that returned, all of whose findings are stored; after a recovery no run
is running and every scan is terminal or can be claimed; and a second recovery
changes nothing. -/
structure CrashSafe (cfg : Config) (clock : ℚ) (ls : List SysAct) (s : Sys) : Prop where
  done : ∀ run ∈ s.db.moduleRuns, run.status = .done →
    ∃ ret ∈ emitted (Sys.step cfg) Sys.returns (.init .empty clock) ls,
      ret.scanId = run.scanId ∧ ret.module = run.module ∧ ret.rows.Sublist s.db.findings
  idle : ∀ i s', s.step cfg (.run i .recover) = some s' →
    ∀ run ∈ s'.db.moduleRuns, run.status ≠ .running
  claimable : ∀ i s', s.step cfg (.run i .recover) = some s' →
    ∀ scan ∈ s'.db.scans, scan.status.isTerminal = false →
      scan.status = .queued ∧ ∀ j now, (s'.db.claim scan.id j now).2 = true
  idempotent : ∀ now now',
    (s.db.recoverInterrupted now).recoverInterrupted now' = s.db.recoverInterrupted now

/-! ### What a recovery leaves -/

theorem Db.recoverInterrupted_twice (db : Db) (now now' : ℚ) :
    (db.recoverInterrupted now).recoverInterrupted now' = db.recoverInterrupted now := by
  unfold recoverInterrupted
  rw [updateWhere_updateWhere fun _ _ => rfl, updateWhere_updateWhere fun _ _ => rfl]

theorem Db.runs_recoverInterrupted {db : Db} {now : ℚ} {run : ModuleRunRow}
    (h : run ∈ (db.recoverInterrupted now).moduleRuns) : run.status ≠ .running := by
  obtain ⟨run₀, -, ⟨-, rfl⟩ | ⟨hp, rfl⟩⟩ := mem_updateWhere.mp h
  · exact fun hrunning => by cases hrunning
  · exact beq_eq_false_iff_ne.mp hp

theorem Db.scans_recoverInterrupted {db : Db} {now : ℚ} {scan : ScanRow}
    (h : scan ∈ (db.recoverInterrupted now).scans) (hopen : scan.status.isTerminal = false) :
    scan.status = .queued := by
  obtain ⟨scan₀, -, ⟨-, rfl⟩ | ⟨hp, rfl⟩⟩ := mem_updateWhere.mp h
  · rfl
  · have hne : scan.status ≠ .running := beq_eq_false_iff_ne.mp hp
    cases hstatus : scan.status <;> simp_all [ScanStatus.isTerminal]

theorem Db.claim_of_queued {db : Db} {scan : ScanRow} (h : scan ∈ db.scans)
    (hq : scan.status = .queued) (j : ℕ) (now : ℚ) : (db.claim scan.id j now).2 = true :=
  List.any_eq_true.mpr ⟨scan, h, by rw [hq, beq_self_eq_true, beq_self_eq_true, Bool.and_self]⟩

theorem Sys.step_recover {cfg : Config} {s s' : Sys} {i : ℕ}
    (h : s.step cfg (.run i .recover) = some s') : s'.db = s.db.recoverInterrupted s.clock := by
  cases Sys.step_steps h with
  | run hmoves =>
    cases hmoves with
    | recovers => rfl

/-! ### The module run of an execution -/

/-- A statement, so answered, that the module run takes part in. -/
def RunnerOp.turns : (o : RunnerOp) → Except Exn o.Answer → Bool
  | .getScan _, .ok (some _) => true
  | .updateModuleRun _ _ _, .ok _ | .skipRemaining _ _ _, .ok _ | .insertFindings _ _, .ok _
  | .runModule _ _, .ok _ => true
  | _, _ => false

/-- What a statement, so answered, is to the module run of an execution. -/
inductive Advance (g : Standing) (scanId : ℕ) :
    (o : RunnerOp) → Except Exn o.Answer → Standing → Prop
  | rests {o : RunnerOp} {r : Except Exn o.Answer} {g' : Standing} (hturns : o.turns r = false)
      (htodo : g'.todo = g.todo) (hrunning : g'.running = g.running)
      (hresult : g'.result = g.result) (hstored : g'.stored = g.stored) : Advance g scanId o r g'
  | reads {scan : ScanRow} {g' : Standing} (hreading : g.point = .reading)
      (hrunning : g'.running = g.running) (hresult : g'.result = g.result)
      (hstored : g'.stored = g.stored) : Advance g scanId (.getScan scanId) (.ok (some scan)) g'
  | skips {reason : String} {now : ℚ} {g' : Standing} (hpoint : g.point = .canceling)
      (htodo : g'.todo = []) (hrunning : g'.running = g.running) (hresult : g'.result = g.result)
      (hstored : g'.stored = g.stored) :
      Advance g scanId (.skipRemaining scanId reason now) (.ok ()) g'
  | opens {m : ModuleMetadata} {u : ModuleUpdate} {g' : Standing} (hhead : g.todo.head? = some m)
      (hstatus : u.status = .running) (hidle : g.running = false)
      (hpoint : g'.point = .looping g.todo.length) (htodo : g'.todo = g.todo)
      (hrunning : g'.running = true) (hresult : g'.result = g.result)
      (hstored : g'.stored = g.stored) :
      Advance g scanId (.updateModuleRun scanId m.name u) (.ok ()) g'
  | closes {m : ModuleMetadata} {u : ModuleUpdate} {g' : Standing} (hhead : g.todo.head? = some m)
      (hwrites : g.writes u) (hstatus : u.status.isTerminal = true) (htodo : g'.todo = g.todo.tail)
      (hrunning : g'.running = false) (hresult : g'.result = none) (hstored : g'.stored = false) :
      Advance g scanId (.updateModuleRun scanId m.name u) (.ok ()) g'
  | returns {m : ModuleMetadata} {context : ModuleContext} {result : ModuleResult} {g' : Standing}
      (hcontext : context.scanId = scanId) (hhead : g.todo.head? = some m)
      (hopen : g.running = true) (hfresh : g.result = none) (hnone : g.stored = false)
      (htodo : g'.todo = g.todo) (hrunning : g'.running = true)
      (hresult : g'.result = some result) (hstored : g'.stored = false) :
      Advance g scanId (.runModule m context) (.ok result) g'
  | stores {result : ModuleResult} {g' : Standing} (hopen : g.running = true)
      (hnone : g.stored = false) (hfound : g.result = some result) (htodo : g'.todo = g.todo)
      (hrunning : g'.running = true) (hresult : g'.result = some result)
      (hstored : g'.stored = true) :
      Advance g scanId (.insertFindings scanId result.findings) (.ok ()) g'

section

variable {registry : ModuleRegistry} {g : Standing} {o : RunnerOp} {scanId : ℕ}

/-- A run is written as running when it is not closed. -/
theorem Standing.running_of_writes {u : ModuleUpdate} (h : g.writes u)
    (hu : u.status.isTerminal = false) : u.status = .running := by
  unfold writes at h
  cases hstatus : u.status with
  | running => rfl
  | queued =>
    rw [hstatus] at h
    exact h.elim
  | done | failed | skipped | notApplicable | interrupted =>
    rw [hstatus] at hu
    cases hu

theorem Advance.of_after {r : Except Exn o.Answer} (hturns : o.turns r = false)
    (h : g.after registry o r = g) : Advance g scanId o r (g.next registry o r) := by
  refine .rests hturns ?_ ?_ ?_ ?_
  · rw [Standing.next_after (·.todo) fun _ _ _ => rfl, h]
  · rw [Standing.next_after (·.running) fun _ _ _ => rfl, h]
  · rw [Standing.next_after (·.result) fun _ _ _ => rfl, h]
  · rw [Standing.next_after (·.stored) fun _ _ _ => rfl, h]

theorem Standing.advance_write {name : String} {u : ModuleUpdate}
    (ha : g.allows scanId (.updateModuleRun scanId name u)) :
    Advance g scanId (.updateModuleRun scanId name u) (.ok ())
      (g.next registry (.updateModuleRun scanId name u) (.ok ())) := by
  obtain ⟨-, -, m, rest, htodo, rfl, hwrites⟩ := ha
  have hhead : g.todo.head? = some m := by rw [htodo]; rfl
  have hwrote : g.next registry (.updateModuleRun scanId m.name u) (.ok ()) =
      { g.wrote u with point := g.point.write u.status } := rfl
  rw [hwrote]
  unfold wrote
  cases hu : u.status.isTerminal with
  | true => exact .closes hhead hwrites hu rfl rfl rfl rfl
  | false =>
    have hrunning := running_of_writes hwrites hu
    have hready : g.running = false ∧ g.point = .checked g.todo.length := by
      unfold writes at hwrites
      rwa [hrunning] at hwrites
    refine .opens hhead hrunning hready.1 ?_ rfl rfl rfl rfl
    show g.point.write u.status = .looping g.todo.length
    rw [hready.2, hrunning]
    rfl

/-- Every statement of the script is one of these. -/
theorem Standing.advance (ha : g.allows scanId o) (r : Except Exn o.Answer) :
    Advance g scanId o r (g.next registry o r) := by
  cases o with
  | getScan id =>
    obtain ⟨rfl, hreading⟩ := ha
    rcases r with x | (_ | scan)
    · exact .of_after rfl rfl
    · exact .of_after rfl rfl
    · refine .reads hreading ?_ ?_ ?_
      · rw [next_after (·.running) fun _ _ _ => rfl]
        rfl
      · rw [next_after (·.result) fun _ _ _ => rfl]
        rfl
      · rw [next_after (·.stored) fun _ _ _ => rfl]
        rfl
  | updateModuleRun id name u =>
    cases r with
    | error x => exact .of_after rfl rfl
    | ok _ =>
      have hid := ha.1
      subst hid
      exact advance_write ha
  | skipRemaining id reason now =>
    obtain ⟨rfl, -, hcanceling⟩ := ha
    cases r with
    | error x => exact .of_after rfl rfl
    | ok _ => exact .skips hcanceling rfl rfl rfl rfl
  | insertFindings id findings =>
    obtain ⟨rfl, -, hrunning, hstored, result, hresult, rfl⟩ := ha
    cases r with
    | error x => exact .of_after rfl rfl
    | ok _ => exact .stores hrunning hstored hresult rfl hrunning hresult rfl
  | runModule m context =>
    obtain ⟨hcontext, -, hrunning, hresult, hstored, hhead⟩ := ha
    cases r with
    | error x => exact .of_after rfl rfl
    | ok result => exact .returns hcontext hhead hrunning hresult hstored rfl hrunning rfl hstored
  | nextSequence | insertEvent | updateScan | expiredScans | startTicker | stopTicker =>
    cases r <;> exact .rests rfl rfl rfl rfl rfl
  | _ => cases r <;> exact .of_after rfl rfl

/-- Before the modules and after them. -/
def Point.isIdle : Point → Bool
  | .reading | .canceling => true
  | .dispatching _ | .looping _ | .checked _ | .finished => false

/-- What holds of the module run of an execution: none is running before the
loop or after it, it is the first to come and comes to a result while it is
running, and only a result is stored. -/
structure Standing.Steady (g : Standing) : Prop where
  idle : g.point.isIdle = true → g.running = false
  first : g.running = true → ∃ m, g.todo.head? = some m
  result : g.running = false → g.result = none
  stored : g.result = none → g.stored = false

theorem steady_start : Standing.start.Steady :=
  ⟨fun _ => rfl, fun h => (by cases h), fun _ => rfl, fun _ => rfl⟩

/-- A point is left idle by a statement that finds it so, or by a check. -/
theorem Point.isIdle_of_next {point : Point} {r : Except Exn o.Answer}
    (h : (point.next o r).isIdle = true) :
    point.isIdle = true ∨ ∃ id, o = .cancelRequested id := by
  have hmoves := point.moves_next o r
  generalize point.next o r = point' at hmoves h
  cases hmoves with
  | stays => exact Or.inl h
  | reads id selected hpoint => exact Or.inl (hpoint ▸ rfl)
  | checks id => exact Or.inr ⟨id, rfl⟩
  | writes | finishes => cases h

theorem Standing.steady_next (h : g.Steady) (ha : g.allows scanId o) (r : Except Exn o.Answer) :
    (g.next registry o r).Steady := by
  have hidle : (g.next registry o r).point.isIdle = true → g.running = false := fun hpoint => by
    rw [next_point] at hpoint
    rcases Point.isIdle_of_next hpoint with hpoint | ⟨id, rfl⟩
    · exact h.idle hpoint
    · exact ha.2.2.1
  have hadvance : Advance g scanId o r (g.next registry o r) := advance ha r
  generalize g.next registry o r = g' at hidle hadvance
  have hresult' : g'.running = g.running → g'.result = g.result → g'.running = false →
      g'.result = none := fun hrunning hresult hoff => by
    rw [hresult]
    exact h.result (hrunning ▸ hoff)
  have hstored' : g'.result = g.result → g'.stored = g.stored → g'.result = none →
      g'.stored = false := fun hresult hstored hnone => by
    rw [hstored]
    exact h.stored (hresult ▸ hnone)
  cases hadvance with
  | rests _ htodo hrunning hresult hstored =>
    refine ⟨fun hpoint => hrunning ▸ hidle hpoint, fun hon => ?_, hresult' hrunning hresult,
      hstored' hresult hstored⟩
    rw [htodo]
    exact h.first (hrunning ▸ hon)
  | reads hreading hrunning hresult hstored =>
    have hoff : g.running = false := h.idle (by rw [hreading]; rfl)
    refine ⟨fun hpoint => hrunning ▸ hidle hpoint, fun hon => ?_, hresult' hrunning hresult,
      hstored' hresult hstored⟩
    rw [hrunning, hoff] at hon
    cases hon
  | skips hcanceling _ hrunning hresult hstored =>
    have hoff : g.running = false := h.idle (by rw [hcanceling]; rfl)
    refine ⟨fun hpoint => hrunning ▸ hidle hpoint, fun hon => ?_, hresult' hrunning hresult,
      hstored' hresult hstored⟩
    rw [hrunning, hoff] at hon
    cases hon
  | opens hhead _ _ hpoint htodo hrunning hresult hstored =>
    refine ⟨fun hpoint' => ?_, fun _ => ⟨_, htodo ▸ hhead⟩, fun hoff => ?_,
      hstored' hresult hstored⟩
    · rw [hpoint] at hpoint'
      cases hpoint'
    · rw [hrunning] at hoff
      cases hoff
  | closes _ _ _ _ hrunning hresult hstored =>
    refine ⟨fun _ => hrunning, fun hon => ?_, fun _ => hresult, fun _ => hstored⟩
    rw [hrunning] at hon
    cases hon
  | returns _ _ hopen _ _ htodo hrunning hresult | stores hopen _ _ htodo hrunning hresult =>
    have hon : g.running ≠ false := by rw [hopen]; exact nofun
    refine ⟨fun hpoint => absurd (hidle hpoint) hon, fun _ => htodo ▸ h.first hopen,
      fun hoff => ?_, fun hnone => ?_⟩
    · rw [hrunning] at hoff
      cases hoff
    · rw [hresult] at hnone
      cases hnone

end

section

variable {cfg : Config} {s s' : Sys} {γ γ' : ℕ → Standing} {a : SysAct}

theorem Tracks.steady (ht : Tracks cfg s γ a s' γ')
    (h : ∀ i scanId, s.Executes i scanId → (γ i).Steady) (i scanId : ℕ)
    (he : s'.Executes i scanId) : (γ' i).Steady := by
  cases ht.turn he with
  | beside ha he hγ => exact hγ ▸ h i scanId he
  | claims ha hc hdb hγ => exact hγ ▸ steady_start
  | own ha hstage hallows hw hdb hγ =>
    exact hγ ▸ Standing.steady_next (h i scanId ⟨_, _, hstage⟩) hallows _

/-- Where the result that an execution goes by comes from in a step. -/
inductive ResultOrigin (s : Sys) (γ : ℕ → Standing) (a : SysAct) (s' : Sys) (γ' : ℕ → Standing)
    (i scanId : ℕ) (m : ModuleMetadata) (result : ModuleResult) : Prop
  | kept (he : s.Executes i scanId) (hhead : (γ i).todo.head? = some m)
      (hresult : (γ i).result = some result) (hstored : (γ' i).stored = (γ i).stored)
  | stored (he : s.Executes i scanId) (hhead : (γ i).todo.head? = some m)
      (hresult : (γ i).result = some result) (hfresh : (γ i).stored = false)
      (hstored : (γ' i).stored = true)
      (hfindings : s'.db.findings = s.db.findings ++ findingRows scanId result.findings)
  | returned (hmem : ⟨scanId, m.name, result⟩ ∈ s.returns a) (hfresh : (γ' i).stored = false)
      (hfindings : s'.db.findings = s.db.findings)

theorem Tracks.result_origin (ht : Tracks cfg s γ a s' γ')
    (hsteady : ∀ i scanId, s.Executes i scanId → (γ i).Steady) {i scanId : ℕ}
    {m : ModuleMetadata} {result : ModuleResult} (he : s'.Executes i scanId)
    (hhead : (γ' i).todo.head? = some m) (hresult : (γ' i).result = some result) :
    ResultOrigin s γ a s' γ' i scanId m result := by
  cases ht.turn he with
  | beside ha he hγ =>
    rw [hγ] at hhead hresult
    exact .kept he hhead hresult (by rw [hγ])
  | claims ha hc hdb hγ =>
    rw [hγ] at hresult
    cases hresult
  | own ha hstage hallows hw hdb hγ =>
    rename_i e o k r w
    have hadvance : Advance (γ i) scanId o r (γ' i) := hγ ▸ Standing.advance hallows r
    have he : s.Executes i scanId := ⟨_, _, hstage⟩
    have hsteady := hsteady i scanId he
    cases hadvance with
    | rests _ htodo _ hsame hstored | opens _ _ _ _ htodo _ hsame hstored =>
      exact .kept he (htodo ▸ hhead) (hsame ▸ hresult) hstored
    | reads hreading _ hsame =>
      rw [hsame, hsteady.result (hsteady.idle (by rw [hreading]; rfl))] at hresult
      cases hresult
    | skips _ htodo =>
      rw [htodo] at hhead
      cases hhead
    | closes _ _ _ _ _ hnone =>
      rw [hnone] at hresult
      cases hresult
    | stores _ hfresh hfound htodo _ hsame hstored =>
      rw [hsame] at hresult
      cases hresult
      exact .stored he (htodo ▸ hhead) hfound hfresh hstored
        (hdb ▸ (effect_of_serve hw).findings_of_stores)
    | returns _ hfirst _ _ _ htodo _ hreturned hfresh =>
      rw [htodo, hfirst] at hhead
      rw [hreturned] at hresult
      cases hhead
      cases hresult
      have hanswer : e.result = .ok result := congrArg Prod.fst hw
      have hsame : s.db = w.db := congrArg (fun x => x.2.db) hw
      refine .returned ?_ hfresh (by rw [hdb, hsame])
      rw [ha]
      show _ ∈ (s.procs i).stage.returns e.result
      rw [hstage, hanswer]
      exact List.mem_singleton_self _

end

/-! ### The invariant -/

/-- An attempt of the module has returned, with all it returned stored. -/
def Db.HasReturn (db : Db) (past : List ModuleReturn) (scanId : ℕ) (module : String) : Prop :=
  ∃ ret ∈ past, ret.scanId = scanId ∧ ret.module = module ∧ ret.rows.Sublist db.findings

/-- Given the attempts that have returned so far: what an execution goes by is
among them, and stored if it says so, and so is what each run that is done goes by. -/
structure Backed (registry : ModuleRegistry) (past : List ModuleReturn) (s : Sys)
    (γ : ℕ → Standing) : Prop where
  integral : s.db.Integral registry
  issued : ∀ i scanId, s.Executes i scanId → scanId < s.db.nextId
  steady : ∀ i scanId, s.Executes i scanId → (γ i).Steady
  returned : ∀ i scanId m result, s.Executes i scanId → (γ i).todo.head? = some m →
    (γ i).result = some result → ⟨scanId, m.name, result⟩ ∈ past
  stored : ∀ i scanId m result, s.Executes i scanId → (γ i).todo.head? = some m →
    (γ i).result = some result → (γ i).stored = true → s.db.hasScan scanId = true →
      (findingRows scanId result.findings).Sublist s.db.findings
  done : ∀ run ∈ s.db.moduleRuns, run.status = .done →
    s.db.HasReturn past run.scanId run.module

theorem backed_init (registry : ModuleRegistry) (clock : ℚ) (γ : ℕ → Standing) :
    Backed registry [] (.init .empty clock) γ where
  integral := integral_empty registry
  issued := by rintro i scanId ⟨point, rest, hs⟩; cases hs
  steady := by rintro i scanId ⟨point, rest, hs⟩; cases hs
  returned := by rintro i scanId m result ⟨point, rest, hs⟩; cases hs
  stored := by rintro i scanId m result ⟨point, rest, hs⟩; cases hs
  done _ h := absurd h List.not_mem_nil

section

variable {cfg : Config} {s s' : Sys} {γ γ' : ℕ → Standing} {a : SysAct}
variable {past : List ModuleReturn}

theorem Backed.issued_step (h : Backed cfg.registry past s γ) (hs : s.step cfg a = some s')
    (ht : Tracks cfg s γ a s' γ') (i scanId : ℕ) (he : s'.Executes i scanId) :
    scanId < s'.db.nextId := by
  refine lt_of_lt_of_le ?_ (extends_step hs).nextId
  cases ht.turn he with
  | beside ha he => exact h.issued i scanId he
  | own ha hstage => exact h.issued i scanId ⟨_, _, hstage⟩
  | claims ha hc =>
    obtain ⟨queued, hqs, hq⟩ := List.any_eq_true.mp hc
    have hid : queued.id = scanId := eq_of_beq (Bool.and_eq_true_iff.mp hq).1
    exact hid ▸ h.integral.fresh queued hqs

theorem findingRows_scanId {scanId : ℕ} {findings : List Finding} {row : FindingRow}
    (h : row ∈ findingRows scanId findings) : row.scanId = scanId := by
  obtain ⟨f, -, rfl⟩ := List.mem_map.mp h
  rfl

theorem Backed.returned_step (h : Backed cfg.registry past s γ)
    (ht : Tracks cfg s γ a s' γ') (i scanId : ℕ) (m : ModuleMetadata) (result : ModuleResult)
    (he : s'.Executes i scanId) (hhead : (γ' i).todo.head? = some m)
    (hresult : (γ' i).result = some result) :
    ⟨scanId, m.name, result⟩ ∈ past ++ s.returns a := by
  cases ht.result_origin h.steady he hhead hresult with
  | kept he hhead hresult | stored he hhead hresult =>
    exact List.mem_append_left _ (h.returned i scanId m result he hhead hresult)
  | returned hmem => exact List.mem_append_right past hmem

theorem Backed.stored_step (h : Backed cfg.registry past s γ) (hs : s.step cfg a = some s')
    (ht : Tracks cfg s γ a s' γ') (i scanId : ℕ) (m : ModuleMetadata) (result : ModuleResult)
    (he : s'.Executes i scanId) (hhead : (γ' i).todo.head? = some m)
    (hresult : (γ' i).result = some result) (hstored : (γ' i).stored = true)
    (hscan : s'.db.hasScan scanId = true) :
    (findingRows scanId result.findings).Sublist s'.db.findings := by
  have hextends := extends_step hs
  cases ht.result_origin h.steady he hhead hresult with
  | kept he hhead hresult hsame =>
    have hid := h.issued i scanId he
    exact hextends.keeps_findings hid hscan (fun _ => findingRows_scanId)
      (h.stored i scanId m result he hhead hresult (hsame ▸ hstored)
        (hextends.not_hasScan hid hscan))
  | stored _ _ _ _ _ hfindings =>
    rw [hfindings]
    exact List.sublist_append_right _ _
  | returned _ hnone =>
    rw [hnone] at hstored
    cases hstored

theorem Backed.done_step (h : Backed cfg.registry past s γ) (hs : s.step cfg a = some s')
    (ht : Tracks cfg s γ a s' γ') : ∀ run ∈ s'.db.moduleRuns, run.status = .done →
      s'.db.HasReturn (past ++ s.returns a) run.scanId run.module := by
  intro run hr hdone
  have hextends := extends_step hs
  have hscan : s'.db.hasScan run.scanId = true := (h.integral.extends hextends).hasScan_run hr
  -- what has returned and is stored stays so
  have hkept : s.db.HasReturn past run.scanId run.module → run.scanId < s.db.nextId →
      s'.db.HasReturn (past ++ s.returns a) run.scanId run.module := by
    rintro ⟨ret, hret, hid, hmodule, hrows⟩ hlt
    refine ⟨ret, List.mem_append_left _ hret, hid, hmodule, ?_⟩
    refine hextends.keeps_findings hlt hscan (fun row hrow => ?_) hrows
    rw [findingRows_scanId hrow, hid]
  have hissued : ∀ run₀ ∈ s.db.moduleRuns, run₀.scanId < s.db.nextId := fun run₀ h₀ => by
    obtain ⟨scan, hscan, hid, -⟩ := h.integral.runs run₀ h₀
    exact hid ▸ h.integral.fresh scan hscan
  cases ht.run_origin hr with
  | kept h₀ => exact hkept (h.done run h₀ hdone) (hissued run h₀)
  | created hid hstatus =>
    rw [hstatus] at hdone
    cases hdone
  | interrupted ha h₀ hrunning hrow =>
    rw [hrow] at hdone
    cases hdone
  | skipped ha hstage h₀ hw hrow =>
    rw [hrow] at hdone
    cases hdone
  | written ha hstage h₀ hw hrow =>
    rename_i i e run₀ u k
    obtain ⟨-, -, m, rest, htodo, hname, hwrites⟩ := hw
    have hid : run.scanId = run₀.scanId := by rw [hrow, u.apply_scanId]
    have hmodule : run.module = run₀.module := by rw [hrow, u.apply_module]
    have hstatus : u.status = .done := by rwa [hrow, u.apply_status] at hdone
    unfold Standing.writes at hwrites
    rw [hstatus] at hwrites
    obtain ⟨-, result, hresult, hstored, -⟩ := hwrites
    have he : s.Executes i run₀.scanId := ⟨_, _, hstage⟩
    have hlt := h.issued i run₀.scanId he
    rw [hid, hmodule] at hkept ⊢
    have hhead : (γ i).todo.head? = some m := by rw [htodo]; rfl
    refine hkept ⟨⟨run₀.scanId, m.name, result⟩,
      h.returned i run₀.scanId m result he hhead hresult, rfl, hname.symm, ?_⟩ hlt
    rcases hstored with hempty | hstored
    · show (findingRows run₀.scanId result.findings).Sublist _
      rw [hempty]
      exact List.nil_sublist _
    · exact h.stored i run₀.scanId m result he hhead hresult hstored
        (hextends.not_hasScan hlt (hid ▸ hscan))

/-- **One step.** -/
theorem backed_step (h : Backed cfg.registry past s γ) (hs : s.step cfg a = some s')
    (ht : Tracks cfg s γ a s' γ') : Backed cfg.registry (past ++ s.returns a) s' γ' where
  integral := h.integral.extends (extends_step hs)
  issued := h.issued_step hs ht
  steady := ht.steady h.steady
  returned := h.returned_step ht
  stored := h.stored_step hs ht
  done := h.done_step hs ht

end

/-- **Completed work survives crashes**, in every state that the system reaches,
whatever its workers and the requests do. -/
theorem crash_safe (cfg : Config) (clock : ℚ) (ls : List SysAct) (s : Sys)
    (h : exec (Sys.step cfg) (.init .empty clock) ls = some s) : CrashSafe cfg clock ls s := by
  have hm : Meets (Sys.step cfg) (fun _ _ => True) (.init .empty clock) ls :=
    meets_of_forall (fun _ _ => trivial) ls _
  obtain ⟨γ, -, hbacked⟩ := emitted_tracked Sys.returns (I := Backed cfg.registry) (h := [])
    (fun _ _ _ _ _ _ _ hi _ hs ht => backed_step hi hs ht) (tracked_init .empty clock)
    (backed_init cfg.registry clock _) hm h
  refine ⟨hbacked.done, fun i s' hs run hr => ?_, fun i s' hs scan hscan hopen => ?_,
    s.db.recoverInterrupted_twice⟩
  · rw [Sys.step_recover hs] at hr
    exact Db.runs_recoverInterrupted hr
  · have hqueued : scan.status = .queued := by
      rw [Sys.step_recover hs] at hscan
      exact Db.scans_recoverInterrupted hscan hopen
    exact ⟨hqueued, Db.claim_of_queued hscan hqueued⟩

/-- Runner 0 crashes once the lab's module is done, and starts again. -/
def crashesDone : List SysAct :=
  labRequests ++ startsAt 0 0 ++ List.replicate 14 (.run 0 (.serve labAnswers)) ++
    .run 0 .crash :: startsAt 0 0

theorem crash_safe_lab : CrashSafe labConfig 0 crashesDone
    ((exec (Sys.step labConfig) (.init .empty 0) crashesDone).get (by decide +kernel)) :=
  crash_safe labConfig 0 crashesDone _ (Option.some_get _).symm

end ScanLedger
