/-
# One executor

A scan is claimed by an UPDATE that meets it only while it is queued, so that
one runner alone gets it. But `recover_interrupted` queues every running scan
again, whoever runs it: a live worker whose heartbeat is late loses the lock to
another, which then claims the scan the first one still executes. While nobody
recovers from under a live execution, a scan has one executor.

Key definitions: `OneExecutor`, `RecoversAlone`, `Claims`.
Key theorems: `claims_step`, `one_executor`, `recoversAlone_of_by`.
-/
import ScanLedger.Completion
import ScanLedger.Origins

namespace ScanLedger

open Prog Run

/-! ### The property, and its condition -/

/-- No two runners are inside `execute_scan` for one scan. -/
def OneExecutor (s : Sys) : Prop :=
  ∀ i j scanId, s.Executes i scanId → s.Executes j scanId → i = j

/-- The scan that is executed. -/
def Stage.executed : Stage → Option ℕ
  | .executing scanId _ _ => some scanId
  | .down | .starting | .sweeping _ | .looping | .claiming _ | .dead _ => none

theorem Stage.executed_iff (stage : Stage) {scanId : ℕ} :
    stage.executed = some scanId ↔ ∃ point rest, stage = .executing scanId point rest := by
  refine ⟨fun h => ?_, fun ⟨point, rest, h⟩ => h ▸ rfl⟩
  cases stage with
  | executing id point rest =>
    cases h
    exact ⟨point, rest, rfl⟩
  | down | starting | sweeping | looping | claiming | dead => cases h

instance (s : Sys) (i scanId : ℕ) : Decidable (s.Executes i scanId) :=
  decidable_of_iff _ (Stage.executed_iff _)

/-- A runner that recovers finds no running scan that a runner still executes. -/
def RecoversAlone (s : Sys) : SysAct → Prop
  | .run i .recover => (s.procs i).stage.isStarting = true →
      ∀ j scanId, s.Executes j scanId → ∀ scan ∈ s.db.scans, scan.id = scanId →
        scan.status ≠ .running
  | _ => True

/-- A scan that is executed is not queued, nor will one be created in its
place, and one runner executes it. -/
structure Claims (s : Sys) : Prop where
  fresh : s.db.Fresh
  claimed : ∀ i scanId, s.Executes i scanId →
    scanId < s.db.nextId ∧ ∀ scan ∈ s.db.scans, scan.id = scanId → scan.status ≠ .queued
  one : OneExecutor s

theorem claims_init {db : Db} (h : db.Fresh) (clock : ℚ) : Claims (.init db clock) where
  fresh := h
  claimed := by rintro i scanId ⟨point, rest, hs⟩; cases hs
  one := by rintro i j scanId ⟨point, rest, hs⟩; cases hs

/-! ### Steps -/

section

variable {cfg : Config} {s s' : Sys} {γ γ' : ℕ → Standing} {a : SysAct}

/-- Nobody begins to execute, and no scan is queued but a new one. -/
theorem Claims.keep (h : Claims s) (hfresh : s'.db.Fresh) (hid : s.db.nextId ≤ s'.db.nextId)
    (hexec : ∀ i scanId, s'.Executes i scanId → s.Executes i scanId)
    (hqueued : ∀ scan ∈ s'.db.scans, scan.status = .queued → ∀ i, s.Executes i scan.id →
      ∃ scan₀ ∈ s.db.scans, scan₀.id = scan.id ∧ scan₀.status = .queued) : Claims s' where
  fresh := hfresh
  claimed i scanId he := by
    obtain ⟨hlt, hclaimed⟩ := h.claimed i scanId (hexec i scanId he)
    refine ⟨lt_of_lt_of_le hlt hid, ?_⟩
    rintro scan hs rfl hq
    obtain ⟨scan₀, hs₀, hid₀, hq₀⟩ := hqueued scan hs hq i (hexec i scan.id he)
    exact hclaimed scan₀ hs₀ hid₀ hq₀
  one i j scanId hi hj := h.one i j scanId (hexec i scanId hi) (hexec j scanId hj)

theorem Claims.api (h : Claims s) {a : ApiStep} {db : Db}
    (hserves : Serves cfg.registry s.clock s.db a db) : Claims { s with db } := by
  refine h.keep (hserves.fresh h.fresh) hserves.nextId_le (fun _ _ he => he) ?_
  intro scan hs hq i he
  rcases hserves.mem_scans hs with hs | ⟨scan₀, hs₀, seen, -, -, rfl⟩ | ⟨request, -, hid, -⟩
  · exact ⟨scan, hs, rfl, hq⟩
  · exact ⟨scan₀, hs₀, rfl, hq⟩
  · -- a new scan is nobody's yet
    have hlt := (h.claimed i scan.id he).1
    omega

theorem Claims.recovers (h : Claims s) {i : ℕ} {p : Proc} (hok : RecoversAlone s (.run i .recover))
    (hstart : (s.procs i).stage.isStarting = true)
    (hp : ∀ scanId point rest, p.stage ≠ .executing scanId point rest) :
    Claims (s.put i (s.db.recoverInterrupted s.clock) p) := by
  refine h.keep ?_ le_rfl (fun j scanId he => he.of_put fun id point rest hs =>
    absurd hs (hp id point rest)) ?_
  · intro scan hs
    rcases Db.mem_scans_recover hs with ⟨hs, -⟩ | ⟨scan₀, hs₀, -, rfl⟩
    · exact h.fresh scan hs
    · exact h.fresh scan₀ hs₀
  · intro scan hs hq j he
    rcases Db.mem_scans_recover hs with ⟨hs, -⟩ | ⟨scan₀, hs₀, hrunning, rfl⟩
    · exact ⟨scan, hs, rfl, hq⟩
    · exact absurd hrunning (hok hstart j scan₀.id he scan₀ hs₀ rfl)

/-- The UPDATE of a claim meets the scan once. -/
theorem Claims.claim (h : Claims s) {i candidate : ℕ} {p : Proc}
    (hc : (s.db.claim candidate i s.clock).2 = true)
    (hp : ∀ scanId point rest, p.stage = .executing scanId point rest → scanId = candidate) :
    Claims (s.put i (s.db.claim candidate i s.clock).1 p) := by
  obtain ⟨queued, hqs, hq⟩ := List.any_eq_true.mp hc
  obtain ⟨hid, hq⟩ := Bool.and_eq_true_iff.mp hq
  have hid : queued.id = candidate := eq_of_beq hid
  have hq : queued.status = .queued := eq_of_beq hq
  -- so nobody executes it
  have hfree : ∀ j, ¬ s.Executes j candidate := fun j he =>
    (h.claimed j candidate he).2 queued hqs hid hq
  have hexec : ∀ j scanId, (s.put i (s.db.claim candidate i s.clock).1 p).Executes j scanId →
      s.Executes j scanId ∨ j = i ∧ scanId = candidate := by
    rintro j scanId ⟨point, rest, hs⟩
    by_cases hj : j = i
    · subst hj
      rw [Sys.put_self] at hs
      exact Or.inr ⟨rfl, hp scanId point rest hs⟩
    · rw [Sys.put_of_ne s hj] at hs
      exact Or.inl ⟨point, rest, hs⟩
  refine ⟨?_, ?_, ?_⟩
  · intro scan hs
    rcases Db.mem_scans_claim hs with ⟨hs, -⟩ | ⟨scan₀, hs₀, -, -, rfl⟩
    · exact h.fresh scan hs
    · exact h.fresh scan₀ hs₀
  · intro j scanId he
    rcases hexec j scanId he with he | ⟨rfl, rfl⟩
    · obtain ⟨hlt, hclaimed⟩ := h.claimed j scanId he
      refine ⟨hlt, fun scan hs hscan hqueued => ?_⟩
      rcases Db.mem_scans_claim hs with ⟨hs, -⟩ | ⟨scan₀, hs₀, -, -, rfl⟩
      · exact hclaimed scan hs hscan hqueued
      · cases hqueued
    · refine ⟨hid ▸ h.fresh queued hqs, fun scan hs hscan hqueued => ?_⟩
      rcases Db.mem_scans_claim hs with ⟨-, hnot⟩ | ⟨scan₀, hs₀, -, -, rfl⟩
      · exact hnot hscan hqueued
      · cases hqueued
  · intro j k scanId hj hk
    rcases hexec j scanId hj with hj₀ | ⟨hji, hjc⟩
    · rcases hexec k scanId hk with hk₀ | ⟨-, hkc⟩
      · exact h.one j k scanId hj₀ hk₀
      · exact absurd (hkc ▸ hj₀) (hfree j)
    · rcases hexec k scanId hk with hk₀ | ⟨hki, -⟩
      · exact absurd (hjc ▸ hk₀) (hfree k)
      · rw [hji, hki]

/-- A statement that a runner carries out queues no scan. -/
theorem Claims.serve (h : Claims s) {i : ℕ} {o : RunnerOp} {r : Except Exn o.Answer} {db : Db}
    {p : Proc} (heffect : Effect s.db o r db)
    (hup : ∀ scanId status now, o = .updateScan scanId status now → status ≠ .queued)
    (hexec : ∀ id point rest, p.stage = .executing id point rest → s.Executes i id) :
    Claims (s.put i db p) := by
  refine h.keep ?_ heffect.nextId.ge (fun j scanId he => he.of_put hexec) ?_
  · intro scan hs
    have hid := heffect.nextId
    rw [Sys.put_db] at hs ⊢
    rcases heffect.mem_scans hs with hs | ⟨scan₀, hs₀, status, now, -, rfl⟩
    · exact hid ▸ h.fresh scan hs
    · exact hid ▸ h.fresh scan₀ hs₀
  · intro scan hs hq j _
    rcases heffect.mem_scans hs with hs | ⟨scan₀, hs₀, status, now, ho, rfl⟩
    · exact ⟨scan, hs, rfl, hq⟩
    · exact absurd hq (hup scan₀.id status now ho)

/-- A scan is ended with a terminal status. -/
theorem Standing.updateScan_terminal {g : Standing} {scanId id : ℕ} {status : ScanStatus} {now : ℚ}
    (h : g.allows scanId (.updateScan id status now)) : status.isTerminal = true := by
  have hcloses : g.closes status := h.2.2
  cases status with
  | queued | running => exact hcloses.elim
  | completed | completedWithWarnings | failed | canceled => rfl

/-- **One step.** Executors stay alone where whoever recovers does. -/
theorem claims_step (h : Claims s) (hok : RecoversAlone s a) (ht : Tracks cfg s γ a s' γ') :
    Claims s' := by
  cases ht with
  | rests ha hclock hdb hexec hsweep =>
    refine h.keep ?_ hdb.nextId.ge hexec ?_
    · intro scan hs
      rw [hdb.scans] at hs
      rw [hdb.nextId]
      exact h.fresh scan hs
    · intro scan hs hq i _
      rw [hdb.scans] at hs
      exact ⟨scan, hs, rfl, hq⟩
  | api hserves => exact h.api hserves
  | recovers hs hp => exact h.recovers hok (by rw [hs]; rfl) hp
  | claims hc hp => exact h.claim hc hp
  | executes hs ha hw hp =>
    refine h.serve (effect_of_serve hw) ?_ fun id point rest hexec => ?_
    · rintro id status now rfl rfl
      have hterminal := Standing.updateScan_terminal ha
      cases hterminal
    · rw [hp id point rest hexec]
      exact ⟨_, _, hs⟩
  | sweeps hs ha hw hp =>
    refine h.serve (effect_of_serve hw) ?_ fun id point rest hexec =>
      absurd hexec (hp id point rest)
    rintro id status now rfl
    exact ha.elim
  | beside hm he ho hp =>
    refine h.serve he ?_ fun id point rest hexec => ⟨point, rest, hp ▸ hexec⟩
    rintro id status now rfl
    rcases ho with ⟨row, ho⟩ | ⟨ledger, entry, ho⟩ <;> cases ho

/-- **One executor.** In every run whose recoveries find no running scan that
is still executed, no scan is executed by two runners. -/
theorem one_executor (cfg : Config) (db : Db) (h : db.Fresh) (clock : ℚ) (ls : List SysAct)
    (s : Sys) (hm : Meets (Sys.step cfg) RecoversAlone (.init db clock) ls)
    (hr : exec (Sys.step cfg) (.init db clock) ls = some s) : OneExecutor s := by
  obtain ⟨γ, -, hclaims⟩ := exec_tracked (I := fun s _ => Claims s)
    (fun _ _ _ _ _ _ hi hok _ ht => claims_step hi hok ht) (claims_init h clock) hm hr
  exact hclaims.one

/-! ### A single worker -/

/-- The step is runner `i`'s, a request's or the clock's. -/
def SysAct.by (i : ℕ) : SysAct → Bool
  | .run j _ => j == i
  | .tick _ | .api _ => true

/-- A worker that is alone recovers alone. -/
theorem recoversAlone_of_by {i : ℕ} : ∀ {ls : List SysAct} {s : Sys}, (∀ a ∈ ls, a.by i = true) →
    (∀ j ≠ i, s.procs j = .new) → Meets (Sys.step cfg) RecoversAlone s ls
  | [], _, _, _ => trivial
  | a :: ls, s, hby, hnew => by
    have hrest : ∀ a ∈ ls, a.by i = true := fun b hb => hby b (List.mem_cons_of_mem _ hb)
    have hfirst : RecoversAlone s a := by
      unfold RecoversAlone
      split
      · rename_i k
        have hk : k = i := eq_of_beq (hby _ List.mem_cons_self)
        subst hk
        intro hstart j scanId ⟨point, rest, hexec⟩
        by_cases hj : j = k
        · subst hj
          rw [hexec] at hstart
          cases hstart
        · rw [hnew j hj] at hexec
          cases hexec
      · trivial
    refine ⟨hfirst, ?_⟩
    cases hs : s.step cfg a with
    | none => trivial
    | some s' =>
      refine recoversAlone_of_by hrest fun j hj => ?_
      cases Sys.step_steps hs with
      | tick | api => exact hnew j hj
      | run hmoves =>
        rename_i k m db p
        have hk : k = i := eq_of_beq (hby _ List.mem_cons_self)
        rw [Sys.put_of_ne s (hk ▸ hj)]
        exact hnew j hj

end

/-! ### A late heartbeat -/

/-- The scan of the lab, not claimed yet. -/
def queuedScan : ScanRow :=
  { labScan with status := .queued, claimedBy := none, startedAt := none }

def queuedDb : Db := { labDb with scans := [queuedScan] }

/-- No name resolves, and every module run finds nothing. -/
def labAnswers : Answers := ⟨0, fun _ => .ok [], (0, 0), .ok ⟨[], false, []⟩⟩

/-- Runner `i` acquires the lock at this moment, recovers, sweeps, and claims
the scan it finds. -/
def startsAt (i : ℕ) (moment : ℚ) : List SysAct :=
  [.acquire moment, .write, .recover, .serve labAnswers, .serve labAnswers, .serve labAnswers,
    .serve labAnswers, .look, .claim].map (.run i)

theorem one_executor_lab :
    OneExecutor ((exec (Sys.step labConfig) (.init queuedDb 0) (startsAt 0 0)).get
      (by decide +kernel)) :=
  one_executor labConfig queuedDb (by unfold Db.Fresh; decide +kernel) 0 (startsAt 0 0) _
    (recoversAlone_of_by (i := 0) (by decide) fun _ _ => rfl) (Option.some_get _).symm

/-- Runner 0 executes the scan and is late with its heartbeat; runner 1 takes the
lock over, queues the scan again and claims it. -/
theorem not_one_executor : ¬ ∀ (cfg : Config) (db : Db) (clock : ℚ) (ls : List SysAct) (s : Sys),
    db.Fresh → exec (Sys.step cfg) (.init db clock) ls = some s → OneExecutor s := by
  intro h
  let ls := startsAt 0 0 ++ .tick 31 :: startsAt 1 31
  have hrun := h labConfig queuedDb 0 ls _ (by unfold Db.Fresh; decide +kernel)
    (Option.some_get (x := exec (Sys.step labConfig) (.init queuedDb 0) ls)
      (by decide +kernel)).symm
  have hsame := hrun 0 1 1 (by decide +kernel) (by decide +kernel)
  exact absurd hsame (by decide)

end ScanLedger
