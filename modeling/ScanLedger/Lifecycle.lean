/-
# The life of a scan

A scan is stored as queued, is running from its claim to its end, and may be queued again
by a recovery in between; then it is terminal for good. From there on its row stays as it
is but for the flag of a cancel that comes late, and so do its module runs and findings,
until a request deletes it or a sweep does, and no sweep deletes a scan that has not ended.
This holds of any number of runners, crashes and requests in any order, as long as whoever
recovers finds no running scan that is still executed.

A module run that is running belongs to a scan that is: so a recovery leaves the runs of a
finished scan alone.

Key definitions: `Db.evidenceOf`, `NoneLeft`, `StatusStep`, `StepsOn`.
Key theorems: `noneLeft_step`, `evidenceOf_step`, `finished_frozen`, `status_lifecycle`.
-/
import ScanLedger.Evidence
import ScanLedger.Ledger

namespace ScanLedger

open Prog Run Table

/-! ### What is stored of a scan -/

/-- Its row but for the flag of a cancel, its module runs and its findings. -/
def Db.evidenceOf (db : Db) (scanId : ℕ) :
    List ScanRow × List ModuleRunRow × List FindingRow :=
  ((db.scans.filter (·.id == scanId)).map fun scan => { scan with cancelRequested := false },
    db.moduleRuns.filter (·.scanId == scanId), db.findings.filter (·.scanId == scanId))

/-- The scan whose row, runs or findings a statement writes. -/
def RunnerOp.touched : RunnerOp → Option ℕ
  | .updateScan id _ _ | .updateModuleRun id _ _ | .skipRemaining id _ _
  | .insertFindings id _ => some id
  | _ => none

section

variable {db db' : Db} {scanId : ℕ} {o : RunnerOp} {r : Except Exn o.Answer}

theorem Db.evidenceOf_congr
    (hscans : (db'.scans.filter (·.id == scanId)).map (fun scan => { scan with
      cancelRequested := false }) = (db.scans.filter (·.id == scanId)).map fun scan => { scan with
      cancelRequested := false })
    (hruns : db'.moduleRuns.filter (·.scanId == scanId) =
      db.moduleRuns.filter (·.scanId == scanId))
    (hfindings : db'.findings.filter (·.scanId == scanId) =
      db.findings.filter (·.scanId == scanId)) : db'.evidenceOf scanId = db.evidenceOf scanId := by
  unfold evidenceOf
  rw [hscans, hruns, hfindings]

/-- Rows that are added are none of these. -/
theorem filter_append_new {α : Type} {q : α → Bool} {rows new : List α}
    (h : ∀ r ∈ new, q r = false) : (rows ++ new).filter q = rows.filter q := by
  have hnew : new.filter q = [] := List.filter_eq_nil_iff.mpr fun r hr => by
    rw [h r hr]
    exact Bool.false_ne_true
  rw [List.filter_append, hnew, List.append_nil]

/-- The deletion of others. -/
theorem Db.evidenceOf_deleteScans (db : Db) {ids : List ℕ} (h : scanId ∉ ids) :
    (db.deleteScans ids).evidenceOf scanId = db.evidenceOf scanId := by
  have hkeep : ∀ {α : Type} (key : α → ℕ) (rows : List α),
      (rows.filter fun r => decide (key r ∉ ids)).filter (fun r => key r == scanId) =
        rows.filter fun r => key r == scanId := fun key rows => by
    rw [List.filter_filter]
    refine List.filter_congr fun r _ => ?_
    by_cases hr : key r = scanId
    · rw [hr, beq_self_eq_true, decide_eq_true h]
      rfl
    · rw [beq_eq_false_iff_ne.mpr hr]
      rfl
  refine evidenceOf_congr ?_ (hkeep ModuleRunRow.scanId _) (hkeep FindingRow.scanId _)
  exact congrArg _ (hkeep ScanRow.id _)

/-- A statement on others. -/
theorem Effect.evidenceOf (h : Effect db o r db') (ho : o.touched ≠ some scanId)
    (hdel : scanId ∉ o.deleted) : db'.evidenceOf scanId = db.evidenceOf scanId := by
  -- rows with another id
  have hne : ∀ {id id' : ℕ}, id ≠ scanId → (id' == id) = true → (id' == scanId) = false :=
    fun hid heq => beq_eq_false_iff_ne.mpr (eq_of_beq heq ▸ hid)
  cases h with
  | reads => rfl
  | updatesScan id status now =>
    have hid : id ≠ scanId := fun he => ho (congrArg some he)
    refine Db.evidenceOf_congr (congrArg _ (filter_updateWhere fun scan _ hp => ?_)) rfl rfl
    exact ⟨hne hid hp, hne hid hp⟩
  | updatesRun id module u =>
    have hid : id ≠ scanId := fun he => ho (congrArg some he)
    refine Db.evidenceOf_congr rfl (filter_updateWhere fun run _ hp => ?_) rfl
    have hrun := hne hid (Bool.and_eq_true_iff.mp hp).1
    refine ⟨hrun, ?_⟩
    rw [u.apply_scanId]
    exact hrun
  | skips id reason now =>
    have hid : id ≠ scanId := fun he => ho (congrArg some he)
    refine Db.evidenceOf_congr rfl (filter_updateWhere fun run _ hp => ?_) rfl
    have hrun := hne hid (Bool.and_eq_true_iff.mp hp).1
    exact ⟨hrun, hrun⟩
  | stores id findings =>
    have hid : id ≠ scanId := fun he => ho (congrArg some he)
    refine Db.evidenceOf_congr rfl rfl (filter_append_new fun row hrow => ?_)
    obtain ⟨f, -, rfl⟩ := List.mem_map.mp hrow
    exact hne hid (beq_self_eq_true id)
  | publishes => rfl
  | records => rfl
  | deletes ids => exact db.evidenceOf_deleteScans hdel

/-- A request leaves what is stored of a scan, or deletes it. -/
theorem Serves.evidenceOf {registry : ModuleRegistry} {clock : ℚ} {a : ApiStep}
    (h : Serves registry clock db a db') (hid : scanId < db.nextId) (hdel : scanId ∉ a.deleted) :
    db'.evidenceOf scanId = db.evidenceOf scanId := by
  cases h with
  | refused | decides => rfl
  | createsScope _ h =>
    obtain ⟨-, rfl⟩ := Db.createScope_eq_some.mp h
    rfl
  | updatesScope _ h =>
    obtain ⟨-, rfl⟩ := Db.updateScope_eq_some.mp h
    rfl
  | deletesScope h =>
    obtain ⟨-, rfl⟩ := Db.deleteScope_eq_some.mp h
    rfl
  | createsScan _ h =>
    obtain ⟨-, rfl⟩ := Db.createScan_eq_some.mp h
    have hnew : (db.nextId == scanId) = false := beq_eq_false_iff_ne.mpr (by omega)
    refine Db.evidenceOf_congr (congrArg _ (filter_append_new fun scan hscan => ?_))
      (filter_append_new fun run hrun => ?_) rfl
    · rw [List.mem_singleton.mp hscan]
      exact hnew
    · obtain ⟨name, -, rfl⟩ := List.mem_map.mp hrun
      exact hnew
  | cancels hseen id =>
    refine Db.evidenceOf_congr ?_ rfl rfl
    have hflag : ∀ rows : List ScanRow, ((updateWhere (·.id == id) (fun scan => { scan with
        cancelRequested := true }) rows).filter (·.id == scanId)).map (fun scan => { scan with
          cancelRequested := false }) =
        (rows.filter (·.id == scanId)).map fun scan => { scan with cancelRequested := false } := by
      intro rows
      unfold updateWhere
      rw [List.filter_map, List.map_map]
      have hsame : (fun scan : ScanRow => scan.id == scanId) ∘ (fun scan : ScanRow =>
          if scan.id == id then { scan with cancelRequested := true } else scan) =
          fun scan => scan.id == scanId := by
        funext scan
        simp only [Function.comp]
        split_ifs <;> rfl
      rw [hsame]
      refine List.map_congr_left fun scan _ => ?_
      simp only [Function.comp]
      split_ifs <;> rfl
    exact hflag db.scans
  | deletes id => exact db.evidenceOf_deleteScans hdel

/-- A claim of another scan. -/
theorem Db.evidenceOf_claim {candidate ownerId : ℕ} {now : ℚ}
    (h : ∀ scan ∈ db.scans, scan.id = scanId → scan.status ≠ .queued) :
    (db.claim candidate ownerId now).1.evidenceOf scanId = db.evidenceOf scanId := by
  refine evidenceOf_congr (congrArg _ (filter_updateWhere fun scan hs hp => ?_)) rfl rfl
  have hne : (scan.id == scanId) = false := beq_eq_false_iff_ne.mpr fun hid =>
    h scan hs hid (eq_of_beq (Bool.and_eq_true_iff.mp hp).2)
  exact ⟨hne, hne⟩

/-- A recovery that meets nothing of the scan. -/
theorem Db.evidenceOf_recover {now : ℚ}
    (hscan : ∀ scan ∈ db.scans, scan.id = scanId → scan.status ≠ .running)
    (hruns : ∀ run ∈ db.moduleRuns, run.scanId = scanId → run.status ≠ .running) :
    (db.recoverInterrupted now).evidenceOf scanId = db.evidenceOf scanId := by
  refine evidenceOf_congr (congrArg _ (filter_updateWhere fun scan hs hp => ?_))
    (filter_updateWhere fun run hr hp => ?_) rfl
  · have hne : (scan.id == scanId) = false := beq_eq_false_iff_ne.mpr fun hid =>
      hscan scan hs hid (eq_of_beq hp)
    exact ⟨hne, hne⟩
  · have hne : (run.scanId == scanId) = false := beq_eq_false_iff_ne.mpr fun hid =>
      hruns run hr hid (eq_of_beq hp)
    exact ⟨hne, hne⟩

end

/-! ### Runs that are running -/

/-- A run that is running belongs to a scan that is, and where that is executed it is the
run of the module at hand. -/
structure NoneLeft (s : Sys) (γ : ℕ → Standing) : Prop where
  steady : ∀ i scanId, s.Executes i scanId → (γ i).Steady
  dispatch : ∀ i scanId, s.Executes i scanId → ∀ left, (γ i).point = .dispatching left →
    (γ i).running = false
  running : ∀ run ∈ s.db.moduleRuns, run.status = .running →
    ∀ scan ∈ s.db.scans, scan.id = run.scanId → scan.status = .running
  first : ∀ i scanId, s.Executes i scanId → (γ i).ended = false →
    ∀ run ∈ s.db.moduleRuns, run.scanId = scanId → run.status = .running →
      (γ i).running = true ∧ ∃ m, (γ i).todo.head? = some m ∧ run.module = m.name

/-- No run is written by a statement that no module run takes part in. -/
theorem Effect.runs_of_turns {db db' : Db} {o : RunnerOp} {r : Except Exn o.Answer}
    (h : Effect db o r db') (hturns : o.turns r = false) {run : ModuleRunRow}
    (hr : run ∈ db'.moduleRuns) : run ∈ db.moduleRuns := by
  cases h with
  | updatesRun | skips => cases hturns
  | deletes ids => exact List.mem_of_mem_filter hr
  | _ => exact hr

theorem Effect.runs_of_update {db db' : Db} {scanId : ℕ} {name : String} {u : ModuleUpdate}
    (h : Effect db (.updateModuleRun scanId name u) (.ok ()) db') :
    db'.moduleRuns = (db.updateModuleRun scanId name u).moduleRuns := by
  cases h with
  | reads _ _ hreads => cases hreads
  | updatesRun => rfl

/-- A scan is dispatched once it is read. -/
theorem Point.next_dispatching {point : Point} {o : RunnerOp} {r : Except Exn o.Answer} {left : ℕ}
    (h : point.next o r = .dispatching left) :
    point = .reading ∨ ∃ left', point = .dispatching left' := by
  have hmoves := point.moves_next o r
  rw [h] at hmoves
  cases hmoves with
  | stays => exact Or.inr ⟨left, rfl⟩
  | reads id selected hpoint => exact Or.inl hpoint
  | checks id hpoint hpoint' => rcases hpoint' with hpoint' | hpoint' <;> cases hpoint'

section

variable {cfg : Config} {s s' : Sys} {γ γ' : ℕ → Standing} {a : SysAct}

theorem noneLeft_init (clock : ℚ) (γ : ℕ → Standing) : NoneLeft (.init .empty clock) γ where
  steady := by rintro i scanId ⟨point, rest, hs⟩; cases hs
  dispatch := by rintro i scanId ⟨point, rest, hs⟩; cases hs
  running _ h := absurd h List.not_mem_nil
  first := by rintro i scanId ⟨point, rest, hs⟩; cases hs

/-- No run is marked running before the loop. -/
theorem Standing.dispatch_next {registry : ModuleRegistry} {g : Standing} {o : RunnerOp}
    {scanId left : ℕ} (hsteady : g.Steady)
    (hg : ∀ left, g.point = .dispatching left → g.running = false) (ha : g.allows scanId o)
    (r : Except Exn o.Answer) (h : (g.next registry o r).point = .dispatching left) :
    (g.next registry o r).running = false := by
  have hpoint : g.point.next o r = .dispatching left := by rw [← next_point registry]; exact h
  have hoff : g.running = false := by
    rcases Point.next_dispatching hpoint with hreading | ⟨left', hdispatching⟩
    · exact hsteady.idle (by rw [hreading]; rfl)
    · exact hg left' hdispatching
  have hadvance : Advance g scanId o r (g.next registry o r) := advance ha r
  generalize g.next registry o r = g' at h hadvance
  cases hadvance with
  | rests _ _ hrunning | reads _ hrunning | skips _ _ hrunning => rw [hrunning, hoff]
  | opens _ _ _ hlooping =>
    rw [hlooping] at h
    cases h
  | closes _ _ _ _ hrunning => exact hrunning
  | returns _ _ hopen | stores hopen =>
    rw [hoff] at hopen
    cases hopen

/-- Whatever ends a scan, none of its runs is running by then. -/
theorem NoneLeft.not_running (h : NoneLeft s γ) {i scanId id : ℕ} {status : ScanStatus} {now : ℚ}
    (he : s.Executes i scanId) (hw : (γ i).allows scanId (.updateScan id status now)) :
    ∀ run ∈ s.db.moduleRuns, run.scanId = scanId → run.status ≠ .running := by
  intro run hr hid hrunning
  obtain ⟨-, hopen, hcloses⟩ := hw
  obtain ⟨hon, m, hhead, -⟩ := h.first i scanId he hopen run hr hid hrunning
  have hidle : (γ i).point.isIdle = true → False := fun hidle => by
    rw [(h.steady i scanId he).idle hidle] at hon
    cases hon
  have hempty : (γ i).todo = [] → False := fun hnil => by
    rw [hnil] at hhead
    cases hhead
  unfold Standing.closes at hcloses
  split at hcloses
  · exact hidle (by rw [hcloses.1]; rfl)
  · rcases hcloses with ⟨left, hpoint⟩ | ⟨-, hnil⟩
    · rw [h.dispatch i scanId he left hpoint] at hon
      cases hon
    · exact hempty hnil
  · exact hempty hcloses.2
  · exact hempty hcloses.2
  · exact hcloses
  · exact hcloses

/-- The scans of the runs that are running. -/
theorem NoneLeft.running_step (h : NoneLeft s γ) (hh : Holds cfg.registry s γ)
    (hs : s.step cfg a = some s') (ht : Tracks cfg s γ a s' γ') :
    ∀ run ∈ s'.db.moduleRuns, run.status = .running →
      ∀ scan ∈ s'.db.scans, scan.id = run.scanId → scan.status = .running := by
  intro run hr hrunning scan hscan hid
  cases ht.run_origin hr with
  | created _ hstatus =>
    rw [hstatus] at hrunning
    cases hrunning
  | interrupted _ _ _ hrun | skipped _ _ _ _ hrun =>
    rw [hrun] at hrunning
    cases hrunning
  | kept hr₀ =>
    have hscan₀ := h.running run hr₀ hrunning
    cases ht.scan_origin hscan with
    | kept hmem => exact hscan₀ scan hmem hid
    | created hnew =>
      obtain ⟨scan₀, hs₀, hid₀, -⟩ := hh.integral.runs run hr₀
      have hlt := hh.integral.fresh scan₀ hs₀
      omega
    | flagged _ _ h₀ hrow =>
      rename_i seen scan₀ _ _
      rw [hrow] at hid ⊢
      exact hscan₀ scan₀ h₀ hid
    | requeued ha =>
      subst ha
      rw [Sys.step_recover hs] at hr
      exact absurd hrunning (Db.runs_recoverInterrupted hr)
    | claimed _ h₀ hqueued hrow =>
      rw [hrow] at hid
      rw [hscan₀ _ h₀ hid] at hqueued
      cases hqueued
    | ended _ hstage h₀ hw hrow =>
      rw [hrow] at hid
      exact absurd hrunning (h.not_running ⟨_, _, hstage⟩ hw run hr₀ hid.symm)
  | written ha hstage h₀ hw hrun =>
    rename_i i e run₀ u k
    have hrunId : run.scanId = run₀.scanId := by rw [hrun, u.apply_scanId]
    have hscan₀ := hh.running i run₀.scanId ⟨_, _, hstage⟩ hw.2.1
    cases ht.scan_origin hscan with
    | kept hmem => exact hscan₀ scan hmem (hid.trans hrunId)
    | created hnew =>
      have hlt := (hh.claims.claimed i run₀.scanId ⟨_, _, hstage⟩).1
      omega
    | flagged ha' | requeued ha' | claimed ha' =>
      rw [ha] at ha'
      cases ha'
    | ended ha' hstage' =>
      rw [ha] at ha'
      cases ha'
      rw [hstage] at hstage'
      cases congrArg Stage.head hstage'

/-- And the run that an execution has at hand. -/
theorem NoneLeft.first_step (h : NoneLeft s γ) (hh : Holds cfg.registry s γ)
    (ht : Tracks cfg s γ a s' γ') {i scanId : ℕ} (he : s'.Executes i scanId)
    (hopen : (γ' i).ended = false) : ∀ run ∈ s'.db.moduleRuns, run.scanId = scanId →
      run.status = .running →
        (γ' i).running = true ∧ ∃ m, (γ' i).todo.head? = some m ∧ run.module = m.name := by
  intro run hr hid hrunning
  cases ht.turn he with
  | beside ha he₀ hγ =>
    rw [hγ] at hopen ⊢
    cases ht.run_origin hr with
    | kept hr₀ => exact h.first i scanId he₀ hopen run hr₀ hid hrunning
    | created hnew =>
      have hlt := (hh.claims.claimed i scanId he₀).1
      omega
    | interrupted _ _ _ hrun | skipped _ _ _ _ hrun =>
      rw [hrun] at hrunning
      cases hrunning
    | written ha' hstage h₀ hw hrun =>
      -- another executor would have to be at it
      rename_i j e run₀ u k
      have hsame : run₀.scanId = scanId := by rw [← hid, hrun, u.apply_scanId]
      have hij := hh.claims.one j i scanId ⟨_, _, hsame ▸ hstage⟩ he₀
      subst hij
      exact absurd ha' (ha e)
  | claims ha hc hdb hγ =>
    have hr₀ : run ∈ s.db.moduleRuns := by
      rw [hdb] at hr
      exact hr
    obtain ⟨queued, hqs, hq⟩ := List.any_eq_true.mp hc
    obtain ⟨hqid, hq⟩ := Bool.and_eq_true_iff.mp hq
    have hstatus := h.running run hr₀ hrunning queued hqs ((eq_of_beq hqid).trans hid.symm)
    rw [eq_of_beq hq] at hstatus
    cases hstatus
  | own ha hstage hallows hw hdb hγ =>
    rename_i e o k r w
    have he₀ : s.Executes i scanId := ⟨_, _, hstage⟩
    have hsteady := h.steady i scanId he₀
    have hadvance : Advance (γ i) scanId o r (γ' i) := hγ ▸ Standing.advance hallows r
    -- a run that was running, while the execution had not ended
    have hfirst : run ∈ s.db.moduleRuns → (γ i).ended = false →
        (γ i).running = true ∧ ∃ m, (γ i).todo.head? = some m ∧ run.module = m.name :=
      fun hr₀ hopen₀ => h.first i scanId he₀ hopen₀ run hr₀ hid hrunning
    have heffect : Effect s.db o r s'.db := hdb ▸ effect_of_serve hw
    have hopen₀ : (γ i).ended = false := by
      by_cases ho : ∃ id status now, o = .updateScan id status now
      · obtain ⟨id, status, now, rfl⟩ := ho
        exact hallows.2.1
      · rw [hγ, Standing.next_ended] at hopen
        · exact hopen
        · exact fun id status now he => ho ⟨id, status, now, he⟩
    cases hadvance with
    | rests hturns htodo hon =>
      rw [htodo, hon]
      exact hfirst (heffect.runs_of_turns hturns hr) hopen₀
    | reads hreading =>
      rcases heffect.mem_runs hr with hr₀ | ⟨_, _, _, ho, _⟩ | ⟨_, _, _, _, ho, _⟩
      · have hon := (hfirst hr₀ hopen₀).1
        rw [hsteady.idle (by rw [hreading]; rfl)] at hon
        cases hon
      · cases ho
      · cases ho
    | skips hcanceling =>
      rcases heffect.mem_runs hr with hr₀ | ⟨_, _, _, ho, _⟩ | ⟨_, _, _, _, _, hrun⟩
      · have hon := (hfirst hr₀ hopen₀).1
        rw [hsteady.idle (by rw [hcanceling]; rfl)] at hon
        cases hon
      · cases ho
      · rw [hrun] at hrunning
        cases hrunning
    | opens hhead _ hoff _ htodo hon _ _ =>
      rename_i m u _ _ _ _
      rcases heffect.mem_runs hr with hr₀ | ⟨run₀, _, u', ho, hrun⟩ | ⟨_, _, _, _, ho, _⟩
      · have hon₀ := (hfirst hr₀ hopen₀).1
        rw [hoff] at hon₀
        cases hon₀
      · injection ho with _ hname _
        refine ⟨hon, m, htodo ▸ hhead, ?_⟩
        rw [hrun, u'.apply_module, hname]
      · cases ho
    | closes hhead _ hterminal _ _ _ _ =>
      rename_i m u _ _ _ _ _
      rw [heffect.runs_of_update] at hr
      obtain ⟨run₀, hr₀, ⟨-, rfl⟩ | ⟨hp, rfl⟩⟩ := mem_updateWhere.mp hr
      · rw [u.apply_status] at hrunning
        rw [hrunning] at hterminal
        cases hterminal
      · obtain ⟨-, m', hhead', hname⟩ := hfirst hr₀ hopen₀
        rw [hhead] at hhead'
        cases hhead'
        rw [hid, hname, beq_self_eq_true, beq_self_eq_true] at hp
        cases hp
    | returns _ _ _ _ _ htodo hon | stores _ _ _ htodo hon =>
      rcases heffect.mem_runs hr with hr₀ | ⟨_, _, _, ho, _⟩ | ⟨_, _, _, _, ho, _⟩
      · rw [htodo]
        exact ⟨hon, (hfirst hr₀ hopen₀).2⟩
      · cases ho
      · cases ho

theorem noneLeft_step (h : NoneLeft s γ) (hh : Holds cfg.registry s γ)
    (hs : s.step cfg a = some s') (ht : Tracks cfg s γ a s' γ') : NoneLeft s' γ' where
  steady := ht.steady h.steady
  dispatch i scanId he left hpoint := by
    cases ht.turn he with
    | beside _ he₀ hγ =>
      rw [hγ] at hpoint ⊢
      exact h.dispatch i scanId he₀ left hpoint
    | claims _ _ _ hγ =>
      rw [hγ]
      rfl
    | own _ hstage hallows _ _ hγ =>
      rw [hγ] at hpoint ⊢
      have he₀ : s.Executes i scanId := ⟨_, _, hstage⟩
      exact Standing.dispatch_next (h.steady i scanId he₀) (h.dispatch i scanId he₀) hallows _
        hpoint
  running := h.running_step hh hs ht
  first _ _ he hopen := h.first_step hh ht he hopen

/-! ### A scan that has ended -/

/-- What a runner writes of a scan that it executes, it writes before the end. -/
theorem Standing.open_of_touched {g : Standing} {scanId id : ℕ} {o : RunnerOp}
    (ha : g.allows scanId o) (ho : o.touched = some id) : id = scanId ∧ g.ended = false := by
  cases o with
  | updateScan | updateModuleRun | skipRemaining | insertFindings =>
    cases ho
    exact ⟨ha.1, ha.2.1⟩
  | _ => cases ho

/-- **One step.** What is stored of a scan that has ended stays, or goes with the scan. -/
theorem evidenceOf_step (hh : Holds cfg.registry s γ) (h : NoneLeft s γ)
    (hs : s.step cfg a = some s') (ht : Tracks cfg s γ a s' γ') {scanId : ℕ}
    (hlt : scanId < s.db.nextId)
    (hterminal : ∀ scan ∈ s.db.scans, scan.id = scanId → scan.status.isTerminal = true)
    (hnew : s'.db.hasScan scanId = true) : s'.db.evidenceOf scanId = s.db.evidenceOf scanId := by
  have hdel := (extends_step hs).not_deleted hlt hnew
  obtain ⟨scan, hscan, hid⟩ := List.any_eq_true.mp ((extends_step hs).not_hasScan hlt hnew)
  have hid : scan.id = scanId := eq_of_beq hid
  have hstatus : ∀ {status : ScanStatus}, status.isTerminal = false →
      ∀ scan ∈ s.db.scans, scan.id = scanId → scan.status ≠ status := by
    intro status hopen scan hscan hid heq
    rw [← heq, hterminal scan hscan hid] at hopen
    cases hopen
  cases ht with
  | rests _ _ hdb => exact hdb.read (f := fun db => db.evidenceOf scanId) fun _ => rfl
  | api hserves => exact hserves.evidenceOf hlt hdel
  | recovers =>
    refine Db.evidenceOf_recover (hstatus rfl) fun run hr hrun hrunning => ?_
    have hon := h.running run hr hrunning scan hscan (hid.trans hrun.symm)
    exact hstatus rfl scan hscan hid hon
  | claims => exact Db.evidenceOf_claim (hstatus rfl)
  | executes hstage ha hw =>
    rw [Sys.deleted_serve (congrArg Stage.head hstage)] at hdel
    refine (effect_of_serve hw).evidenceOf (fun ho => ?_) hdel
    obtain ⟨rfl, hopen⟩ := Standing.open_of_touched ha ho
    exact hstatus rfl scan hscan hid (hh.running _ _ ⟨_, _, hstage⟩ hopen scan hscan hid)
  | sweeps hstage ha hw =>
    rename_i i e o k p r w _
    rw [Sys.deleted_serve (congrArg Stage.head hstage)] at hdel
    refine (effect_of_serve hw).evidenceOf (fun ho => ?_) hdel
    cases o with
    | updateScan | updateModuleRun | skipRemaining | insertFindings => exact ha.elim
    | _ => cases ho
  | beside _ he ho =>
    rcases ho with ⟨row, rfl⟩ | ⟨ledger, entry, rfl⟩
    · exact he.evidenceOf nofun List.not_mem_nil
    · exact he.evidenceOf nofun List.not_mem_nil

/-- The runners hold what they should, and no run is left running. -/
structure Settled (cfg : Config) (s : Sys) (γ : ℕ → Standing) : Prop where
  holds : Holds cfg.registry s γ
  none : NoneLeft s γ

theorem settled_step (h : Settled cfg s γ) (hok : RecoversAlone s a) (hs : s.step cfg a = some s')
    (ht : Tracks cfg s γ a s' γ') : Settled cfg s' γ' :=
  ⟨holds_step h.holds hok hs ht, noneLeft_step h.none h.holds hs ht⟩

/-- It holds in every state that is reached with recoveries alone. -/
theorem exec_settled {clock : ℚ} {ls : List SysAct}
    (hm : Meets (Sys.step cfg) RecoversAlone (.init .empty clock) ls)
    (hr : exec (Sys.step cfg) (.init .empty clock) ls = some s) :
    ∃ γ, Tracked cfg s γ ∧ Settled cfg s γ :=
  exec_tracked (I := Settled cfg) (fun _ _ _ _ _ _ h hok hs ht => settled_step h hok hs ht)
    ⟨holds_init cfg.registry clock _, noneLeft_init clock _⟩ hm hr

end

/-- **A finished scan stays as it is.** From a state in which a scan is terminal, with
recoveries alone, its row, its module runs and its findings are the same in every state to
come that still has the scan, but for the flag of a cancel. -/
theorem finished_frozen (cfg : Config) (clock : ℚ) (ls ms : List SysAct) (s s' : Sys)
    (hm : Meets (Sys.step cfg) RecoversAlone (.init .empty clock) (ls ++ ms))
    (hr : exec (Sys.step cfg) (.init .empty clock) ls = some s)
    (hr' : exec (Sys.step cfg) s ms = some s') (scan : ScanRow) (hscan : scan ∈ s.db.scans)
    (hterminal : scan.status.isTerminal = true) (hnew : s'.db.hasScan scan.id = true) :
    s'.db.evidenceOf scan.id = s.db.evidenceOf scan.id := by
  obtain ⟨hm, hm'⟩ := Meets.of_append hm hr
  obtain ⟨γ, ht, hsettled⟩ := exec_settled hm hr
  have hlt := hsettled.holds.integral.fresh scan hscan
  -- as long as the scan is there, what is stored is the same, so it is terminal still
  let I : Sys → (ℕ → Standing) → Prop := fun u δ => Settled cfg u δ ∧ scan.id < u.db.nextId ∧
    (u.db.hasScan scan.id = true → u.db.evidenceOf scan.id = s.db.evidenceOf scan.id)
  have hI : ∀ u δ a u' δ', Tracked cfg u δ → I u δ → RecoversAlone u a → u.step cfg a = some u' →
      Tracks cfg u δ a u' δ' → I u' δ' := by
    rintro u δ a u' δ' - ⟨hu, hlt, hsame⟩ hok hs hstep
    have hextends := extends_step hs
    refine ⟨settled_step hu hok hs hstep, lt_of_lt_of_le hlt hextends.nextId, fun hthere => ?_⟩
    have hsame := hsame (hextends.not_hasScan hlt hthere)
    rw [evidenceOf_step hu.holds hu.none hs hstep hlt (fun r hr hid => ?_) hthere, hsame]
    have hmem : { r with cancelRequested := false } ∈ (u.db.evidenceOf scan.id).1 :=
      List.mem_map.mpr ⟨r, List.mem_filter.mpr ⟨hr, beq_iff_eq.mpr hid⟩, rfl⟩
    rw [hsame] at hmem
    obtain ⟨scan₀, hs₀, heq⟩ := List.mem_map.mp hmem
    obtain ⟨hs₀, hid₀⟩ := List.mem_filter.mp hs₀
    have hscan₀ := hsettled.holds.integral.eq_of_id hs₀ hscan (eq_of_beq hid₀)
    have hstatus : scan₀.status = r.status := congrArg (fun r => r.status) heq
    rw [← hstatus, hscan₀]
    exact hterminal
  obtain ⟨-, -, -, -, hsame⟩ := run_tracked (I := I) hI ht ⟨hsettled, hlt, fun _ => rfl⟩ hm' hr'
  exact hsame hnew

/-- The scan of the lab, as it is completed. -/
def completedScan : ScanRow :=
  { labRequest.row 1 0 with
    status := .completed, claimedBy := some 0, startedAt := some 0, finishedAt := some 0 }

/-- A cancel that is late, and runner 0 crashes and starts again. -/
def restarts : List SysAct :=
  .api (.cancelScan .running 1) :: .run 0 .crash :: (startsAt 0 0).take 7

theorem finished_frozen_lab : ((exec (Sys.step labConfig) (.init .empty 0)
    (resumes 11 28 ++ restarts)).get (by decide +kernel)).db.evidenceOf completedScan.id =
      ((exec (Sys.step labConfig) (.init .empty 0) (resumes 11 28)).get
        (by decide +kernel)).db.evidenceOf completedScan.id := by
  have hrun := Option.some_get (x := exec (Sys.step labConfig) (.init .empty 0) (resumes 11 28))
    (by decide +kernel)
  have hruns := (exec_append (Sys.step labConfig) (resumes 11 28) restarts _).trans
    (congrArg (·.bind fun s => exec (Sys.step labConfig) s restarts) hrun.symm)
  exact finished_frozen labConfig 0 (resumes 11 28) restarts
    ((exec (Sys.step labConfig) (.init .empty 0) (resumes 11 28)).get (by decide +kernel)) _
    (recoversAlone_of_by (i := 0) (by decide) fun _ _ => rfl) hrun.symm
    (hruns.symm.trans (Option.some_get _).symm) completedScan (by decide +kernel) rfl
    (by decide +kernel)

/-! ### The status of a scan -/

/-- How a status changes in a step. -/
inductive StatusStep : ScanStatus → ScanStatus → Prop
  | stays (status : ScanStatus) : StatusStep status status
  | claimed : StatusStep .queued .running
  | requeued : StatusStep .running .queued
  | ended {status : ScanStatus} (h : status.isTerminal = true) : StatusStep .running status

/-- What a step does to the scans: their statuses change as they may, a new one is queued,
one that goes was deleted by a request or has ended, and leaves nothing. -/
structure StepsOn (s : Sys) (a : SysAct) (s' : Sys) : Prop where
  changes : ∀ scan ∈ s.db.scans, ∀ scan' ∈ s'.db.scans, scan'.id = scan.id →
    StatusStep scan.status scan'.status
  begins : ∀ scan ∈ s'.db.scans, s.db.hasScan scan.id = false → scan.status = .queued
  goes : ∀ scan ∈ s.db.scans, s'.db.hasScan scan.id = false →
    (a = .api (.deleteScan scan.id) ∨ scan.status.isTerminal = true) ∧
      s'.db.evidenceOf scan.id = ([], [], [])

section

variable {cfg : Config} {s s' : Sys} {γ γ' : ℕ → Standing} {a : SysAct}

theorem Holds.status_step (h : Holds cfg.registry s γ) (ht : Tracks cfg s γ a s' γ') :
    ∀ scan ∈ s.db.scans, ∀ scan' ∈ s'.db.scans, scan'.id = scan.id →
      StatusStep scan.status scan'.status := by
  intro scan hscan scan' hscan' hid
  have hsame : ∀ {scan₀ : ScanRow}, scan₀ ∈ s.db.scans → scan₀.id = scan.id → scan₀ = scan :=
    fun h₀ hid₀ => h.integral.eq_of_id h₀ hscan hid₀
  cases ht.scan_origin hscan' with
  | kept h₀ =>
    rw [hsame h₀ hid]
    exact .stays _
  | created hnew =>
    have hlt := h.integral.fresh scan hscan
    omega
  | flagged _ _ h₀ hrow =>
    rw [hrow] at hid ⊢
    rw [← hsame h₀ hid]
    exact .stays _
  | requeued _ _ h₀ hrunning hrow =>
    rw [hrow] at hid ⊢
    rw [← hsame h₀ hid, hrunning]
    exact .requeued
  | claimed _ h₀ hqueued hrow =>
    rw [hrow] at hid ⊢
    rw [← hsame h₀ hid, hqueued]
    exact .claimed
  | ended _ hstage h₀ hw hrow =>
    rename_i i e scan₀ status now k _
    rw [hrow] at hid ⊢
    have hrunning := h.running i scan₀.id ⟨_, _, hstage⟩ hw.2.1 scan₀ h₀ rfl
    rw [← hsame h₀ hid, hrunning]
    exact .ended (Standing.updateScan_terminal hw)

/-- What is deleted was asked for, or has ended. -/
theorem Selected.deleted {selected : List (ℕ × ℚ)} (h : Selected cfg.registry selected s γ)
    (ht : Tracks cfg s γ a s' γ') {scan : ScanRow} (hscan : scan ∈ s.db.scans)
    (hdel : scan.id ∈ s.deleted a) :
    a = .api (.deleteScan scan.id) ∨ scan.status.isTerminal = true := by
  cases a with
  | tick d => exact absurd hdel List.not_mem_nil
  | api a =>
    cases a with
    | deleteScan scanId =>
      rw [List.mem_singleton.mp hdel]
      exact Or.inl rfl
    | _ => exact absurd hdel List.not_mem_nil
  | run i m =>
    cases m with
    | serve e =>
      obtain ⟨-, hexpired⟩ := ht.deletes (List.ne_nil_of_mem hdel)
      rw [hexpired] at hdel
      obtain ⟨-, cutoff, -, hold⟩ := h.expired i scan.id hdel
      exact Or.inr (hold scan hscan rfl).1
    | _ => exact absurd hdel List.not_mem_nil

/-- Where there is no scan, there is nothing of it. -/
theorem Db.Integral.evidenceOf {registry : ModuleRegistry} {db : Db} (h : db.Integral registry)
    {scanId : ℕ} (hnone : db.hasScan scanId = false) : db.evidenceOf scanId = ([], [], []) := by
  have hne : ∀ {id : ℕ}, db.hasScan id = true → ¬ (id == scanId) = true := fun hid heq => by
    rw [eq_of_beq heq, hnone] at hid
    cases hid
  unfold Db.evidenceOf
  rw [List.filter_eq_nil_iff.mpr, List.filter_eq_nil_iff.mpr, List.filter_eq_nil_iff.mpr]
  · rfl
  · exact fun row hrow => hne (h.findings row hrow)
  · exact fun run hrun => hne (h.hasScan_run hrun)
  · exact fun scan hscan => hne (List.any_eq_true.mpr ⟨scan, hscan, beq_self_eq_true scan.id⟩)

end

end ScanLedger
