/-
# A finished scan

Of a scan's module runs those that are still to come are open, and at the end
of the loop none is: each run was closed, and with a reason unless it is done.
A scan that ends before the loop, since its target was refused at dispatch,
leaves its runs as they are, which is queued unless an earlier execution has
closed them.

Key definitions: `Finished`, `EndsClosed`, `RunsClosed`.
Key theorems: `closed_step`, `finished_closed`.
-/
import ScanLedger.Holding

namespace ScanLedger

open Prog Run Table

/-! ### The property, and its condition -/

/-- A run that is closed says why, unless it is done. -/
def ModuleRunRow.explained (run : ModuleRunRow) : Prop :=
  run.status.isTerminal = true → run.status ≠ .done → run.safeErrorMessage.isSome = true

/-- The runs of a terminal scan are closed, each with a reason unless it is done. -/
def Finished (db : Db) : Prop :=
  ∀ scan ∈ db.scans, scan.status.isTerminal = true →
    ∀ run ∈ db.moduleRuns, run.scanId = scan.id →
      run.status.isTerminal = true ∧ (run.status ≠ .done → run.safeErrorMessage.isSome = true)

/-- The scan that ends next, and before its modules: its scope is gone, or its
target refused. -/
def Stage.refuses : Stage → Option ℕ
  | .executing scanId (.dispatching _) (.op (.updateScan _ _ _) _) => some scanId
  | _ => none

/-- A scan that ends before its modules finds all of its runs closed. -/
def EndsClosed (s : Sys) : SysAct → Prop
  | .run i (.serve _) => ∀ scanId ∈ (s.procs i).stage.refuses, s.db.TerminalBut scanId []
  | _ => True

/-! ### The invariant -/

/-- Between the read of the scan and its last event. -/
def Point.isOngoing : Point → Bool
  | .reading | .finished => false
  | .dispatching _ | .looping _ | .checked _ | .canceling => true

structure RunsClosed (s : Sys) (γ : ℕ → Standing) : Prop where
  explained : ∀ run ∈ s.db.moduleRuns, run.explained
  terminal : ∀ scan ∈ s.db.scans, scan.status.isTerminal = true → s.db.TerminalBut scan.id []
  todo : ∀ i scanId, s.Executes i scanId → (γ i).point.isOngoing = true →
    s.db.TerminalBut scanId ((γ i).todo.map (·.name))

section

variable {cfg : Config} {s s' : Sys} {γ γ' : ℕ → Standing} {a : SysAct}

theorem RunsClosed.finished (h : RunsClosed s γ) : Finished s.db := by
  intro scan hs hterminal run hr hid
  rcases h.terminal scan hs hterminal run hr hid with hclosed | hmem
  · exact ⟨hclosed, h.explained run hr hclosed⟩
  · cases hmem

theorem closed_init (clock : ℚ) (γ : ℕ → Standing) : RunsClosed (.init .empty clock) γ where
  explained _ h := absurd h List.not_mem_nil
  terminal _ h := absurd h List.not_mem_nil
  todo i scanId h := by
    obtain ⟨point, rest, h⟩ := h
    cases h

/-! ### Every run says why -/

theorem Standing.explained_of_writes {g : Standing} {u : ModuleUpdate} {run : ModuleRunRow}
    (hw : g.writes u) : (u.apply run).explained := by
  have hmessage : (u.apply run).safeErrorMessage = (u.reason <|> run.safeErrorMessage) := by
    unfold ModuleUpdate.apply
    split <;> rfl
  have hreason : u.reason.isSome = true → (u.apply run).safeErrorMessage.isSome = true := by
    intro hsome
    obtain ⟨reason, hr⟩ := Option.isSome_iff_exists.mp hsome
    rw [hmessage, hr]
    rfl
  intro hterminal hdone
  rw [u.apply_status] at hterminal hdone
  unfold Standing.writes at hw
  cases hstatus : u.status with
  | running => rw [hstatus] at hterminal; cases hterminal
  | notApplicable => rw [hstatus] at hw; exact hreason hw.2.2
  | failed => rw [hstatus] at hw; exact hreason hw.2.2
  | done => exact absurd hstatus hdone
  | queued | skipped | interrupted => rw [hstatus] at hw; exact hw.elim

theorem RunsClosed.explained_step (h : RunsClosed s γ) (ht : Tracks cfg s γ a s' γ') :
    ∀ run ∈ s'.db.moduleRuns, run.explained := by
  intro run hr
  cases ht.run_origin hr with
  | kept hr => exact h.explained run hr
  | created hid hstatus =>
    intro hterminal
    rw [hstatus] at hterminal
    cases hterminal
  | interrupted ha h₀ hrunning hrun =>
    rw [hrun]
    exact fun _ _ => rfl
  | written ha hstage h₀ hw hrun =>
    obtain ⟨-, -, m, rest, -, -, hw⟩ := hw
    rw [hrun]
    exact Standing.explained_of_writes hw
  | skipped ha hstage h₀ hw hrun =>
    rw [hrun]
    exact fun _ _ => rfl

/-! ### Terminal scans -/

/-- Whatever the status that ends a scan, its runs are closed by then. -/
theorem RunsClosed.ends (h : RunsClosed s γ) (hok : EndsClosed s a) {i scanId : ℕ} {e : Answers}
    {status : ScanStatus} {now : ℚ} {k : Except Exn Unit → Runner ScanStatus}
    (ha : a = .run i (.serve e))
    (hstage : (s.procs i).stage =
      .executing scanId (γ i).point (.op (.updateScan scanId status now) k))
    (hw : (γ i).allows scanId (.updateScan scanId status now)) : s.db.TerminalBut scanId [] := by
  have hloop : (γ i).point.isOngoing = true → (γ i).todo = [] → s.db.TerminalBut scanId [] := by
    intro hpoint htodo
    have hrest := h.todo i scanId ⟨_, _, hstage⟩ hpoint
    rwa [htodo] at hrest
  have hcloses : (γ i).closes status := hw.2.2
  unfold Standing.closes at hcloses
  split at hcloses
  · obtain ⟨hpoint, -, htodo⟩ := hcloses
    exact hloop (by rw [hpoint]; rfl) htodo
  · rcases hcloses with ⟨left, hpoint⟩ | ⟨hpoint, htodo⟩
    · -- before the loop, where the condition says so
      subst ha
      exact hok scanId (by rw [hstage, hpoint]; rfl)
    · exact hloop (by rw [hpoint]; rfl) htodo
  · exact hloop (by rw [hcloses.1]; rfl) hcloses.2
  · exact hloop (by rw [hcloses.1]; rfl) hcloses.2
  · exact hcloses.elim
  · exact hcloses.elim

theorem RunsClosed.terminal_step (h : RunsClosed s γ) (hh : Holds cfg.registry s γ)
    (hok : EndsClosed s a) (ht : Tracks cfg s γ a s' γ') :
    ∀ scan ∈ s'.db.scans, scan.status.isTerminal = true → s'.db.TerminalBut scan.id [] := by
  -- a terminal scan is at nobody's hands
  have hstays : ∀ scan₀ ∈ s.db.scans, scan₀.status.isTerminal = true →
      s'.db.TerminalBut scan₀.id [] := by
    intro scan₀ h₀ hterminal
    refine ht.terminalBut (hh.integral.fresh scan₀ h₀) (fun i e _ he => ?_)
      (h.terminal scan₀ h₀ hterminal)
    by_contra hended
    have hrunning := hh.running i scan₀.id he (by simpa using hended) scan₀ h₀ rfl
    rw [hrunning] at hterminal
    cases hterminal
  intro scan hs hterminal
  cases ht.scan_origin hs with
  | kept hs => exact hstays scan hs hterminal
  | created hid hstatus =>
    rw [hstatus] at hterminal
    cases hterminal
  | flagged ha hseen h₀ hrow =>
    rename_i seen scan₀
    subst hrow
    exact hstays scan₀ h₀ hterminal
  | requeued ha hstart h₀ hrunning hrow =>
    subst hrow
    cases hterminal
  | claimed ha h₀ hqueued hrow =>
    subst hrow
    cases hterminal
  | ended ha hstage h₀ hw hrow =>
    rename_i i e scan₀ status now k
    have hnone : s.db.TerminalBut scan₀.id [] := h.ends hok ha hstage hw
    subst hrow
    intro run hr hid
    cases ht.run_origin hr with
    | kept hr => exact hnone run hr hid
    | created hnew =>
      have hlt := hh.integral.fresh scan₀ h₀
      rw [hnew] at hid
      exact absurd hid hlt.ne'
    | interrupted ha' =>
      rw [ha] at ha'
      cases ha'
    | written ha' hstage' | skipped ha' hstage' =>
      rw [ha] at ha'
      cases ha'
      rw [hstage] at hstage'
      cases (congrArg Stage.head hstage' : some _ = some _)

/-! ### The modules to come -/

/-- A sound scan has its selected modules to come. -/
theorem mem_selection {registry : ModuleRegistry} {scan : ScanRow}
    (h : scan.sound registry = true) {name : String} (hname : name ∈ scan.selectedModules) :
    name ∈ (registry.selection scan).map (·.name) := by
  have hall := List.all_eq_true.mp (Bool.and_eq_true_iff.mp h).2
  obtain ⟨modules, ho, hperm⟩ := ModuleRegistry.ordered_of_has hall
  unfold ModuleRegistry.selection
  rw [ho]
  exact hperm.mem_iff.mpr hname

/-- The read of the scan. -/
def RunnerOp.begins : RunnerOp → Bool
  | .getScan _ => true
  | _ => false

/-- What may change the modules that are still to come. -/
def RunnerOp.setsTodo : RunnerOp → Bool
  | .getScan _ | .updateModuleRun _ _ _ | .skipRemaining _ _ _ => true
  | _ => false

theorem Point.isOngoing_of_next {point : Point} {o : RunnerOp} {r : Except Exn o.Answer}
    (ho : o.begins = false) (h : (point.next o r).isOngoing = true) :
    point.isOngoing = true := by
  have hmoves := point.moves_next o r
  generalize point.next o r = point' at hmoves h
  cases hmoves with
  | stays => exact h
  | reads => cases ho
  | checks id hpoint | writes id module u left' hpoint => rcases hpoint with rfl | rfl <;> rfl
  | finishes => cases h

theorem Standing.next_todo (registry : ModuleRegistry) (g : Standing) {o : RunnerOp}
    (r : Except Exn o.Answer) (ho : o.setsTodo = false) :
    (g.next registry o r).todo = g.todo := by
  rw [next_after (·.todo) fun _ _ _ => rfl]
  cases o with
  | getScan | updateModuleRun | skipRemaining => cases ho
  | _ => cases r <;> rfl

/-- What another does leaves the runs of an executor's scan to it. -/
theorem RunsClosed.beside (h : RunsClosed s γ) (hh : Holds cfg.registry s γ)
    (ht : Tracks cfg s γ a s' γ') {j scanId : ℕ} (he : s.Executes j scanId)
    (hmine : ∀ e, a ≠ .run j (.serve e)) (hpoint : (γ j).point.isOngoing = true) :
    s'.db.TerminalBut scanId ((γ j).todo.map (·.name)) := by
  refine ht.terminalBut (hh.claims.claimed j scanId he).1 (fun i e ha hi => ?_)
    (h.todo j scanId he hpoint)
  have hij : i = j := hh.claims.one i j scanId hi he
  subst hij
  exact absurd ha (hmine e)

/-- An executor's own statement closes a run, or leaves it to come. -/
theorem RunsClosed.own (h : RunsClosed s γ) (hh : Holds cfg.registry s γ) {i scanId : ℕ}
    {e : Answers} {o : RunnerOp} {k : Except Exn o.Answer → Runner ScanStatus}
    (hstage : (s.procs i).stage = .executing scanId (γ i).point (.op o k))
    (ha : (γ i).allows scanId o) {r : Except Exn o.Answer} {w : World}
    (hw : World.serve e ⟨s.db, (s.procs i).ticker⟩ o = (r, w))
    (hpoint : ((γ i).next cfg.registry o r).point.isOngoing = true) :
    w.db.TerminalBut scanId (((γ i).next cfg.registry o r).todo.map (·.name)) := by
  have hongoing : o.begins = false →
      s.db.TerminalBut scanId ((γ i).todo.map (·.name)) := by
    intro ho
    rw [Standing.next_point] at hpoint
    exact h.todo i scanId ⟨_, _, hstage⟩ (Point.isOngoing_of_next ho hpoint)
  cases o with
  | getScan id =>
    cases hw
    obtain ⟨rfl, hreading⟩ := ha
    rw [Standing.next_point, hreading] at hpoint
    rw [Standing.next_after (·.todo) fun _ _ _ => rfl]
    cases hfound : s.db.getScan id with
    | none =>
      rw [hfound] at hpoint
      cases hpoint
    | some scan =>
      intro run hr hid
      right
      obtain ⟨scan', hs', hid', hmem⟩ := hh.integral.runs run hr
      have hs := List.mem_of_find?_eq_some hfound
      have hscanId : scan.id = id :=
        eq_of_beq (List.find?_some (p := fun r : ScanRow => r.id == id) hfound)
      have hsame : scan' = scan := by
        refine hh.integral.eq_of_id hs' hs ?_
        rw [hid', hid, hscanId]
      subst hsame
      exact mem_selection (hh.integral.sound scan' hs) hmem
  | updateModuleRun id name u =>
    cases hw
    obtain ⟨rfl, -, m, rest, htodo, rfl, hwrites⟩ := ha
    have hrest := hongoing rfl
    rw [Standing.next_after (·.todo) fun _ _ _ => rfl]
    rw [htodo, List.map_cons] at hrest
    show (s.db.updateModuleRun id m.name u).TerminalBut id (((γ i).wrote u).todo.map (·.name))
    unfold Standing.wrote
    cases hterminal : u.status.isTerminal with
    | true =>
      rw [htodo]
      exact hrest.close hterminal
    | false =>
      show (s.db.updateModuleRun id m.name u).TerminalBut id ((γ i).todo.map (·.name))
      rw [htodo]
      exact hrest.write u
  | skipRemaining id reason now =>
    cases hw
    obtain ⟨rfl, -⟩ := ha
    intro run hr hid
    left
    obtain ⟨run₀, h₀, ⟨-, rfl⟩ | ⟨hp, rfl⟩⟩ := mem_updateWhere.mp hr
    · rfl
    · cases hstatus : run.status <;> simp [hid, hstatus] at hp <;> rfl
  | _ =>
    rw [Standing.next_todo cfg.registry (γ i) r rfl]
    intro run hr hid
    rcases (effect_of_serve hw).mem_runs hr with hr | ⟨run₀, -, u, ho, -⟩ |
      ⟨run₀, -, reason, now, ho, -⟩
    · exact hongoing rfl run hr hid
    · cases ho
    · cases ho

theorem RunsClosed.todo_step (h : RunsClosed s γ) (hh : Holds cfg.registry s γ)
    (ht : Tracks cfg s γ a s' γ') (j scanId : ℕ) (he : s'.Executes j scanId)
    (hpoint : (γ' j).point.isOngoing = true) :
    s'.db.TerminalBut scanId ((γ' j).todo.map (·.name)) := by
  cases ht.turn he with
  | beside ha he hγ =>
    rw [hγ] at hpoint ⊢
    exact h.beside hh ht he ha hpoint
  | claims ha hc hdb hγ =>
    rw [hγ] at hpoint
    cases hpoint
  | own ha hstage hallows hw hdb hγ =>
    rw [hγ] at hpoint ⊢
    rw [hdb]
    exact h.own hh hstage hallows hw hpoint

/-- **One step.** -/
theorem closed_step (h : RunsClosed s γ) (hh : Holds cfg.registry s γ) (hok : EndsClosed s a)
    (ht : Tracks cfg s γ a s' γ') : RunsClosed s' γ' where
  explained := h.explained_step ht
  terminal := h.terminal_step hh hok ht
  todo := h.todo_step hh ht

end

/-- **A finished scan has no unfinished modules**, in every run in which whoever
recovers is alone and no scan with an open run is refused at dispatch. -/
theorem finished_closed (cfg : Config) (clock : ℚ) (ls : List SysAct) (s : Sys)
    (hm : Meets (Sys.step cfg) (fun s a => RecoversAlone s a ∧ EndsClosed s a)
      (.init .empty clock) ls)
    (hr : exec (Sys.step cfg) (.init .empty clock) ls = some s) : Finished s.db := by
  obtain ⟨γ, -, -, hclosed⟩ := exec_tracked
    (I := fun s γ => Holds cfg.registry s γ ∧ RunsClosed s γ)
    (fun _ _ _ _ _ _ hi hok hs ht =>
      ⟨holds_step hi.1 hok.1 hs ht, closed_step hi.2 hi.1 hok.2 ht⟩)
    ⟨holds_init cfg.registry clock _, closed_init clock _⟩ hm hr
  exact hclosed.finished

/-! ### A scope that was edited -/

instance (db : Db) (scanId : ℕ) (names : List String) : Decidable (db.TerminalBut scanId names) :=
  inferInstanceAs (Decidable (∀ r ∈ db.moduleRuns, r.scanId = scanId →
    r.status.isTerminal = true ∨ r.module ∈ names))

instance (s : Sys) : ∀ a, Decidable (EndsClosed s a)
  | .run i (.serve _) =>
    inferInstanceAs (Decidable (∀ scanId ∈ (s.procs i).stage.refuses, s.db.TerminalBut scanId []))
  | .tick _ | .api _ | .run _ (.acquire _) | .run _ .write | .run _ .release | .run _ .delete
  | .run _ (.beat _) | .run _ .recover | .run _ .look | .run _ .claim | .run _ (.tick _ _)
  | .run _ .tock | .run _ (.record _) | .run _ .crash => inferInstanceAs (Decidable True)

/-- The lab's scope is edited so that the scan's target is no longer in it. -/
def narrowed : SysAct :=
  .api (.updateScope ⟨0, "lab", ["127.0.0.0/24", "10.10.0.0/24"], false, false⟩
    ⟨"lab", ["127.0.0.0/24"], false, false⟩)

/-- Runner 0 carries out so many statements. -/
def serves (n : ℕ) : List SysAct := List.replicate n (.run 0 (.serve labAnswers))

theorem finished_closed_lab :
    Finished ((exec (Sys.step labConfig) (.init .empty 0)
      (labRequests ++ startsAt 0 0 ++ serves 29)).get (by decide +kernel)).db :=
  have halone : Meets (Sys.step labConfig) RecoversAlone (.init .empty 0)
      (labRequests ++ startsAt 0 0 ++ serves 29) :=
    recoversAlone_of_by (i := 0) (by decide) fun _ _ => rfl
  finished_closed labConfig 0 (labRequests ++ startsAt 0 0 ++ serves 29) _
    (halone.and (by decide +kernel)) (Option.some_get _).symm

/-- The target is refused at dispatch: the scan is failed, and its run stays queued. -/
theorem not_finished_closed : ¬ ∀ (cfg : Config) (clock : ℚ) (ls : List SysAct) (s : Sys),
    exec (Sys.step cfg) (.init .empty clock) ls = some s → Finished s.db := by
  intro h
  let ls := labRequests ++ narrowed :: startsAt 0 0 ++ serves 7
  have hfinished := h labConfig 0 ls _
    (Option.some_get (x := exec (Sys.step labConfig) (.init .empty 0) ls) (by decide +kernel)).symm
  unfold Finished at hfinished
  exact absurd hfinished (by decide +kernel)

end ScanLedger
