/-
# Completion

Does an execution keep on whatever its modules do? `execute_scan` has a clause
for a result, the timeout, `BudgetExceeded`, `ModuleError` and `TargetRejected`;
any other exception of `module.run` goes through it and ends the worker's loop.
A refusal at dispatch ends the scan and leaves its module runs as they are.

Key definitions: `Claimed`, `ModuleRegistry.applicable`, `ScanEnv.verdict`,
`KeepsOn`.
Key theorems: `obeys_dispatch`, `obeys_executeScan`, `execute_keepsOn_iff`.
-/
import ScanLedger.Decisions
import ScanLedger.Execution

namespace ScanLedger

open Prog Table
open Governor (limitsOf intensityProfiles)

/-! ### A claimed scan -/

/-- A scan that was claimed, nobody cancels and `create_scan` let through: its
scope passes `create`, its profile is known, its modules are registered, and it
has a run for each of them. -/
structure Claimed (registry : ModuleRegistry) (db : Db) (scan : ScanRow)
    (scopeRow : ScopeProfileRow) (scope : ScopeProfile) : Prop where
  found : db.getScan scan.id = some scan
  running : scan.status = .running
  notCanceled : scan.cancelRequested = false
  scopeFound : db.getScope scan.scopeId = some scopeRow
  created : ScopeProfile.create scopeRow.name scopeRow.entries scopeRow.allowCgnat
    scopeRow.allowLinkLocal = .ok scope
  intensity : ∃ L, limitsOf scan.intensityProfile intensityProfiles = .ok L
  registered : ∀ name ∈ scan.selectedModules, registry.has name = true
  runs : db.modulesOf scan.id = scan.selectedModules

/-- The selected modules that apply to the target, in their order. -/
def ModuleRegistry.applicable (registry : ModuleRegistry) (scan : ScanRow) :
    List ModuleMetadata :=
  match registry.ordered scan.selectedModules with
  | .ok modules => modules.filter (·.appliesTo scan.targetType)
  | .error _ => []

/-- The guard's calls in this environment: names resolve as it says. -/
def ScanEnv.guard (env : ScanEnv) : Env := { Env.calm [] with resolve := env.resolve }

/-- What `validate_target` says of the target. -/
def ScanEnv.verdict (env : ScanEnv) (scope : ScopeProfile) (targetInput : String) :
    Except Exn ValidatedTarget :=
  ((validateTarget scope targetInput).run (handle env.guard) (.new false)).1

/-- The execution returned a terminal status and stored it, with a terminal
status for every module run, and once it ran a module it ran all that apply. -/
def KeepsOn (registry : ModuleRegistry) (scan : ScanRow) (r : Except Exn ScanStatus × Course) :
    Prop :=
  ∃ status, r.1 = .ok status ∧ status.isTerminal = true ∧
    (r.2.ran = [] ∨ r.2.ran = (registry.applicable scan).map (·.name)) ∧
    Closed scan.id scan.selectedModules status r.2

section

variable {registry : ModuleRegistry} {retentionDays : ℕ} {env : ScanEnv} {db : Db} {scan : ScanRow}
  {scopeRow : ScopeProfileRow} {scope : ScopeProfile} {c : Course} {E : Exn → Course → Prop}

/-! ### Dispatch -/

/-- A program that only resolves and records comes to the same in the runner as
it does on its own, where names resolve alike and every entry is stored. -/
theorem obeys_guarded_of {σ : Type} (serve : σ → (o : RunnerOp) → Except Exn o.Answer × σ)
    (R : σ → σ → Prop) {guard : Env} (ledger : DatabaseLedger) (hsink : guard.SinkWorks)
    (htrans : ∀ s s' s'', R s s' → R s' s'' → R s s'')
    (hresolve : ∀ s hostname, serve s (.guard ledger (.resolve hostname)) =
      ((guard.resolve hostname).mapError ResolveError.exn, s))
    (hrecord : ∀ s entry, R s s →
      ∃ s', serve s (.guard ledger (.record entry)) = (.ok (), s') ∧ R s s' ∧ R s' s')
    {α : Type} (call : Call) : ∀ {p : Guard α} {s : σ},
    p.Always (fun o => (∃ hostname, o = .resolve hostname) ∨ ∃ entry, o = .record entry)
      (fun _ => True) →
    R s s →
    (guarded ledger p).Obeys (ofHandler serve)
      (fun a s' => (p.run (handle guard) call).1 = .ok a ∧ R s s')
      (fun x s' => (p.run (handle guard) call).1 = .error x ∧ R s s') s := by
  intro p
  induction p generalizing call with
  | ret a => exact fun _ hs => .ret ⟨rfl, hs⟩
  | raise x => exact fun _ hs => .raise ⟨rfl, hs⟩
  | op o k ih =>
    intro s hp hs
    have hhead : (Prog.op o k).head = some o := rfl
    obtain ⟨hpre, hnext⟩ := Obeys.answer hp hhead
    have hk : ∀ r : Except Exn o.Answer, (k r).Always
        (fun o => (∃ hostname, o = .resolve hostname) ∨ ∃ entry, o = .record entry)
        (fun _ => True) := by
      intro r
      cases hp with
      | op _ hk => exact hk r trivial
    rcases hpre with ⟨hostname, rfl⟩ | ⟨entry, rfl⟩
    · refine .op trivial fun r hr => ?_
      have hr : r = (serve s (.guard ledger (.resolve hostname))).1 := hr
      rw [hresolve] at hr
      subst hr
      change (guarded ledger (k _)).Obeys (ofHandler serve) _ _
        (serve s (.guard ledger (.resolve hostname))).2
      rw [hresolve]
      exact ih _ call (hk _) hs
    · obtain ⟨s', hserve, hR, hs'⟩ := hrecord s entry hs
      refine .op trivial fun r hr => ?_
      have hr : r = (serve s (.guard ledger (.record entry))).1 := hr
      rw [hserve] at hr
      subst hr
      change (guarded ledger (k (.ok ()))).Obeys (ofHandler serve) _ _
        (serve s (.guard ledger (.record entry))).2
      rw [hserve]
      have hrun : ((Prog.op (.record entry) k).run (handle guard) call).1 =
          ((k (.ok ())).run (handle guard) (call.wrote guard entry)).1 := by
        rw [run_op, handle, hsink entry]
        rfl
      rw [hrun]
      refine Obeys.mono (ih (.ok ()) (call.wrote guard entry) (hk _) hs') ?_ ?_
      · rintro a s'' ⟨ha, h⟩
        exact ⟨ha, htrans _ _ _ hR h⟩
      · rintro x s'' ⟨hx, h⟩
        exact ⟨hx, htrans _ _ _ hR h⟩

theorem obeys_guarded (env : ScanEnv) (ledger : DatabaseLedger) {scanId : ℕ}
    (hl : ledger.scanId = some scanId) {α : Type} (call : Call) {p : Guard α} {c : Course}
    (hp : p.Always (fun o => (∃ hostname, o = .resolve hostname) ∨ ∃ entry, o = .record entry)
      (fun _ => True))
    (hscan : c.world.db.hasScan scanId = true) :
    (guarded ledger p).Obeys (ofHandler env.serve)
      (fun a c' => (p.run (handle env.guard) call).1 = .ok a ∧ Quiet c c')
      (fun x c' => (p.run (handle env.guard) call).1 = .error x ∧ Quiet c c') c := by
  have hsink : env.guard.SinkWorks := fun _ => rfl
  have hrecord : ∀ (c : Course) (entry : LedgerEntry),
      c.world.db.hasScan scanId = true ∧ Quiet c c →
      ∃ c', env.serve c (.guard ledger (.record entry)) = (.ok (), c') ∧
        (c.world.db.hasScan scanId = true ∧ Quiet c c') ∧
        c'.world.db.hasScan scanId = true ∧ Quiet c' c' := by
    intro c entry h
    have hserve : env.serve c (.guard ledger (.record entry)) =
        (.ok (), { c with world := { c.world with db := { c.world.db with
          ledger := c.world.db.ledger ++ [⟨some scanId, ledger.scopeId, entry⟩] } } }) := by
      simp only [ScanEnv.serve, World.serve_record hl h.1, Course.note]
    exact ⟨_, hserve, ⟨h.1, rfl, rfl, rfl, rfl⟩, h.1, rfl, rfl, rfl, rfl⟩
  have hguarded := obeys_guarded_of env.serve
    (fun c c' => c.world.db.hasScan scanId = true ∧ Quiet c c') ledger hsink
    (fun _ _ _ h h' => ⟨h.1, h.2.trans h'.2⟩) (fun _ _ => rfl) hrecord call hp
    ⟨hscan, rfl, rfl, rfl, rfl⟩
  exact Obeys.mono hguarded (fun a c' h => ⟨h.1, h.2.2⟩) fun x c' h => ⟨h.1, h.2.2⟩

/-- The scan goes on with what `validate_target` made of the target, or with
the reason it gave for refusing it. -/
theorem obeys_dispatch (env : ScanEnv) (scope : ScopeProfile) {ledger : DatabaseLedger}
    {scanId : ℕ} (hl : ledger.scanId = some scanId) (hscan : c.world.db.hasScan scanId = true)
    (targetInput : String) :
    (dispatch ledger scope targetInput).Obeys (ofHandler env.serve)
      (fun r c' => Quiet c c' ∧ match r with
        | .ok target => env.verdict scope targetInput = .ok target
        | .error reason => ∃ target,
          env.verdict scope targetInput = .error (.targetRejected target reason))
      (fun x _ => env.verdict scope targetInput = .error x ∧
        ∀ target reason, x ≠ .targetRejected target reason) c := by
  unfold dispatch
  have hguarded := obeys_guarded env ledger hl (.new false)
    (always_validateTarget scope targetInput) hscan
  refine Obeys.tryCatch (Obeys.bind hguarded fun target c' h => .ret ⟨h.2, h.1⟩) ?_
  rintro x c' ⟨hx, hq⟩
  cases x with
  | targetRejected target reason => exact .ret ⟨hq, target, hx⟩
  | resolution text => exact .raise ⟨hx, nofun⟩
  | budgetExceeded e => exact .raise ⟨hx, nofun⟩
  | moduleError code message => exact .raise ⟨hx, nofun⟩
  | governorConfig e => exact .raise ⟨hx, nofun⟩
  | failure f => exact .raise ⟨hx, nofun⟩

/-! ### From the start -/

theorem Claimed.selected_of_ordered (h : Claimed registry db scan scopeRow scope) :
    ∃ modules, registry.ordered scan.selectedModules = .ok modules ∧
      (modules.map (·.name)).Perm scan.selectedModules :=
  ModuleRegistry.ordered_of_has h.registered

theorem applicable_of_ordered {modules : List ModuleMetadata}
    (h : registry.ordered scan.selectedModules = .ok modules) :
    registry.applicable scan = modules.filter (·.appliesTo scan.targetType) := by
  unfold ModuleRegistry.applicable
  rw [h]

/-- With its modules in order, a claimed scan is going. -/
theorem Claimed.going (h : Claimed registry db scan scopeRow scope) {names : List String}
    (hp : names.Perm scan.selectedModules) :
    Going scan.id scan.selectedModules names (.start db) where
  hasScan := Db.hasScan_of_getScan h.found
  notCanceled := by
    change db.cancelRequested scan.id = false
    unfold Db.cancelRequested
    rw [h.found]
    exact h.notCanceled
  modules := h.runs
  rest := by
    intro r hr hid
    right
    rw [hp.mem_iff, ← h.runs]
    unfold Db.modulesOf
    refine List.mem_map.mpr ⟨(r.scanId, r.module), List.mem_filter.mpr ⟨?_, ?_⟩, rfl⟩
    · exact List.mem_map.mpr ⟨r, hr, rfl⟩
    · simp [hid]

/-- Up to the dispatch, `execute_scan` on a claimed scan reads it and its scope
and publishes that it runs. -/
theorem obeys_executeScan (h : Claimed registry db scan scopeRow scope)
    {Q : ScanStatus → Course → Prop}
    (haccepted : ∀ target modules c', env.verdict scope scan.targetInput = .ok target →
      registry.ordered scan.selectedModules = .ok modules → Quiet (.start db) c' →
      (moduleLoop retentionDays scan.id target scan.targetType modules ⟨false, false, []⟩).Obeys
        (ofHandler env.serve) Q E c')
    (hrefused : ∀ target reason c',
      env.verdict scope scan.targetInput = .error (.targetRejected target reason) →
      Quiet (.start db) c' →
      (finish retentionDays scan.id .failed (some ("target refused at dispatch: " ++ reason))).Obeys
        (ofHandler env.serve) Q E c')
    (hraised : ∀ x c', env.verdict scope scan.targetInput = .error x →
      (∀ target reason, x ≠ .targetRejected target reason) → E x c') :
    (executeScan registry retentionDays scan.id).Obeys (ofHandler env.serve) Q E (.start db) := by
  have hscan : (Course.start db).world.db.hasScan scan.id = true := Db.hasScan_of_getScan h.found
  have hget : env.serve (.start db) (.getScan scan.id) = (.ok (some scan), .start db) := by
    simp only [ScanEnv.serve, World.serve, Course.start, h.found, Course.note]
  have hscope : env.serve (.start db) (.getScope scan.scopeId) =
      (.ok (some scopeRow), .start db) := by
    simp only [ScanEnv.serve, World.serve, Course.start, h.scopeFound, Course.note]
  unfold executeScan
  refine Obeys.bind (obeys_read (.getScan scan.id) hget) ?_
  rintro _ _ ⟨rfl, rfl⟩
  refine Obeys.bind (obeys_read (.getScope scan.scopeId) hscope) ?_
  rintro _ _ ⟨rfl, rfl⟩
  simp only [h.created]
  unfold executeIn
  refine Obeys.bind (obeys_publish hscan .scanRunning none) fun _ c₁ hq₁ => ?_
  obtain ⟨L, hL⟩ := h.intensity
  simp only [hL]
  have hscan₁ : c₁.world.db.hasScan scan.id = true := (Db.hasScan_congr hq₁.scans).trans hscan
  have hledger : (⟨some scan.id, some scopeRow.id⟩ : DatabaseLedger).scanId = some scan.id := rfl
  have hdispatch := Obeys.mono (obeys_dispatch env scope hledger hscan₁ scan.targetInput)
    (fun _ _ hr => hr) fun x c' hx => hraised x c' hx.1 hx.2
  refine Obeys.bind hdispatch fun r c₂ hr => ?_
  obtain ⟨hq₂, hverdict⟩ := hr
  cases r with
  | error reason =>
    obtain ⟨target, hverdict⟩ := hverdict
    exact hrefused target reason c₂ hverdict (hq₁.trans hq₂)
  | ok target =>
    obtain ⟨modules, hordered, -⟩ := h.selected_of_ordered
    simp only [hordered]
    exact haccepted target modules c₂ hverdict hordered (hq₁.trans hq₂)

/-! ### Which executions keep on -/

/-- An accepted target, and modules that all end in a handled way. -/
theorem keepsOn_of_handled (h : Claimed registry db scan scopeRow scope) {target : ValidatedTarget}
    (hverdict : env.verdict scope scan.targetInput = .ok target)
    (hends : ∀ i < (registry.applicable scan).length, Handled (env.ends i) = true) :
    KeepsOn registry scan
      ((executeScan registry retentionDays scan.id).run env.serve (.start db)) := by
  obtain ⟨modules, hordered, hperm⟩ := h.selected_of_ordered
  rw [applicable_of_ordered hordered] at hends
  have hobeys : (executeScan registry retentionDays scan.id).Obeys (ofHandler env.serve)
      (fun status c' => status.isTerminal = true ∧
        c'.ran = (registry.applicable scan).map (·.name) ∧
        Closed scan.id scan.selectedModules status c') (fun _ _ => False) (.start db) := by
    refine obeys_executeScan h ?_ ?_ ?_
    · intro target' modules' c' _ hordered' hq
      rw [hordered] at hordered'
      cases hordered'
      have hgoing := (h.going hperm).quiet hq
      have hran : c'.ran = [] := hq.ran
      refine Obeys.mono (obeys_moduleLoop modules ⟨false, false, []⟩ c' hgoing
        (by simpa [hran] using hends)) ?_ fun _ _ hx => hx
      rintro status c'' ⟨hterminal, hran', hclosed⟩
      rw [hran, List.nil_append, ← applicable_of_ordered hordered] at hran'
      exact ⟨hterminal, hran', hclosed⟩
    · intro target' reason c' hrefused
      rw [hverdict] at hrefused
      cases hrefused
    · intro x c' hraised
      rw [hverdict] at hraised
      cases hraised
  obtain ⟨status, c', hrun, hterminal, hran, hclosed⟩ := hobeys.run_ok
  rw [hrun]
  exact ⟨status, rfl, hterminal, Or.inr hran, hclosed⟩

theorem not_keepsOn_of_raises {p : Runner ScanStatus}
    (h : p.Obeys (ofHandler env.serve) (fun _ _ => False) (fun _ _ => True) c) :
    ¬ KeepsOn registry scan (p.run env.serve c) := by
  obtain ⟨x, c', hrun, -⟩ := h.run_error
  rintro ⟨status, hstatus, -⟩
  rw [hrun] at hstatus
  cases hstatus

/-- An accepted target, and a module that ends in no handled way. -/
theorem not_keepsOn_of_unhandled (h : Claimed registry db scan scopeRow scope)
    {target : ValidatedTarget} (hverdict : env.verdict scope scan.targetInput = .ok target)
    (hends : ∃ i < (registry.applicable scan).length, Handled (env.ends i) = false) :
    ¬ KeepsOn registry scan
      ((executeScan registry retentionDays scan.id).run env.serve (.start db)) := by
  refine not_keepsOn_of_raises (obeys_executeScan h ?_ ?_ fun _ _ _ _ => trivial)
  · intro target' modules c' _ hordered hq
    obtain ⟨modules', hordered', hperm⟩ := h.selected_of_ordered
    rw [hordered] at hordered'
    cases hordered'
    have hran : c'.ran = [] := hq.ran
    rw [applicable_of_ordered hordered] at hends
    exact moduleLoop_fails modules ⟨false, false, []⟩ c' ((h.going hperm).quiet hq)
      (by simpa [hran] using hends)
  · intro target' reason c' hrefused
    rw [hverdict] at hrefused
    cases hrefused

/-- A target refused at dispatch: the scan is closed with its runs as they are. -/
theorem keepsOn_refused_iff (h : Claimed registry db scan scopeRow scope) {target reason : String}
    (hverdict : env.verdict scope scan.targetInput = .error (.targetRejected target reason)) :
    KeepsOn registry scan
        ((executeScan registry retentionDays scan.id).run env.serve (.start db)) ↔
      ∀ r ∈ db.moduleRuns, r.scanId = scan.id → r.status.isTerminal = true := by
  have hobeys : (executeScan registry retentionDays scan.id).Obeys (ofHandler env.serve)
      (fun status c' => status = .failed ∧ c'.ran = [] ∧
        ClosedWith scan.id status db.moduleRuns c') (fun _ _ => False) (.start db) := by
    refine obeys_executeScan h ?_ ?_ ?_
    · intro target' modules c' haccepted
      rw [hverdict] at haccepted
      cases haccepted
    · intro target' reason' c' _ hq
      obtain ⟨modules, -, hperm⟩ := h.selected_of_ordered
      have hgoing := (h.going hperm).quiet hq
      refine Obeys.mono (obeys_finish hgoing retentionDays .failed _) ?_ fun _ _ hx => hx
      rintro _ c'' ⟨rfl, hran, hclosed⟩
      refine ⟨rfl, hran.trans hq.ran, ?_⟩
      have hruns : c'.world.db.moduleRuns = db.moduleRuns := hq.runs
      rwa [hruns] at hclosed
    · intro x c' hraised hx
      rw [hverdict] at hraised
      cases hraised
      exact hx target reason rfl
  obtain ⟨status, c', hrun, rfl, hran, hclosed⟩ := hobeys.run_ok
  rw [hrun, ← hclosed.closed_iff h.runs]
  constructor
  · rintro ⟨status, hstatus, -, -, hc⟩
    cases hstatus
    exact hc
  · intro hc
    exact ⟨.failed, rfl, rfl, Or.inl hran, hc⟩

end

/-- **Completion.** An execution of a claimed scan keeps on if and only if its
target is accepted and each module that applies ends in a way `execute_scan`
has a clause for, or the target is refused and no module run was left open. -/
theorem execute_keepsOn_iff (registry : ModuleRegistry) (retentionDays : ℕ) (env : ScanEnv)
    {db : Db} {scan : ScanRow} {scopeRow : ScopeProfileRow} {scope : ScopeProfile}
    (h : Claimed registry db scan scopeRow scope) :
    KeepsOn registry scan
        ((executeScan registry retentionDays scan.id).run env.serve (.start db)) ↔
      ((∃ target, env.verdict scope scan.targetInput = .ok target) ∧
        ∀ i < (registry.applicable scan).length, Handled (env.ends i) = true) ∨
      ((∃ target reason,
          env.verdict scope scan.targetInput = .error (.targetRejected target reason)) ∧
        ∀ r ∈ db.moduleRuns, r.scanId = scan.id → r.status.isTerminal = true) := by
  cases hverdict : env.verdict scope scan.targetInput with
  | ok target =>
    by_cases hends : ∀ i < (registry.applicable scan).length, Handled (env.ends i) = true
    · exact iff_of_true (keepsOn_of_handled h hverdict hends) (Or.inl ⟨⟨target, rfl⟩, hends⟩)
    · refine iff_of_false (not_keepsOn_of_unhandled h hverdict ?_) ?_
      · simpa using hends
      · rintro (⟨-, hall⟩ | ⟨⟨_, _, hrefused⟩, -⟩)
        · exact hends hall
        · cases hrefused
  | error x =>
    by_cases hx : ∃ target reason, x = .targetRejected target reason
    · obtain ⟨target, reason, rfl⟩ := hx
      rw [keepsOn_refused_iff h hverdict]
      constructor
      · exact fun hruns => Or.inr ⟨⟨target, reason, rfl⟩, hruns⟩
      · rintro (⟨⟨_, haccepted⟩, -⟩ | ⟨-, hruns⟩)
        · cases haccepted
        · exact hruns
    · have hraises : (executeScan registry retentionDays scan.id).Obeys (ofHandler env.serve)
          (fun _ _ => False) (fun _ _ => True) (.start db) := by
        refine obeys_executeScan h ?_ ?_ fun _ _ _ _ => trivial
        · intro target modules c' haccepted
          rw [hverdict] at haccepted
          cases haccepted
        · intro target reason c' hrefused
          rw [hverdict] at hrefused
          cases hrefused
          exact absurd ⟨target, reason, rfl⟩ hx
      refine iff_of_false (not_keepsOn_of_raises hraises) ?_
      rintro (⟨⟨_, haccepted⟩, -⟩ | ⟨⟨target, reason, hrefused⟩, -⟩)
      · cases haccepted
      · cases hrefused
        exact hx ⟨target, reason, rfl⟩

/-! ### A scan in the lab -/

def labScopeRow : ScopeProfileRow := ⟨0, "lab", ["127.0.0.0/24", "10.10.0.0/24"], false, false⟩

/-- Host discovery and the port scan of one address, selected the other way
round, and just claimed. -/
def labScan : ScanRow :=
  ⟨1, 0, "10.10.0.5", "10.10.0.5", .ip, ["10.10.0.5"], "normal", ["port_scan", "host_discovery"],
    .object [], .running, none, attestationText, attestationVersion, 0, false, some 0, 0, some 0,
    none⟩

def labDb : Db where
  scopes := [labScopeRow]
  scans := [labScan]
  moduleRuns := labScan.selectedModules.map fun name =>
    ⟨1, name, .queued, 0, false, 0, none, none, none, none⟩
  findings := []
  ledger := []
  events := []
  lock := none
  nextId := 2

theorem labClaimed : Claimed builtinModules labDb labScan labScopeRow labScope where
  found := by decide +kernel
  running := rfl
  notCanceled := rfl
  scopeFound := by decide +kernel
  created := by
    have hget : ∀ {e : Except ScopeValidationError ScopeProfile} (h : e.toOption.isSome = true),
        e = .ok (e.toOption.get h) := by
      rintro (_ | _) h
      · cases h
      · rfl
    exact hget _
  intensity := by
    have hok : (limitsOf labScan.intensityProfile intensityProfiles).toOption.isSome = true := by
      decide +kernel
    cases hl : limitsOf labScan.intensityProfile intensityProfiles with
    | error e => rw [hl] at hok; cases hok
    | ok L => exact ⟨L, rfl⟩
  registered := by decide +kernel
  runs := by decide +kernel

/-- Every module run ends like this; each publishes its footprint once. -/
def labEnv (ends : Except Exn ModuleResult) : ScanEnv where
  now _ := 1
  resolve _ := .ok []
  footprint _ := (1, 1)
  ends _ := ends
  meanwhile _ := [.footprint 1 1]

theorem labEnv_accepts (ends : Except Exn ModuleResult) :
    ∃ target, (labEnv ends).verdict labScope labScan.targetInput = .ok target := by
  have hok : ((labEnv ends).verdict labScope labScan.targetInput).toOption.isSome = true := by
    change (((validateTarget labScope labScan.targetInput).run (handle (.calm [])) (.new false)).1
      ).toOption.isSome = true
    decide +kernel
  cases hv : (labEnv ends).verdict labScope labScan.targetInput with
  | error e => rw [hv] at hok; cases hok
  | ok target => exact ⟨target, rfl⟩

theorem execute_keepsOn_lab : KeepsOn builtinModules labScan
    ((executeScan builtinModules 90 labScan.id).run
      (labEnv (.ok ⟨[], false, ["one port was filtered"]⟩)).serve (.start labDb)) :=
  (execute_keepsOn_iff builtinModules 90 _ labClaimed).mpr
    (Or.inl ⟨labEnv_accepts _, fun _ _ => rfl⟩)

/-- A module that passes on what a probe raised ends the worker's loop. -/
theorem not_execute_keepsOn : ¬ ∀ (registry : ModuleRegistry) (retentionDays : ℕ) (env : ScanEnv)
    (db : Db) (scan : ScanRow) (scopeRow : ScopeProfileRow) (scope : ScopeProfile),
    Claimed registry db scan scopeRow scope →
    (∃ target, env.verdict scope scan.targetInput = .ok target) →
    KeepsOn registry scan
      ((executeScan registry retentionDays scan.id).run env.serve (.start db)) := by
  intro h
  obtain ⟨target, haccepted⟩ := labEnv_accepts (.error (.failure (.os "Network is unreachable")))
  refine not_keepsOn_of_unhandled labClaimed haccepted ⟨0, by decide +kernel, rfl⟩
    (h builtinModules 90 _ labDb labScan labScopeRow labScope labClaimed ⟨target, haccepted⟩)

end ScanLedger
