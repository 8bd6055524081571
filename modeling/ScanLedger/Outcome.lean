/-
# The outcome of a scan

What one execution of a claimed scan comes to, when nobody cancels it and every
module run ends in a way that `execute_scan` has a clause for: which modules run
and in which order, what each is given of the findings before it, which findings
are stored, and the final status. Only the selected modules count for it, not
the order they were selected in.

Key definitions: `OutcomeEnv`, `Attempt`, `Log`, `Goes`, `attemptsOf`, `ScanOutcome`.
Key theorems: `goes_runModule`, `goes_moduleLoop`, `outcome_spec`.
-/
import ScanLedger.Completion
import ScanLedger.Requests

namespace ScanLedger

open Prog

/-! ### What is observed -/

/-- A module run: what it was given, and how it ended. -/
structure Attempt where
  module : ModuleMetadata
  context : ModuleContext
  result : Except Exn ModuleResult

/-- The findings of a result, if there is one. -/
def resultFindings : Except Exn ModuleResult → List Finding
  | .ok result => result.findings
  | .error _ => []

/-- The findings of the runs that returned a result, in their order. -/
def foundBy (attempts : List Attempt) : List Finding :=
  attempts.flatMap fun a => resultFindings a.result

/-- What an execution meets: the clock, the resolver, the governor's counters,
how a module ends on what was found before, and what is written while it runs. -/
structure OutcomeEnv where
  now : Db → ℚ
  resolve : String → Except String (List IPAddress)
  footprint : Db → ℕ × ℕ
  ends : ModuleMetadata → List Finding → Except Exn ModuleResult
  meanwhile : ModuleMetadata → List Finding → List Aside

/-- An execution as it stands: the module runs so far, and the database as its
retention sweep found it. -/
structure Log where
  world : World
  attempts : List Attempt
  closing : Option Db

def Log.start (db : Db) : Log := ⟨⟨db, .off⟩, [], none⟩

namespace OutcomeEnv

variable (env : OutcomeEnv)

/-- How the operation ends, if it is a module run. -/
def resultOf : RunnerOp → Except Exn ModuleResult
  | .runModule module context => env.ends module context.priorFindings
  | _ => .error (.failure .timeout)

def answers (c : Log) (o : RunnerOp) : Answers where
  now := env.now c.world.db
  resolve hostname := (env.resolve hostname).mapError .resolution
  footprint := env.footprint c.world.db
  result := env.resultOf o

def note (c : Log) : RunnerOp → Log
  | .runModule module context => { c with
      world := (env.meanwhile module context.priorFindings).foldl (World.aside context.scanId)
        c.world
      attempts := c.attempts ++ [⟨module, context, env.ends module context.priorFindings⟩] }
  | .expiredScans _ => { c with closing := some c.world.db }
  | _ => c

def serve (c : Log) (o : RunnerOp) : Except Exn o.Answer × Log :=
  let served := c.world.serve (env.answers c o) o
  (served.1, env.note { c with world := served.2 } o)

/-- The guard's calls: names resolve as the environment says. -/
def guard : Env := CallEnv.guard ⟨0, env.resolve⟩

/-- `validate_target` accepts the target. -/
def accepts (scope : ScopeProfile) (targetInput : String) : Bool :=
  CallEnv.accepts ⟨0, env.resolve⟩ scope targetInput

end OutcomeEnv

/-! ### The specification -/

/-- The selected modules have an order each of their own. -/
def ModuleRegistry.OrdersDistinct (registry : ModuleRegistry) (selected : List String) : Prop :=
  ∀ m ∈ registry.modules, ∀ m' ∈ registry.modules, m.name ∈ selected → m'.name ∈ selected →
    m.order = m'.order → m = m'

structure ScanOutcome (registry : ModuleRegistry) (env : OutcomeEnv) (db : Db) (scan : ScanRow)
    (scope : ScopeProfile) (r : Except Exn ScanStatus × Log) : Prop where
  ascending : (r.2.attempts.map (·.module.order)).Pairwise (· < ·)
  ran : ∀ m, m ∈ r.2.attempts.map (·.module) ↔ env.accepts scope scan.targetInput = true ∧
    m ∈ registry.modules ∧ m.name ∈ scan.selectedModules ∧ m.appliesTo scan.targetType = true
  result : ∀ a ∈ r.2.attempts, a.result = env.ends a.module a.context.priorFindings
  prior : ∀ before a after, r.2.attempts = before ++ a :: after →
    a.context.priorFindings = foundBy before
  stored : ∃ closing, r.2.closing = some closing ∧
    closing.findings = db.findings ++ (foundBy r.2.attempts).map (⟨scan.id, ·⟩) ∧
    ∃ row, closing.getScan scan.id = some row ∧ r.1 = .ok row.status
  status : r.1 = .ok .failed ∨ r.1 = .ok .completed ∨ r.1 = .ok .completedWithWarnings
  failed : r.1 = .ok .failed ↔ ∀ a ∈ r.2.attempts, ∀ result, a.result ≠ .ok result
  completed : r.1 = .ok .completed ↔ (∃ a ∈ r.2.attempts, ∃ result, a.result = .ok result) ∧
    ∀ a ∈ r.2.attempts, ∃ result, a.result = .ok result ∧ result.warnings = []

/-! ### Frames -/

/-- The execution goes on through these module runs and stores these findings. -/
structure Goes (scanId : ℕ) (attempts : List Attempt) (new : List Finding) (c c' : Log) :
    Prop where
  scans : c'.world.db.scans = c.world.db.scans
  findings : c'.world.db.findings = c.world.db.findings ++ new.map fun f => ⟨scanId, f⟩
  attempts : c'.attempts = c.attempts ++ attempts
  ticker : (∀ x, c.world.ticker ≠ .failed x) → ∀ x, c'.world.ticker ≠ .failed x

/-- The scan is there, nobody cancelled it and its ticker has not failed. -/
structure Ready (scanId : ℕ) (c : Log) : Prop where
  hasScan : c.world.db.hasScan scanId = true
  notCanceled : c.world.db.cancelRequested scanId = false
  ticker : ∀ x, c.world.ticker ≠ .failed x

section

variable {env : OutcomeEnv} {c c' c'' : Log} {scanId : ℕ} {attempts attempts' : List Attempt}
  {new new' : List Finding} {E : Exn → Log → Prop}

theorem Goes.refl (scanId : ℕ) (c : Log) : Goes scanId [] [] c c where
  scans := rfl
  findings := (List.append_nil _).symm
  attempts := (List.append_nil _).symm
  ticker h := h

theorem Goes.trans (h : Goes scanId attempts new c c') (h' : Goes scanId attempts' new' c' c'') :
    Goes scanId (attempts ++ attempts') (new ++ new') c c'' where
  scans := h'.scans.trans h.scans
  findings := by rw [h'.findings, h.findings, List.map_append, List.append_assoc]
  attempts := by rw [h'.attempts, h.attempts, List.append_assoc]
  ticker hc := h'.ticker (h.ticker hc)

/-- Nothing more happens after it, or nothing before. -/
theorem Goes.still (h : Goes scanId attempts new c c') (h' : Goes scanId [] [] c' c'') :
    Goes scanId attempts new c c'' := by
  have hgoes := h.trans h'
  rwa [List.append_nil, List.append_nil] at hgoes

theorem Goes.ready (h : Goes scanId attempts new c c') (hc : Ready scanId c) : Ready scanId c' where
  hasScan := (Db.hasScan_congr h.scans).trans hc.hasScan
  notCanceled := (Db.cancelRequested_congr h.scans).trans hc.notCanceled
  ticker := h.ticker hc.ticker

/-! ### The parts of an execution -/

theorem goes_publish (h : c.world.db.hasScan scanId = true) (event : Event)
    (module : Option String) :
    (publish scanId event module).Obeys (ofHandler env.serve) (fun _ c' => Goes scanId [] [] c c')
      E c := by
  unfold publish
  refine Obeys.bind (obeys_read (.nextSequence scanId) rfl) ?_
  rintro _ _ ⟨rfl, rfl⟩
  have hserve : env.serve c (.insertEvent ⟨scanId, c.world.db.nextSequence scanId, module, event⟩) =
      (.ok (), { c with world := { c.world with db := { c.world.db with
        events := c.world.db.events ++
          [⟨scanId, c.world.db.nextSequence scanId, module, event⟩] } } }) := by
    simp only [OutcomeEnv.serve, World.serve_insertEvent h, OutcomeEnv.note]
  exact obeys_ask _ hserve
    ⟨rfl, (List.append_nil _).symm, (List.append_nil _).symm, fun hc => hc⟩

theorem goes_setModuleStatus (h : Ready scanId c) (module : String) (status : ModuleStatus)
    (reason code : Option String) (findingCount : ℕ) (cacheHit : Bool) :
    (setModuleStatus scanId module status reason code findingCount cacheHit).Obeys
      (ofHandler env.serve) (fun _ c' => Goes scanId [] [] c c') E c := by
  unfold setModuleStatus
  refine Obeys.bind (obeys_read .now rfl) ?_
  rintro now _ ⟨-, rfl⟩
  have hwrite : (ask (.updateModuleRun scanId module
      ⟨status, now, findingCount, cacheHit, reason, code⟩)).Obeys (ofHandler env.serve)
      (fun _ c' => Goes scanId [] [] c c') E c :=
    obeys_ask _ rfl ⟨rfl, (List.append_nil _).symm, (List.append_nil _).symm, fun hc => hc⟩
  refine Obeys.bind hwrite fun _ c₁ hgoes => ?_
  exact Obeys.mono (goes_publish (hgoes.ready h).hasScan _ _) (fun _ _ hq => hgoes.still hq)
    fun _ _ hx => hx

theorem goes_storeFindings (h : Ready scanId c) (findings : List Finding) :
    (storeFindings scanId findings).Obeys (ofHandler env.serve)
      (fun _ c' => Goes scanId [] findings c c') E c := by
  cases findings with
  | nil => exact .ret (Goes.refl scanId c)
  | cons f fs =>
    have hserve : env.serve c (.insertFindings scanId (f :: fs)) =
        (.ok (), { c with world := { c.world with db := { c.world.db with
          findings := c.world.db.findings ++ (f :: fs).map fun f => ⟨scanId, f⟩ } } }) := by
      simp only [OutcomeEnv.serve, World.serve_insertFindings h.hasScan, OutcomeEnv.note]
    exact obeys_ask _ hserve ⟨rfl, rfl, (List.append_nil _).symm, fun hc => hc⟩

/-- The variables of the loop, after a module run that ended like this. -/
def Tally.after (t : Tally) : Except Exn ModuleResult → Tally
  | .ok result =>
    ⟨true, t.anyProblem || !result.warnings.isEmpty, t.produced ++ result.findings⟩
  | .error _ => { t with anyProblem := true }

theorem goes_failModule (h : Ready scanId c) (module : String) (t : Tally) (reason code : String) :
    (failModule scanId module t reason code).Obeys (ofHandler env.serve)
      (fun t' c' => t' = { t with anyProblem := true } ∧ Goes scanId [] [] c c') E c := by
  unfold failModule
  refine Obeys.bind (goes_setModuleStatus h module .failed _ _ _ _) fun _ c' hgoes => ?_
  exact .ret ⟨rfl, hgoes⟩

/-- A clause for each way to end that is handled. -/
theorem goes_settleModule (h : Ready scanId c) (module : ModuleMetadata) (t : Tally)
    {r : Except Exn ModuleResult} (hr : Handled r = true) :
    (settleModule scanId module t r).Obeys (ofHandler env.serve)
      (fun t' c' => t' = t.after r ∧ Goes scanId [] (resultFindings r) c c') E c := by
  match r, hr with
  | .error (.failure .timeout), _ => exact goes_failModule h _ _ _ _
  | .error (.budgetExceeded e), _ => exact goes_failModule h _ _ _ _
  | .error (.moduleError code message), _ => exact goes_failModule h _ _ _ _
  | .error (.targetRejected target reason), _ => exact goes_failModule h _ _ _ _
  | .ok result, _ =>
    unfold settleModule
    refine Obeys.bind (goes_storeFindings h result.findings) fun _ c' hgoes => ?_
    refine Obeys.bind (goes_setModuleStatus (hgoes.ready h) module.name .done _ _ _ _)
      fun _ c'' hstill => ?_
    exact .ret ⟨rfl, hgoes.still hstill⟩

/-! ### A module run -/

/-- The run of a module, on what was found before. -/
def OutcomeEnv.attempt (env : OutcomeEnv) (scanId : ℕ) (target : ValidatedTarget)
    (module : ModuleMetadata) (prior : List Finding) : Attempt :=
  ⟨module, ⟨scanId, target, prior⟩, env.ends module prior⟩

variable {target : ValidatedTarget} {module : ModuleMetadata}

theorem goes_tried (h : Ready scanId c) (prior : List Finding) :
    (tried (.runModule module ⟨scanId, target, prior⟩)).Obeys (ofHandler env.serve)
      (fun r c' => r = env.ends module prior ∧
        Goes scanId [env.attempt scanId target module prior] [] c c') E c := by
  obtain ⟨hscans, -, hfindings, hticker⟩ := foldl_aside h.hasScan (env.meanwhile module prior)
  have hgoes : Goes scanId [env.attempt scanId target module prior] [] c
      (env.serve c (.runModule module ⟨scanId, target, prior⟩)).2 :=
    ⟨hscans, hfindings.trans (List.append_nil _).symm, rfl, fun hc x hx => hc x (hticker ▸ hx)⟩
  exact Obeys.outcome (o := RunnerOp.runModule module ⟨scanId, target, prior⟩)
    (Q := fun r c' => r = env.ends module prior ∧
      Goes scanId [env.attempt scanId target module prior] [] c c') ⟨rfl, hgoes⟩

theorem goes_tryModule (h : Ready scanId c) (t : Tally)
    (hr : Handled (env.ends module t.produced) = true) :
    (tryModule scanId target module t).Obeys (ofHandler env.serve)
      (fun t' c' => t' = t.after (env.ends module t.produced) ∧
        Goes scanId [env.attempt scanId target module t.produced]
          (resultFindings (env.ends module t.produced)) c c') E c := by
  unfold tryModule
  refine Obeys.bind (goes_tried h t.produced) ?_
  rintro _ c₁ ⟨rfl, hran⟩
  refine Obeys.mono (goes_settleModule (hran.ready h) module t hr) ?_ fun _ _ hx => hx
  rintro t' c₂ ⟨ht, hsettled⟩
  exact ⟨ht, hran.trans hsettled⟩

theorem goes_runModule (h : Ready scanId c) (t : Tally)
    (hr : Handled (env.ends module t.produced) = true) :
    (runModule scanId target module t).Obeys (ofHandler env.serve)
      (fun t' c' => t' = t.after (env.ends module t.produced) ∧
        Goes scanId [env.attempt scanId target module t.produced]
          (resultFindings (env.ends module t.produced)) c c') E c := by
  unfold runModule
  refine Obeys.bind (goes_setModuleStatus h module.name .running _ _ _ _) fun _ c₁ hgoes₁ => ?_
  have hstart : (ask (.startTicker scanId)).Obeys (ofHandler env.serve)
      (fun _ c' => Goes scanId [] [] c₁ c') E c₁ :=
    obeys_ask _ rfl ⟨rfl, (List.append_nil _).symm, (List.append_nil _).symm,
      fun _ x hx => by cases hx⟩
  refine Obeys.bind hstart fun _ c₂ hgoes₂ => ?_
  have hbefore := hgoes₁.still hgoes₂
  have htry : (Prog.tryFinally (tryModule scanId target module t) (ask .stopTicker)).Obeys
      (ofHandler env.serve) (fun t' c' => t' = t.after (env.ends module t.produced) ∧
        Goes scanId [env.attempt scanId target module t.produced]
          (resultFindings (env.ends module t.produced)) c₂ c') E c₂ := by
    refine Obeys.tryFinally (goes_tryModule (E := fun _ _ => False) (hbefore.ready h) t hr) ?_
      (fun _ _ hx => hx.elim)
    -- the ticker has not failed, so that awaiting it raises nothing
    rintro t' c₃ ⟨ht, hran⟩
    have hticker := (hran.ready (hbefore.ready h)).ticker
    have hstop : env.serve c₃ .stopTicker =
        (.ok (), { c₃ with world := { c₃.world with ticker := .off } }) := by
      cases hx : c₃.world.ticker with
      | failed x => exact absurd hx (hticker x)
      | off | asleep | publishing =>
        simp only [OutcomeEnv.serve, World.serve, hx, OutcomeEnv.note]
    exact obeys_ask _ hstop ⟨ht, hran.still
      ⟨rfl, (List.append_nil _).symm, (List.append_nil _).symm, fun _ x hx => by cases hx⟩⟩
  refine Obeys.bind htry ?_
  rintro t' c₃ ⟨ht, hran⟩
  have hgoes := hbefore.trans hran
  unfold publishFootprint
  refine Obeys.bind (Obeys.bind (obeys_read .footprint rfl) ?_) fun _ c₄ hstill =>
    .ret ⟨ht, hgoes.still hstill⟩
  rintro counts _ ⟨-, rfl⟩
  exact goes_publish (hgoes.ready h).hasScan _ _

/-! ### The end, and the loop -/

/-- The execution ends with this status after these module runs: the closing
sweep finds it stored, with what they found. -/
structure Ends (scanId : ℕ) (attempts : List Attempt) (c : Log) (status : ScanStatus) (c' : Log) :
    Prop where
  ran : c'.attempts = c.attempts ++ attempts
  stored : ∃ closing, c'.closing = some closing ∧
    closing.findings = c.world.db.findings ++ (foundBy attempts).map (⟨scanId, ·⟩) ∧
    ∃ row, closing.getScan scanId = some row ∧ row.status = status

theorem Goes.ends {status : ScanStatus} (h : Goes scanId attempts (foundBy attempts) c c')
    (h' : Ends scanId attempts' c' status c'') :
    Ends scanId (attempts ++ attempts') c status c'' where
  ran := by rw [h'.ran, h.attempts, List.append_assoc]
  stored := by
    obtain ⟨closing, hclosing, hfindings, hrow⟩ := h'.stored
    refine ⟨closing, hclosing, ?_, hrow⟩
    unfold foundBy at *
    rw [hfindings, h.findings, List.flatMap_append, List.map_append, List.append_assoc]

theorem goes_runRetention (retentionDays : ℕ) :
    (runRetention retentionDays).Obeys (ofHandler env.serve)
      (fun _ c' => c'.attempts = c.attempts ∧ c'.closing = some c.world.db) E c :=
  obeys_sweep retentionDays (fun _ => ⟨_, rfl⟩) (fun _ => ⟨_, _, rfl, rfl, rfl⟩)
    (fun _ _ h => ⟨_, rfl, h⟩) fun _ _ h => ⟨_, rfl, h⟩

theorem goes_finish (h : Ready scanId c) (retentionDays : ℕ) (status : ScanStatus)
    (reason : Option String) :
    (finish retentionDays scanId status reason).Obeys (ofHandler env.serve)
      (fun s c' => s = status ∧ Ends scanId [] c status c') E c := by
  unfold finish
  refine Obeys.bind (obeys_read .now rfl) ?_
  rintro now _ ⟨-, rfl⟩
  have hwrite : (ask (.updateScan scanId status now)).Obeys (ofHandler env.serve)
      (fun _ c' => c'.world.db = c.world.db.updateScan scanId status now ∧
        c'.attempts = c.attempts) E c :=
    obeys_ask _ rfl ⟨rfl, rfl⟩
  refine Obeys.bind hwrite ?_
  rintro _ c₁ ⟨hdb, hattempts⟩
  have hscan : c₁.world.db.hasScan scanId = true := by
    rw [Db.hasScan_iff, hdb, Db.ids_updateScan, ← Db.hasScan_iff]
    exact h.hasScan
  refine Obeys.bind (goes_publish hscan _ _) fun _ c₂ hgoes => ?_
  refine Obeys.bind (goes_runRetention retentionDays) fun _ c₃ hc => ?_
  obtain ⟨scan, hget⟩ := Db.getScan_of_hasScan h.hasScan
  have hrow : c₂.world.db.getScan scanId =
      some { scan with status := status, finishedAt := some now } := by
    unfold Db.getScan
    rw [hgoes.scans, hdb]
    exact Db.getScan_updateScan hget status now
  refine .ret ⟨rfl, ?_, c₂.world.db, hc.2, ?_, _, hrow, rfl⟩
  · rw [hc.1, hgoes.attempts, hattempts, List.append_nil]
  · rw [hgoes.findings, hdb]
    rfl

/-- The status that the loop's variables lead to. -/
def Tally.status (t : Tally) : ScanStatus :=
  if !t.anySuccess then .failed else if t.anyProblem then .completedWithWarnings else .completed

theorem goes_conclude (h : Ready scanId c) (retentionDays : ℕ) (t : Tally) :
    (conclude retentionDays scanId t).Obeys (ofHandler env.serve)
      (fun s c' => s = t.status ∧ Ends scanId [] c t.status c') E c := by
  unfold conclude Tally.status
  split_ifs
  · exact goes_finish h retentionDays _ _
  · exact goes_finish h retentionDays _ _
  · exact goes_finish h retentionDays _ _

/-- The runs of these modules, one after the other. -/
def OutcomeEnv.attemptsOf (env : OutcomeEnv) (scanId : ℕ) (target : ValidatedTarget) :
    List ModuleMetadata → List Finding → List Attempt
  | [], _ => []
  | m :: rest, prior => env.attempt scanId target m prior ::
      env.attemptsOf scanId target rest (prior ++ resultFindings (env.ends m prior))

/-- The variables of the loop after these module runs. -/
def Tally.afterAll (t : Tally) (attempts : List Attempt) : Tally :=
  attempts.foldl (fun t a => t.after a.result) t

theorem Tally.after_produced (t : Tally) (r : Except Exn ModuleResult) :
    (t.after r).produced = t.produced ++ resultFindings r := by
  cases r with
  | ok result => rfl
  | error x => exact (List.append_nil _).symm

theorem goes_notCanceled (h : Ready scanId c) :
    (ask (.cancelRequested scanId)).Obeys (ofHandler env.serve)
      (fun canceled c' => false = canceled ∧ c = c') E c := by
  refine obeys_read (.cancelRequested scanId) ?_
  simp only [OutcomeEnv.serve, World.serve, h.notCanceled, OutcomeEnv.note]

/-- **The module loop**: the modules that apply run one after the other, each on
what those before it found, and the scan ends as they did. -/
theorem goes_moduleLoop {retentionDays : ℕ} {targetType : TargetType}
    (hends : ∀ module prior, Handled (env.ends module prior) = true) :
    ∀ (modules : List ModuleMetadata) (t : Tally) (c : Log), Ready scanId c →
    (moduleLoop retentionDays scanId target targetType modules t).Obeys (ofHandler env.serve)
      (fun status c' =>
        let attempts := env.attemptsOf scanId target (modules.filter (·.appliesTo targetType))
          t.produced
        status = (t.afterAll attempts).status ∧ Ends scanId attempts c status c') E c
  | [], t, c, h => by
    unfold moduleLoop
    refine Obeys.bind (goes_notCanceled h) ?_
    rintro _ _ ⟨rfl, rfl⟩
    refine Obeys.mono (goes_conclude h retentionDays t) ?_ fun _ _ hx => hx
    rintro _ c' ⟨rfl, hended⟩
    exact ⟨rfl, hended⟩
  | m :: rest, t, c, h => by
    unfold moduleLoop
    refine Obeys.bind (goes_notCanceled h) ?_
    rintro _ _ ⟨rfl, rfl⟩
    cases ha : m.appliesTo targetType with
    | false =>
      rw [List.filter_cons_of_neg (by simp [ha])]
      refine Obeys.bind (goes_setModuleStatus h m.name .notApplicable _ _ _ _) fun _ c₁ hgoes => ?_
      refine Obeys.mono (goes_moduleLoop hends rest t c₁ (hgoes.ready h)) ?_ fun _ _ hx => hx
      rintro status c₂ ⟨hstatus, hended⟩
      exact ⟨hstatus, Goes.ends hgoes hended⟩
    | true =>
      rw [List.filter_cons_of_pos (by simpa using ha)]
      refine Obeys.bind (goes_runModule h t (hends m t.produced)) ?_
      rintro _ c₁ ⟨rfl, hgoes⟩
      refine Obeys.mono (goes_moduleLoop hends rest _ c₁ (hgoes.ready h)) ?_ fun _ _ hx => hx
      rintro status c₂ ⟨hstatus, hended⟩
      rw [t.after_produced] at hstatus hended
      have hfound : resultFindings (env.ends m t.produced) =
          foundBy [env.attempt scanId target m t.produced] := (List.append_nil _).symm
      rw [hfound] at hgoes
      exact ⟨hstatus, hgoes.ends hended⟩

/-! ### Dispatch and the whole execution -/

/-- The runs of an execution: of the modules that apply, if the target is accepted. -/
def OutcomeEnv.runs (env : OutcomeEnv) (registry : ModuleRegistry) (scope : ScopeProfile)
    (scan : ScanRow) : List Attempt :=
  match ((validateTarget scope scan.targetInput).run (handle env.guard) (.new false)).1 with
  | .ok target => env.attemptsOf scan.id target (registry.applicable scan) []
  | .error _ => []

theorem goes_dispatch (env : OutcomeEnv) (scope : ScopeProfile) {ledger : DatabaseLedger}
    (hl : ledger.scanId = some scanId) (h : Ready scanId c) (targetInput : String) :
    (dispatch ledger scope targetInput).Obeys (ofHandler env.serve)
      (fun r c' => Goes scanId [] [] c c' ∧ match r with
        | .ok target =>
          ((validateTarget scope targetInput).run (handle env.guard) (.new false)).1 = .ok target
        | .error _ => ∃ x,
          ((validateTarget scope targetInput).run (handle env.guard) (.new false)).1 = .error x)
      E c := by
  have hrecord : ∀ (c : Log) (entry : LedgerEntry), Ready scanId c ∧ Goes scanId [] [] c c →
      ∃ c', env.serve c (.guard ledger (.record entry)) = (.ok (), c') ∧
        (Ready scanId c ∧ Goes scanId [] [] c c') ∧ Ready scanId c' ∧ Goes scanId [] [] c' c' := by
    intro c entry h
    have hserve : env.serve c (.guard ledger (.record entry)) =
        (.ok (), { c with world := { c.world with db := { c.world.db with
          ledger := c.world.db.ledger ++ [⟨some scanId, ledger.scopeId, entry⟩] } } }) := by
      simp only [OutcomeEnv.serve, World.serve_record hl h.1.hasScan, OutcomeEnv.note]
    have hgoes : Goes scanId [] [] c { c with world := { c.world with db := { c.world.db with
        ledger := c.world.db.ledger ++ [⟨some scanId, ledger.scopeId, entry⟩] } } } :=
      ⟨rfl, (List.append_nil _).symm, (List.append_nil _).symm, fun hc => hc⟩
    exact ⟨_, hserve, ⟨h.1, hgoes⟩, hgoes.ready h.1, .refl _ _⟩
  have hguarded := obeys_guarded_of env.serve
    (fun c c' => Ready scanId c ∧ Goes scanId [] [] c c') ledger
    (CallEnv.sinkWorks ⟨0, env.resolve⟩)
    (fun _ _ _ h h' => ⟨h.1, h.2.trans h'.2⟩) (fun _ _ => rfl) hrecord (.new false)
    (always_validateTarget scope targetInput) ⟨h, .refl _ _⟩
  unfold dispatch
  refine Obeys.tryCatch (Obeys.bind hguarded fun target c' hr => .ret ⟨hr.2.2, hr.1⟩) ?_
  rintro x c' ⟨hx, -, hgoes⟩
  have hends := validateTarget_ends ⟨0, env.resolve⟩ scope targetInput (.new false)
  rw [hx] at hends
  obtain ⟨target, reason, rfl⟩ := hends
  exact .ret ⟨hgoes, _, hx⟩

theorem Claimed.ready {registry : ModuleRegistry} {db : Db} {scan : ScanRow}
    {scopeRow : ScopeProfileRow} {scope : ScopeProfile}
    (h : Claimed registry db scan scopeRow scope) : Ready scan.id (.start db) where
  hasScan := Db.hasScan_of_getScan h.found
  notCanceled := by
    change db.cancelRequested scan.id = false
    unfold Db.cancelRequested
    rw [h.found]
    exact h.notCanceled
  ticker _ := nofun

theorem goes_executeScan (env : OutcomeEnv) (retentionDays : ℕ) {registry : ModuleRegistry}
    {db : Db} {scan : ScanRow} {scopeRow : ScopeProfileRow} {scope : ScopeProfile}
    (h : Claimed registry db scan scopeRow scope)
    (hends : ∀ module prior, Handled (env.ends module prior) = true) :
    (executeScan registry retentionDays scan.id).Obeys (ofHandler env.serve)
      (fun status c' =>
        let attempts := env.runs registry scope scan
        status = (Tally.afterAll ⟨false, false, []⟩ attempts).status ∧
          Ends scan.id attempts (.start db) status c') E (.start db) := by
  have hready := h.ready
  have hget : env.serve (.start db) (.getScan scan.id) = (.ok (some scan), .start db) := by
    simp only [OutcomeEnv.serve, World.serve, Log.start, h.found, OutcomeEnv.note]
  have hscope : env.serve (.start db) (.getScope scan.scopeId) =
      (.ok (some scopeRow), .start db) := by
    simp only [OutcomeEnv.serve, World.serve, Log.start, h.scopeFound, OutcomeEnv.note]
  unfold executeScan
  refine Obeys.bind (obeys_read (.getScan scan.id) hget) ?_
  rintro _ _ ⟨rfl, rfl⟩
  refine Obeys.bind (obeys_read (.getScope scan.scopeId) hscope) ?_
  rintro _ _ ⟨rfl, rfl⟩
  simp only [h.created]
  unfold executeIn
  refine Obeys.bind (goes_publish hready.hasScan .scanRunning none) fun _ c₁ hgoes₁ => ?_
  obtain ⟨L, hL⟩ := h.intensity
  simp only [hL]
  have hledger : (⟨some scan.id, some scopeRow.id⟩ : DatabaseLedger).scanId = some scan.id := rfl
  have hdispatch := goes_dispatch (E := E) env scope hledger (hgoes₁.ready hready) scan.targetInput
  refine Obeys.bind hdispatch fun r c₂ hr => ?_
  obtain ⟨hgoes₂, hverdict⟩ := hr
  have hgoes := hgoes₁.still hgoes₂
  unfold OutcomeEnv.runs
  cases r with
  | error reason =>
    -- refused: the scan fails with no module run
    obtain ⟨x, hverdict⟩ := hverdict
    rw [hverdict]
    refine Obeys.mono (goes_finish (hgoes.ready hready) retentionDays .failed _) ?_ fun _ _ hx => hx
    rintro _ c' ⟨rfl, hended⟩
    exact ⟨rfl, Goes.ends hgoes hended⟩
  | ok target =>
    obtain ⟨modules, hordered, -⟩ := h.selected_of_ordered
    rw [hverdict, applicable_of_ordered hordered]
    simp only [hordered]
    refine Obeys.mono (goes_moduleLoop hends modules ⟨false, false, []⟩ c₂ (hgoes.ready hready)) ?_
      fun _ _ hx => hx
    rintro status c' ⟨hstatus, hended⟩
    exact ⟨hstatus, Goes.ends hgoes hended⟩

/-! ### The runs -/

theorem attemptsOf_modules : ∀ (modules : List ModuleMetadata) (prior : List Finding),
    (env.attemptsOf scanId target modules prior).map (·.module) = modules
  | [], _ => rfl
  | m :: rest, prior => by
    unfold OutcomeEnv.attemptsOf
    rw [List.map_cons, attemptsOf_modules rest]
    rfl

theorem attemptsOf_result : ∀ (modules : List ModuleMetadata) (prior : List Finding),
    ∀ a ∈ env.attemptsOf scanId target modules prior,
      a.result = env.ends a.module a.context.priorFindings
  | [], _ => fun _ ha => absurd ha List.not_mem_nil
  | m :: rest, prior => by
    unfold OutcomeEnv.attemptsOf
    rw [List.forall_mem_cons]
    exact ⟨rfl, attemptsOf_result rest _⟩

theorem attemptsOf_prior : ∀ (modules : List ModuleMetadata) (prior : List Finding)
    (before after : List Attempt) (a : Attempt),
    env.attemptsOf scanId target modules prior = before ++ a :: after →
    a.context.priorFindings = prior ++ foundBy before
  | [], _, before, after, a, h => by simp [OutcomeEnv.attemptsOf] at h
  | m :: rest, prior, before, after, a, h => by
    unfold OutcomeEnv.attemptsOf at h
    cases before with
    | nil =>
      obtain ⟨rfl, -⟩ := List.cons.inj h
      exact (List.append_nil _).symm
    | cons b before =>
      obtain ⟨rfl, hrest⟩ := List.cons.inj h
      rw [attemptsOf_prior rest _ before after a hrest, List.append_assoc]
      rfl

theorem runs_prior {registry : ModuleRegistry} {scope : ScopeProfile} {scan : ScanRow}
    {before after : List Attempt} {a : Attempt}
    (h : env.runs registry scope scan = before ++ a :: after) :
    a.context.priorFindings = foundBy before := by
  unfold OutcomeEnv.runs at h
  split at h
  · exact attemptsOf_prior _ [] before after a h
  · simp at h

theorem runs_result {registry : ModuleRegistry} {scope : ScopeProfile} {scan : ScanRow} :
    ∀ a ∈ env.runs registry scope scan, a.result = env.ends a.module a.context.priorFindings := by
  unfold OutcomeEnv.runs
  split
  · exact attemptsOf_result _ _
  · exact fun _ ha => absurd ha List.not_mem_nil

/-- What runs: all that apply, if the target is accepted. -/
theorem runs_modules {registry : ModuleRegistry} {scope : ScopeProfile} {scan : ScanRow} :
    (env.runs registry scope scan).map (·.module) =
      if env.accepts scope scan.targetInput then registry.applicable scan else [] := by
  unfold OutcomeEnv.runs OutcomeEnv.accepts CallEnv.accepts
  change _ = if ((validateTarget scope scan.targetInput).run (handle env.guard)
    (.new false)).1.toOption.isSome then _ else _
  cases ((validateTarget scope scan.targetInput).run (handle env.guard) (.new false)).1 with
  | ok target => exact attemptsOf_modules _ _
  | error x => rfl

theorem anySuccess_afterAll : ∀ (attempts : List Attempt) (t : Tally),
    (t.afterAll attempts).anySuccess = true ↔
      t.anySuccess = true ∨ ∃ a ∈ attempts, ∃ result, a.result = .ok result
  | [], t => by simp [Tally.afterAll]
  | a :: rest, t => by
    have hrest := anySuccess_afterAll rest (t.after a.result)
    change ((t.after a.result).afterAll rest).anySuccess = true ↔ _
    rw [hrest, List.exists_mem_cons_iff, ← or_assoc]
    refine or_congr_left ?_
    cases a.result with
    | ok result => simp [Tally.after]
    | error x => simp [Tally.after]

theorem anyProblem_afterAll : ∀ (attempts : List Attempt) (t : Tally),
    (t.afterAll attempts).anyProblem = false ↔
      t.anyProblem = false ∧ ∀ a ∈ attempts, ∃ result, a.result = .ok result ∧ result.warnings = []
  | [], t => by simp [Tally.afterAll]
  | a :: rest, t => by
    have hrest := anyProblem_afterAll rest (t.after a.result)
    change ((t.after a.result).afterAll rest).anyProblem = false ↔ _
    rw [hrest, List.forall_mem_cons, ← and_assoc]
    refine and_congr_left fun _ => ?_
    cases a.result with
    | ok result => simp [Tally.after]
    | error x => simp [Tally.after]

/-- The status that the runs lead to. -/
theorem status_afterAll (attempts : List Attempt) :
    let status := (Tally.afterAll ⟨false, false, []⟩ attempts).status
    (status = .failed ∨ status = .completed ∨ status = .completedWithWarnings) ∧
      (status = .failed ↔ ∀ a ∈ attempts, ∀ result, a.result ≠ .ok result) ∧
      (status = .completed ↔ (∃ a ∈ attempts, ∃ result, a.result = .ok result) ∧
        ∀ a ∈ attempts, ∃ result, a.result = .ok result ∧ result.warnings = []) := by
  intro status
  have hsuccess := anySuccess_afterAll attempts ⟨false, false, []⟩
  have hproblem := anyProblem_afterAll attempts ⟨false, false, []⟩
  simp only [Bool.false_eq_true, false_or, true_and] at hsuccess hproblem
  have hnone : (∀ a ∈ attempts, ∀ result, a.result ≠ .ok result) ↔
      ¬ ∃ a ∈ attempts, ∃ result, a.result = .ok result := by
    push Not
    rfl
  rw [hnone, ← hsuccess, ← hproblem]
  unfold status Tally.status
  cases (Tally.afterAll ⟨false, false, []⟩ attempts).anySuccess <;>
    cases (Tally.afterAll ⟨false, false, []⟩ attempts).anyProblem <;> simp

/-! ### The order of the modules -/

variable {registry : ModuleRegistry} {db : Db} {scan : ScanRow} {scopeRow : ScopeProfileRow}
  {scope : ScopeProfile}

theorem Claimed.mem_applicable (h : Claimed registry db scan scopeRow scope) (m : ModuleMetadata) :
    m ∈ registry.applicable scan ↔ m ∈ registry.modules ∧ m.name ∈ scan.selectedModules ∧
      m.appliesTo scan.targetType = true := by
  obtain ⟨modules, hordered, hnames⟩ := h.selected_of_ordered
  rw [applicable_of_ordered hordered, List.mem_filter,
    ModuleRegistry.mem_ordered hordered hnames, and_assoc]

/-- Where no order is shared, they ascend strictly. -/
theorem Claimed.ascending (h : Claimed registry db scan scopeRow scope)
    (hselected : scan.selectedModules.Nodup)
    (hdistinct : registry.OrdersDistinct scan.selectedModules) :
    (registry.applicable scan).Pairwise fun m m' => m.order < m'.order := by
  obtain ⟨modules, hordered, hnames⟩ := h.selected_of_ordered
  rw [applicable_of_ordered hordered]
  refine List.Pairwise.filter _ ?_
  have hnodup : modules.Nodup := (hnames.nodup_iff.mpr hselected).of_map _
  refine ((ModuleRegistry.pairwise_ordered hordered).and hnodup).imp_of_mem ?_
  rintro m m' hm hm' ⟨hle, hne⟩
  rw [ModuleRegistry.mem_ordered hordered hnames] at hm hm'
  have horder : m.order ≠ m'.order := fun heq =>
    hne (hdistinct m hm.1 m' hm'.1 hm.2 hm'.2 heq)
  omega

/-- The order they are selected in does not count. -/
theorem Claimed.applicable_perm {db' : Db} {selected' : List String}
    (h : Claimed registry db scan scopeRow scope)
    (h' : Claimed registry db' { scan with selectedModules := selected' } scopeRow scope)
    (hperm : selected'.Perm scan.selectedModules) (hselected : scan.selectedModules.Nodup)
    (hdistinct : registry.OrdersDistinct scan.selectedModules) :
    registry.applicable { scan with selectedModules := selected' } = registry.applicable scan := by
  have hdistinct' : registry.OrdersDistinct selected' := fun m hm m' hm' hname hname' =>
    hdistinct m hm m' hm' (hperm.subset hname) (hperm.subset hname')
  have hasc := h.ascending hselected hdistinct
  have hasc' := h'.ascending (hperm.nodup_iff.mpr hselected) hdistinct'
  have hirrefl : Std.Irrefl fun m m' : ModuleMetadata => m.order < m'.order :=
    ⟨fun m => lt_irrefl m.order⟩
  have hantisymm : Std.Antisymm fun m m' : ModuleMetadata => m.order < m'.order :=
    ⟨fun _ _ hlt hlt' => absurd hlt' hlt.asymm⟩
  refine List.Pairwise.eq_of_mem_iff hasc' hasc fun m => ?_
  rw [h.mem_applicable, h'.mem_applicable, hperm.mem_iff]

/-- What an execution comes to is said by its runs. -/
theorem scanOutcome_of_runs {status : ScanStatus} {c' : Log}
    (h : Claimed registry db scan scopeRow scope) (hselected : scan.selectedModules.Nodup)
    (hdistinct : registry.OrdersDistinct scan.selectedModules)
    (hstatus : status =
      (Tally.afterAll ⟨false, false, []⟩ (env.runs registry scope scan)).status)
    (hended : Ends scan.id (env.runs registry scope scan) (.start db) status c') :
    ScanOutcome registry env db scan scope (.ok status, c') := by
  have hran : c'.attempts = env.runs registry scope scan := hended.ran
  have hmodules : c'.attempts.map (·.module) =
      if env.accepts scope scan.targetInput then registry.applicable scan else [] := by
    rw [hran, runs_modules]
  obtain ⟨hends, hfailed, hcompleted⟩ := status_afterAll (env.runs registry scope scan)
  rw [← hstatus] at hends hfailed hcompleted
  refine ⟨?_, fun m => ?_, ?_, ?_, ?_, ?_, ?_, ?_⟩
  · have hmap : c'.attempts.map (·.module.order) =
        (c'.attempts.map (·.module)).map (·.order) := by rw [List.map_map]; rfl
    rw [hmap, hmodules, List.pairwise_map]
    split
    · exact h.ascending hselected hdistinct
    · exact .nil
  · rw [hmodules, ← h.mem_applicable]
    split <;> simp_all
  · rw [hran]
    exact runs_result
  · intro before a after heq
    rw [hran] at heq
    exact runs_prior heq
  · obtain ⟨closing, hclosing, hfindings, row, hrow, hrowStatus⟩ := hended.stored
    refine ⟨closing, hclosing, ?_, row, hrow, by rw [hrowStatus]⟩
    rw [hfindings, hran]
    rfl
  · simpa using hends
  · rw [hran]
    simpa using hfailed
  · rw [hran]
    simpa using hcompleted

end

/-- **Outcome.** Without a cancel, and with module runs that all end in a way the
runner has a clause for, an execution comes to what `ScanOutcome` says; selected
in another order, the same modules run alike, store the same findings and come
to the same status. -/
theorem outcome_spec (registry : ModuleRegistry) (retentionDays : ℕ) (env : OutcomeEnv) {db : Db}
    {scan : ScanRow} {scopeRow : ScopeProfileRow} {scope : ScopeProfile}
    (h : Claimed registry db scan scopeRow scope) (hselected : scan.selectedModules.Nodup)
    (hdistinct : registry.OrdersDistinct scan.selectedModules)
    (hends : ∀ module prior, Handled (env.ends module prior) = true) :
    let r := (executeScan registry retentionDays scan.id).run env.serve (.start db)
    ScanOutcome registry env db scan scope r ∧
      ∀ (db' : Db) (selected' : List String), selected'.Perm scan.selectedModules →
        Claimed registry db' { scan with selectedModules := selected' } scopeRow scope →
        let r' := (executeScan registry retentionDays scan.id).run env.serve (.start db')
        r'.1 = r.1 ∧ r'.2.attempts = r.2.attempts ∧
          ∃ closing closing' new, r.2.closing = some closing ∧ r'.2.closing = some closing' ∧
            closing.findings = db.findings ++ new ∧ closing'.findings = db'.findings ++ new := by
  intro r
  obtain ⟨status, c, hrun, hstatus, hended⟩ :=
    (goes_executeScan env retentionDays h hends).run_ok
  have hr : r = (.ok status, c) := hrun
  rw [hr]
  refine ⟨scanOutcome_of_runs h hselected hdistinct hstatus hended, ?_⟩
  intro db' selected' hperm h' r'
  obtain ⟨status', c', hrun', hstatus', hended'⟩ :=
    (goes_executeScan env retentionDays h' hends).run_ok
  have hr' : r' = (.ok status', c') := hrun'
  have hruns : env.runs registry scope { scan with selectedModules := selected' } =
      env.runs registry scope scan := by
    unfold OutcomeEnv.runs
    rw [h.applicable_perm h' hperm hselected hdistinct]
  rw [hruns] at hstatus' hended'
  obtain ⟨closing, hclosing, hfindings, -⟩ := hended.stored
  obtain ⟨closing', hclosing', hfindings', -⟩ := hended'.stored
  rw [hr', hstatus', hstatus]
  exact ⟨rfl, hended'.ran.trans hended.ran.symm, closing, closing', _, hclosing, hclosing',
    hfindings, hfindings'⟩

/-! ### Host discovery, and a port scan that times out -/

def labAlive : Finding :=
  ⟨"10.10.0.5", .liveHost, "host.live", "10.10.0.5 is alive", "Responded.", "host_discovery",
    "alive", none, .object [("address", .str "10.10.0.5")], none, some .high, [], 0⟩

def labOutcome : OutcomeEnv where
  now _ := 1
  resolve _ := .ok []
  footprint _ := (1, 1)
  ends module _ :=
    if module.name = "host_discovery" then .ok ⟨[labAlive], false, []⟩
    else .error (.failure .timeout)
  meanwhile _ _ := [.footprint 1 1]

theorem labOutcome_handled (module : ModuleMetadata) (prior : List Finding) :
    Handled (labOutcome.ends module prior) = true := by
  unfold labOutcome
  dsimp only
  split
  · rfl
  · rfl

/-- The modules of `labScan`, selected in the order they run in. -/
def labInOrder : List String := ["host_discovery", "port_scan"]

def labInOrderDb : Db where
  scopes := [labScopeRow]
  scans := [{ labScan with selectedModules := labInOrder }]
  moduleRuns := labInOrder.map fun name => ⟨1, name, .queued, 0, false, 0, none, none, none, none⟩
  findings := []
  ledger := []
  events := []
  lock := none
  nextId := 2

theorem labInOrderClaimed : Claimed builtinModules labInOrderDb
    { labScan with selectedModules := labInOrder } labScopeRow labScope where
  found := by decide +kernel
  running := rfl
  notCanceled := rfl
  scopeFound := by decide +kernel
  created := labClaimed.created
  intensity := labClaimed.intensity
  registered := by decide +kernel
  runs := by decide +kernel

theorem outcome_spec_lab :
    let r := (executeScan builtinModules 90 labScan.id).run labOutcome.serve (.start labDb)
    let r' := (executeScan builtinModules 90 labScan.id).run labOutcome.serve (.start labInOrderDb)
    ScanOutcome builtinModules labOutcome labDb labScan labScope r ∧ r'.1 = r.1 := by
  have hdistinct : builtinModules.OrdersDistinct labScan.selectedModules := by
    unfold ModuleRegistry.OrdersDistinct
    decide +kernel
  have hspec := outcome_spec builtinModules 90 labOutcome labClaimed (by decide +kernel) hdistinct
    labOutcome_handled
  obtain ⟨houtcome, hsame⟩ := hspec
  have hperm : labInOrder.Perm labScan.selectedModules := by decide +kernel
  obtain ⟨hstatus, -⟩ := hsame labInOrderDb labInOrder hperm labInOrderClaimed
  exact ⟨houtcome, hstatus⟩

end ScanLedger
