/-
# One execution

`execute_scan` on a claimed scan: one worker, no cancel, and statements that
fail only where a constraint says so, which none does. Each module run ends as
the environment likes, and while it runs the footprint ticker and the guard
write beside it.

Key definitions: `ScanEnv`, `Course`, `ScanEnv.serve`, `Handled`, `Going`,
`Closed`.
Key theorems: `obeys_publish`, `obeys_settleModule`, `obeys_runModule`,
`obeys_moduleLoop`, `moduleLoop_fails`.
-/
import ScanLedger.Runner
import ScanLedger.Validation

namespace ScanLedger

open Prog Table

/-! ### The course of an execution -/

/-- What is written while a module runs: an event of the ticker, an entry of
the guard. -/
inductive Aside
  | footprint (hostsProbed portsTouched : ℕ)
  | record (entry : LedgerEntry)
  deriving DecidableEq, Repr

def World.aside (scanId : ℕ) (w : World) : Aside → World
  | .footprint hostsProbed portsTouched =>
    match w.db.insertEvent ⟨scanId, w.db.nextSequence scanId, none,
      .footprint hostsProbed portsTouched⟩ with
    | some db => { w with db }
    | none => { w with ticker := .failed (.failure .integrity) }
  | .record entry => (w.insert (w.db.insertLedger ⟨some scanId, none, entry⟩)).2

/-- What an execution meets: the clock, the resolver, the governor's counters,
how its `i`-th module run ends and what is written while it runs. -/
structure ScanEnv where
  now : Db → ℚ
  resolve : String → Except ResolveError (List IPAddress)
  footprint : Db → ℕ × ℕ
  ends : ℕ → Except Exn ModuleResult
  meanwhile : ℕ → List Aside

/-- An execution as it stands: the modules it ran, and the database as its
retention sweep found it. -/
structure Course where
  world : World
  ran : List String
  closing : Option Db

def Course.start (db : Db) : Course := ⟨⟨db, .off⟩, [], none⟩

def ScanEnv.answers (env : ScanEnv) (c : Course) : Answers :=
  ⟨env.now c.world.db, env.resolve, env.footprint c.world.db, env.ends c.ran.length⟩

def Course.note (env : ScanEnv) (c : Course) : RunnerOp → Course
  | .runModule module context => { c with
      world := (env.meanwhile c.ran.length).foldl (World.aside context.scanId) c.world
      ran := c.ran ++ [module.name] }
  | .expiredScans _ => { c with closing := some c.world.db }
  | _ => c

def ScanEnv.serve (env : ScanEnv) (c : Course) (o : RunnerOp) : Except Exn o.Answer × Course :=
  let served := c.world.serve (env.answers c) o
  (served.1, Course.note env { c with world := served.2 } o)

/-- The module run ended in a way that `execute_scan` has a clause for. -/
def Handled : Except Exn ModuleResult → Bool
  | .ok _ => true
  | .error (.failure .timeout) => true
  | .error (.budgetExceeded _) => true
  | .error (.moduleError _ _) => true
  | .error (.targetRejected _ _) => true
  | .error _ => false

/-! ### Frames -/

/-- Nothing changes but what is logged, kept as evidence or published. -/
structure Quiet (c c' : Course) : Prop where
  scans : c'.world.db.scans = c.world.db.scans
  runs : c'.world.db.moduleRuns = c.world.db.moduleRuns
  ticker : c'.world.ticker = c.world.ticker
  ran : c'.ran = c.ran

/-- And a module run is written. -/
structure Wrote (scanId : ℕ) (module : String) (u : ModuleUpdate) (c c' : Course) : Prop where
  scans : c'.world.db.scans = c.world.db.scans
  runs : c'.world.db.moduleRuns = (c.world.db.updateModuleRun scanId module u).moduleRuns
  ticker : c'.world.ticker = c.world.ticker
  ran : c'.ran = c.ran

/-- The execution of a scan goes on: the scan is there, nobody cancelled it,
and its runs are terminal but for those of the modules to come. -/
structure Going (scanId : ℕ) (selected names : List String) (c : Course) : Prop where
  hasScan : c.world.db.hasScan scanId = true
  notCanceled : c.world.db.cancelRequested scanId = false
  modules : c.world.db.modulesOf scanId = selected
  rest : c.world.db.TerminalBut scanId names

section

variable {env : ScanEnv} {c c' c'' : Course} {scanId : ℕ} {selected names : List String}
  {module : String} {u : ModuleUpdate} {E : Exn → Course → Prop}

theorem Quiet.trans (h : Quiet c c') (h' : Quiet c' c'') : Quiet c c'' :=
  ⟨h'.scans.trans h.scans, h'.runs.trans h.runs, h'.ticker.trans h.ticker, h'.ran.trans h.ran⟩

theorem Quiet.wrote (h : Quiet c c') (hw : Wrote scanId module u c' c'') :
    Wrote scanId module u c c'' := by
  refine ⟨hw.scans.trans h.scans, ?_, hw.ticker.trans h.ticker, hw.ran.trans h.ran⟩
  rw [hw.runs]
  unfold Db.updateModuleRun
  rw [h.runs]

theorem Wrote.quiet (hw : Wrote scanId module u c c') (h : Quiet c' c'') :
    Wrote scanId module u c c'' :=
  ⟨h.scans.trans hw.scans, h.runs.trans hw.runs, h.ticker.trans hw.ticker, h.ran.trans hw.ran⟩

theorem Going.quiet (hg : Going scanId selected names c) (h : Quiet c c') :
    Going scanId selected names c' where
  hasScan := (Db.hasScan_congr h.scans).trans hg.hasScan
  notCanceled := (Db.cancelRequested_congr h.scans).trans hg.notCanceled
  modules := by
    unfold Db.modulesOf
    rw [h.runs]
    exact hg.modules
  rest := by
    unfold Db.TerminalBut
    rw [h.runs]
    exact hg.rest

/-- A write to the run of the module at hand. -/
theorem Going.wrote (hg : Going scanId selected (module :: names) c)
    (hw : Wrote scanId module u c c') : Going scanId selected (module :: names) c' where
  hasScan := (Db.hasScan_congr hw.scans).trans hg.hasScan
  notCanceled := (Db.cancelRequested_congr hw.scans).trans hg.notCanceled
  modules := by
    rw [← hg.modules, ← Db.modulesOf_updateModuleRun c.world.db scanId scanId module u]
    unfold Db.modulesOf
    rw [hw.runs]
  rest := by
    unfold Db.TerminalBut
    rw [hw.runs]
    exact hg.rest.write u

/-- The write that closes it. -/
theorem Going.closes (hg : Going scanId selected (module :: names) c)
    (hw : Wrote scanId module u c c') (hu : u.status.isTerminal = true) :
    Going scanId selected names c' where
  hasScan := (hg.wrote hw).hasScan
  notCanceled := (hg.wrote hw).notCanceled
  modules := (hg.wrote hw).modules
  rest := by
    unfold Db.TerminalBut
    rw [hw.runs]
    exact hg.rest.close hu

/-! ### The parts of an execution -/

section

variable {σ : Type} {serve : σ → (o : RunnerOp) → Except Exn o.Answer × σ} {s s' : σ}
  {E : Exn → σ → Prop}

theorem obeys_ask (o : RunnerOp) {a : o.Answer} {Q : o.Answer → σ → Prop}
    (h : serve s o = (.ok a, s')) (hQ : Q a s') : (ask o).Obeys (ofHandler serve) Q E s :=
  Obeys.perform_ok h hQ

/-- A statement that only reads. -/
theorem obeys_read (o : RunnerOp) {a : o.Answer} (h : serve s o = (.ok a, s)) :
    (ask o).Obeys (ofHandler serve) (fun b s' => a = b ∧ s = s') E s :=
  obeys_ask o h ⟨rfl, rfl⟩

/-- The sweep of retention keeps what holds from its look at the expired scans on, if its
statements do. -/
theorem obeys_sweep {I : σ → Prop} (retentionDays : ℕ)
    (hnow : ∀ s, ∃ moment, serve s .now = (.ok moment, s))
    (hexpired : ∀ cutoff, ∃ ids s', serve s (.expiredScans cutoff) = (.ok ids, s') ∧ I s')
    (hdelete : ∀ s ids, I s → ∃ s', serve s (.deleteScans ids) = (.ok (), s') ∧ I s')
    (hcache : ∀ s moment, I s → ∃ s', serve s (.sweepExpiredCache moment) = (.ok (), s') ∧ I s') :
    (runRetention retentionDays).Obeys (ofHandler serve) (fun _ s' => I s') E s := by
  unfold runRetention
  have hscans : (sweepOldScans retentionDays).Obeys (ofHandler serve) (fun _ s' => I s') E s := by
    unfold sweepOldScans
    obtain ⟨moment, hmoment⟩ := hnow s
    refine Obeys.bind (obeys_read .now hmoment) ?_
    rintro _ _ ⟨rfl, rfl⟩
    obtain ⟨ids, s₁, hids, h₁⟩ := hexpired (moment - retentionDays * 86400)
    have hlooked : (ask (.expiredScans (moment - retentionDays * 86400))).Obeys (ofHandler serve)
        (fun _ s' => I s') E s := obeys_ask _ hids h₁
    refine Obeys.bind hlooked fun ids s₂ h₂ => ?_
    cases ids with
    | nil => exact .ret h₂
    | cons id ids =>
      obtain ⟨s₃, hserve, h₃⟩ := hdelete s₂ (id :: ids) h₂
      exact obeys_ask _ hserve h₃
  refine Obeys.bind hscans fun _ s₁ h₁ => ?_
  obtain ⟨moment, hmoment⟩ := hnow s₁
  refine Obeys.bind (obeys_read .now hmoment) ?_
  rintro _ _ ⟨rfl, rfl⟩
  obtain ⟨s₂, hserve, h₂⟩ := hcache s₁ moment h₁
  exact obeys_ask _ hserve h₂

end

theorem obeys_publish (h : c.world.db.hasScan scanId = true) (event : Event)
    (module : Option String) :
    (publish scanId event module).Obeys (ofHandler env.serve) (fun _ c' => Quiet c c') E c := by
  unfold publish
  refine Obeys.bind (obeys_read (.nextSequence scanId) rfl) ?_
  rintro _ _ ⟨rfl, rfl⟩
  have hserve : env.serve c (.insertEvent ⟨scanId, c.world.db.nextSequence scanId, module, event⟩) =
      (.ok (), { c with world := { c.world with db := { c.world.db with
        events := c.world.db.events ++
          [⟨scanId, c.world.db.nextSequence scanId, module, event⟩] } } }) := by
    simp only [ScanEnv.serve, World.serve_insertEvent h, Course.note]
  exact obeys_ask _ hserve ⟨rfl, rfl, rfl, rfl⟩

theorem obeys_setModuleStatus (h : c.world.db.hasScan scanId = true) (module : String)
    (status : ModuleStatus) (reason code : Option String) (findingCount : ℕ) (cacheHit : Bool) :
    (setModuleStatus scanId module status reason code findingCount cacheHit).Obeys
      (ofHandler env.serve) (fun _ c' => ∃ u, u.status = status ∧ Wrote scanId module u c c') E c :=
    by
  unfold setModuleStatus
  refine Obeys.bind (obeys_read .now rfl) ?_
  rintro now _ ⟨-, rfl⟩
  let u : ModuleUpdate := ⟨status, now, findingCount, cacheHit, reason, code⟩
  have hwrite : (ask (.updateModuleRun scanId module u)).Obeys (ofHandler env.serve)
      (fun _ c' => Wrote scanId module u c c') E c := obeys_ask _ rfl ⟨rfl, rfl, rfl, rfl⟩
  refine Obeys.bind hwrite fun _ c' hw => ?_
  have hscan : c'.world.db.hasScan scanId = true := (Db.hasScan_congr hw.scans).trans h
  exact Obeys.mono (obeys_publish hscan _ _) (fun _ _ hq => ⟨u, rfl, hw.quiet hq⟩) fun _ _ hx => hx

theorem obeys_storeFindings (h : c.world.db.hasScan scanId = true) (findings : List Finding) :
    (storeFindings scanId findings).Obeys (ofHandler env.serve) (fun _ c' => Quiet c c') E c := by
  cases findings with
  | nil => exact .ret ⟨rfl, rfl, rfl, rfl⟩
  | cons f fs =>
    have hserve : env.serve c (.insertFindings scanId (f :: fs)) =
        (.ok (), { c with world := { c.world with db := { c.world.db with
          findings := c.world.db.findings ++ (f :: fs).map fun f => ⟨scanId, f⟩ } } }) := by
      simp only [ScanEnv.serve, World.serve_insertFindings h, Course.note]
    exact obeys_ask _ hserve ⟨rfl, rfl, rfl, rfl⟩

theorem obeys_publishFootprint (h : c.world.db.hasScan scanId = true) :
    (publishFootprint scanId).Obeys (ofHandler env.serve) (fun _ c' => Quiet c c') E c := by
  unfold publishFootprint
  refine Obeys.bind (obeys_read .footprint rfl) ?_
  rintro counts _ ⟨-, rfl⟩
  exact obeys_publish h _ _

theorem obeys_failModule (h : c.world.db.hasScan scanId = true) (module : String) (t : Tally)
    (reason code : String) :
    (failModule scanId module t reason code).Obeys (ofHandler env.serve)
      (fun _ c' => ∃ u, u.status.isTerminal = true ∧ Wrote scanId module u c c') E c := by
  unfold failModule
  refine Obeys.bind (obeys_setModuleStatus h module .failed _ _ _ _) fun _ c' hw => ?_
  obtain ⟨u, hu, hw⟩ := hw
  exact .ret ⟨u, by rw [hu]; rfl, hw⟩

/-- A clause for each way to end that is handled, and the run is closed. -/
theorem obeys_settleModule (h : c.world.db.hasScan scanId = true) (module : ModuleMetadata)
    (t : Tally) {r : Except Exn ModuleResult} (hr : Handled r = true) :
    (settleModule scanId module t r).Obeys (ofHandler env.serve)
      (fun _ c' => ∃ u, u.status.isTerminal = true ∧ Wrote scanId module.name u c c') E c := by
  match r, hr with
  | .error (.failure .timeout), _ => exact obeys_failModule h _ _ _ _
  | .error (.budgetExceeded e), _ => exact obeys_failModule h _ _ _ _
  | .error (.moduleError code message), _ => exact obeys_failModule h _ _ _ _
  | .error (.targetRejected target reason), _ => exact obeys_failModule h _ _ _ _
  | .ok result, _ =>
    unfold settleModule
    refine Obeys.bind (obeys_storeFindings h result.findings) fun _ c' hq => ?_
    have hscan : c'.world.db.hasScan scanId = true := (Db.hasScan_congr hq.scans).trans h
    refine Obeys.bind (obeys_setModuleStatus hscan module.name .done _ _ _ _) fun _ c'' hw => ?_
    obtain ⟨u, hu, hw⟩ := hw
    exact .ret ⟨u, by rw [hu]; rfl, hq.wrote hw⟩

/-- Any other exception goes through. -/
theorem settleModule_raises (module : ModuleMetadata) (t : Tally) {r : Except Exn ModuleResult}
    (hr : Handled r = false) : ∃ x, settleModule scanId module t r = raise x := by
  match r, hr with
  | .error (.resolution text), _ => exact ⟨_, rfl⟩
  | .error (.governorConfig e), _ => exact ⟨_, rfl⟩
  | .error (.failure .cancelled), _ => exact ⟨_, rfl⟩
  | .error (.failure .integrity), _ => exact ⟨_, rfl⟩
  | .error (.failure (.os text)), _ => exact ⟨_, rfl⟩
  | .error (.failure (.other text)), _ => exact ⟨_, rfl⟩

/-! ### A module run -/

/-- The ticker and the guard write what they write; the scan's row is there. -/
theorem foldl_aside {w : World} (h : w.db.hasScan scanId = true) : ∀ asides : List Aside,
    (asides.foldl (World.aside scanId) w).db.scans = w.db.scans ∧
      (asides.foldl (World.aside scanId) w).db.moduleRuns = w.db.moduleRuns ∧
      (asides.foldl (World.aside scanId) w).db.findings = w.db.findings ∧
      (asides.foldl (World.aside scanId) w).ticker = w.ticker := by
  intro asides
  induction asides generalizing w with
  | nil => exact ⟨rfl, rfl, rfl, rfl⟩
  | cons a rest ih =>
    rw [List.foldl_cons]
    have hstep : (w.aside scanId a).db.scans = w.db.scans ∧
        (w.aside scanId a).db.moduleRuns = w.db.moduleRuns ∧
        (w.aside scanId a).db.findings = w.db.findings ∧
        (w.aside scanId a).ticker = w.ticker := by
      cases a with
      | footprint hosts ports =>
        simp only [World.aside, Db.insertEvent_next h, and_self]
      | record entry =>
        simp only [World.aside, Db.insertLedger_of_hasScan h, World.insert, and_self]
    obtain ⟨hscans, hruns, hfindings, hticker⟩ := hstep
    obtain ⟨hscans', hruns', hfindings', hticker'⟩ := ih ((Db.hasScan_congr hscans).trans h)
    exact ⟨hscans'.trans hscans, hruns'.trans hruns, hfindings'.trans hfindings,
      hticker'.trans hticker⟩

/-- What a module run leaves of the course it meets: the scan is as it was. -/
structure RanModule (module : ModuleMetadata) (c c' : Course) : Prop where
  scans : c'.world.db.scans = c.world.db.scans
  runs : c'.world.db.moduleRuns = c.world.db.moduleRuns
  ticker : c'.world.ticker = c.world.ticker
  ran : c'.ran = c.ran ++ [module.name]

theorem obeys_tried (h : c.world.db.hasScan scanId = true) (module : ModuleMetadata)
    (target : ValidatedTarget) (prior : List Finding) :
    (tried (.runModule module ⟨scanId, target, prior⟩)).Obeys (ofHandler env.serve)
      (fun r c' => r = env.ends c.ran.length ∧ RanModule module c c') E c := by
  obtain ⟨hscans, hruns, -, hticker⟩ := foldl_aside h (env.meanwhile c.ran.length)
  have hran : RanModule module c
      (env.serve c (.runModule module ⟨scanId, target, prior⟩)).2 :=
    ⟨hscans, hruns, hticker, rfl⟩
  exact Obeys.outcome (o := RunnerOp.runModule module ⟨scanId, target, prior⟩)
    (Q := fun r c' => r = env.ends c.ran.length ∧ RanModule module c c') ⟨rfl, hran⟩

theorem RanModule.going {m : ModuleMetadata} (hm : RanModule m c c')
    (hg : Going scanId selected names c) : Going scanId selected names c' where
  hasScan := (Db.hasScan_congr hm.scans).trans hg.hasScan
  notCanceled := (Db.cancelRequested_congr hm.scans).trans hg.notCanceled
  modules := by
    unfold Db.modulesOf
    rw [hm.runs]
    exact hg.modules
  rest := by
    unfold Db.TerminalBut
    rw [hm.runs]
    exact hg.rest

/-- The `try` of the module loop, for an end that is handled. -/
theorem obeys_tryModule {module : ModuleMetadata}
    (hg : Going scanId selected (module.name :: names) c)
    (hr : Handled (env.ends c.ran.length) = true) (target : ValidatedTarget) (t : Tally) :
    (tryModule scanId target module t).Obeys (ofHandler env.serve)
      (fun _ c' => Going scanId selected names c' ∧ c'.world.ticker = c.world.ticker ∧
        c'.ran = c.ran ++ [module.name]) E c := by
  unfold tryModule
  refine Obeys.bind (obeys_tried hg.hasScan module target t.produced) ?_
  rintro _ c₁ ⟨rfl, hm⟩
  have hg₁ := hm.going hg
  refine Obeys.mono (obeys_settleModule hg₁.hasScan module t hr) ?_ fun _ _ hx => hx
  rintro _ c₂ ⟨u, hu, hw⟩
  exact ⟨hg₁.closes hw hu, hw.ticker.trans hm.ticker, hw.ran.trans hm.ran⟩

/-- And for one that is not. -/
theorem tryModule_fails {module : ModuleMetadata} (h : c.world.db.hasScan scanId = true)
    (hr : Handled (env.ends c.ran.length) = false) (target : ValidatedTarget) (t : Tally)
    {Q : Tally → Course → Prop} :
    (tryModule scanId target module t).Obeys (ofHandler env.serve) Q (fun _ _ => True) c := by
  unfold tryModule
  refine Obeys.bind (obeys_tried h module target t.produced) ?_
  rintro _ c₁ ⟨rfl, -⟩
  obtain ⟨x, hx⟩ := settleModule_raises module t hr
  rw [hx]
  exact .raise trivial

/-- Before the `try`: the module run is running and the ticker is on. -/
theorem obeys_runModule_start {module : ModuleMetadata}
    (hg : Going scanId selected (module.name :: names) c) {target : ValidatedTarget} {t : Tally}
    {Q : Tally → Course → Prop}
    (hrest : ∀ c', Going scanId selected (module.name :: names) c' →
      c'.world.ticker = .asleep scanId → c'.ran = c.ran →
      (Prog.bind (Prog.tryFinally (tryModule scanId target module t) (ask .stopTicker)) fun t =>
        Prog.bind (publishFootprint scanId) fun _ => ret t).Obeys (ofHandler env.serve) Q E c') :
    (runModule scanId target module t).Obeys (ofHandler env.serve) Q E c := by
  unfold runModule
  refine Obeys.bind (obeys_setModuleStatus hg.hasScan module.name .running _ _ _ _) ?_
  rintro _ c₁ ⟨u, -, hw⟩
  have hg₁ := hg.wrote hw
  have hstart : (ask (.startTicker scanId)).Obeys (ofHandler env.serve)
      (fun _ c' => Going scanId selected (module.name :: names) c' ∧
        c'.world.ticker = .asleep scanId ∧ c'.ran = c.ran) E c₁ :=
    obeys_ask _ rfl ⟨⟨hg₁.hasScan, hg₁.notCanceled, hg₁.modules, hg₁.rest⟩, rfl, hw.ran⟩
  refine Obeys.bind hstart ?_
  rintro _ c₂ ⟨hg₂, hticker, hran⟩
  exact hrest c₂ hg₂ hticker hran

theorem obeys_runModule {module : ModuleMetadata}
    (hg : Going scanId selected (module.name :: names) c)
    (hr : Handled (env.ends c.ran.length) = true) (target : ValidatedTarget) (t : Tally) :
    (runModule scanId target module t).Obeys (ofHandler env.serve)
      (fun _ c' => Going scanId selected names c' ∧ c'.ran = c.ran ++ [module.name]) E c := by
  refine obeys_runModule_start hg fun c₁ hg₁ hticker hran => ?_
  rw [← hran] at hr ⊢
  have htry : (Prog.tryFinally (tryModule scanId target module t) (ask .stopTicker)).Obeys
      (ofHandler env.serve)
      (fun _ c' => Going scanId selected names c' ∧ c'.ran = c₁.ran ++ [module.name]) E c₁ := by
    refine Obeys.tryFinally (obeys_tryModule (E := fun _ _ => False) hg₁ hr target t) ?_
      (fun _ _ hx => hx.elim)
    -- the ticker did not fail, so that awaiting it raises nothing
    rintro _ c₂ ⟨hg₂, hticker₂, hran₂⟩
    have hstop : env.serve c₂ .stopTicker =
        (.ok (), { c₂ with world := { c₂.world with ticker := .off } }) := by
      simp only [ScanEnv.serve, World.serve, hticker₂, hticker, Course.note]
    exact obeys_ask _ hstop ⟨⟨hg₂.hasScan, hg₂.notCanceled, hg₂.modules, hg₂.rest⟩, hran₂⟩
  refine Obeys.bind htry ?_
  rintro t' c₂ ⟨hg₂, hran₂⟩
  refine Obeys.bind (obeys_publishFootprint hg₂.hasScan) fun _ c₃ hq => ?_
  exact .ret ⟨hg₂.quiet hq, hq.ran.trans hran₂⟩

theorem runModule_fails {module : ModuleMetadata}
    (hg : Going scanId selected (module.name :: names) c)
    (hr : Handled (env.ends c.ran.length) = false) (target : ValidatedTarget) (t : Tally)
    {Q : Tally → Course → Prop} :
    (runModule scanId target module t).Obeys (ofHandler env.serve) Q (fun _ _ => True) c := by
  refine obeys_runModule_start hg fun c₁ hg₁ _ hran => ?_
  rw [← hran] at hr
  refine Obeys.bind (Q := fun _ _ => False) ?_ fun _ _ h => h.elim
  refine Obeys.tryFinally (Q := fun _ _ => False) (E := fun _ _ => True)
    (tryModule_fails hg₁.hasScan hr target t) (fun _ _ h => h.elim) fun _ c₂ _ => ?_
  have hstop : (ask .stopTicker).Obeys (ofHandler env.serve) (fun _ _ => True) (fun _ _ => True)
      c₂ := Obeys.perform trivial (fun _ _ => trivial) fun _ _ => trivial
  exact hstop

/-! ### The end, and the loop -/

/-- The closing sweep finds the scan with this status, and these runs. -/
def ClosedWith (scanId : ℕ) (status : ScanStatus) (runs : List ModuleRunRow) (c : Course) : Prop :=
  ∃ db, c.closing = some db ∧ db.moduleRuns = runs ∧
    ∃ scan, db.getScan scanId = some scan ∧ scan.status = status

/-- It finds the scan with this status and every run of it terminal. -/
def Closed (scanId : ℕ) (selected : List String) (status : ScanStatus) (c : Course) : Prop :=
  ∃ db, c.closing = some db ∧
    (∃ scan, db.getScan scanId = some scan ∧ scan.status = status) ∧
    db.modulesOf scanId = selected ∧
    ∀ r ∈ db.moduleRuns, r.scanId = scanId → r.status.isTerminal = true

theorem ClosedWith.closed_iff {status : ScanStatus} {db₀ : Db}
    (hm : db₀.modulesOf scanId = selected)
    (h : ClosedWith scanId status db₀.moduleRuns c) : Closed scanId selected status c ↔
      ∀ r ∈ db₀.moduleRuns, r.scanId = scanId → r.status.isTerminal = true := by
  obtain ⟨db, hclosing, hruns, hscan⟩ := h
  constructor
  · rintro ⟨db', hclosing', -, -, hterminal⟩
    rw [hclosing] at hclosing'
    cases hclosing'
    rw [← hruns]
    exact hterminal
  · intro hterminal
    refine ⟨db, hclosing, hscan, ?_, by rw [hruns]; exact hterminal⟩
    rw [← hm]
    unfold Db.modulesOf
    rw [hruns]

theorem obeys_runRetention (retentionDays : ℕ) :
    (runRetention retentionDays).Obeys (ofHandler env.serve)
      (fun _ c' => c'.ran = c.ran ∧ c'.closing = some c.world.db) E c :=
  obeys_sweep retentionDays (fun _ => ⟨_, rfl⟩) (fun _ => ⟨_, _, rfl, rfl, rfl⟩)
    (fun _ _ h => ⟨_, rfl, h⟩) fun _ _ h => ⟨_, rfl, h⟩

theorem obeys_finish (hg : Going scanId selected names c) (retentionDays : ℕ) (status : ScanStatus)
    (reason : Option String) :
    (finish retentionDays scanId status reason).Obeys (ofHandler env.serve)
      (fun s c' => s = status ∧ c'.ran = c.ran ∧
        ClosedWith scanId status c.world.db.moduleRuns c') E c := by
  unfold finish
  refine Obeys.bind (obeys_read .now rfl) ?_
  rintro now _ ⟨-, rfl⟩
  have hwrite : (ask (.updateScan scanId status now)).Obeys (ofHandler env.serve)
      (fun _ c' => c'.world.db = c.world.db.updateScan scanId status now ∧ c'.ran = c.ran) E c :=
    obeys_ask _ rfl ⟨rfl, rfl⟩
  refine Obeys.bind hwrite ?_
  rintro _ c₁ ⟨hdb, hran⟩
  have hscan : c₁.world.db.hasScan scanId = true := by
    rw [Db.hasScan_iff, hdb, Db.ids_updateScan, ← Db.hasScan_iff]
    exact hg.hasScan
  refine Obeys.bind (obeys_publish hscan _ _) fun _ c₂ hq => ?_
  refine Obeys.bind (obeys_runRetention retentionDays) fun _ c₃ hc => ?_
  refine .ret ⟨rfl, hc.1.trans (hq.ran.trans hran), c₂.world.db, hc.2, ?_, ?_⟩
  · rw [hq.runs, hdb]
    rfl
  · obtain ⟨scan, hget⟩ := Db.getScan_of_hasScan hg.hasScan
    refine ⟨{ scan with status := status, finishedAt := some now }, ?_, rfl⟩
    have hscans : c₂.world.db.getScan scanId = c₁.world.db.getScan scanId := by
      unfold Db.getScan
      rw [hq.scans]
    rw [hscans, hdb]
    exact Db.getScan_updateScan hget status now

/-- No module is to come, and the scan is closed. -/
theorem obeys_conclude (hg : Going scanId selected [] c) (retentionDays : ℕ) (t : Tally) :
    (conclude retentionDays scanId t).Obeys (ofHandler env.serve)
      (fun s c' => s.isTerminal = true ∧ c'.ran = c.ran ∧ Closed scanId selected s c') E c := by
  have hrest : ∀ r ∈ c.world.db.moduleRuns, r.scanId = scanId → r.status.isTerminal = true :=
    fun r hr hid => (hg.rest r hr hid).resolve_right List.not_mem_nil
  have hfinish : ∀ (status : ScanStatus) (reason : Option String), status.isTerminal = true →
      (finish retentionDays scanId status reason).Obeys (ofHandler env.serve)
        (fun s c' => s.isTerminal = true ∧ c'.ran = c.ran ∧ Closed scanId selected s c') E c := by
    intro status reason ht
    refine Obeys.mono (obeys_finish hg retentionDays status reason) ?_ fun _ _ hx => hx
    rintro _ c' ⟨rfl, hran, hclosed⟩
    exact ⟨ht, hran, (hclosed.closed_iff hg.modules).mpr hrest⟩
  unfold conclude
  split_ifs
  · exact hfinish .failed _ rfl
  · exact hfinish .completedWithWarnings _ rfl
  · exact hfinish .completed _ rfl

theorem obeys_notCanceled (hg : Going scanId selected names c) :
    (ask (.cancelRequested scanId)).Obeys (ofHandler env.serve)
      (fun canceled c' => false = canceled ∧ c = c') E c := by
  refine obeys_read (.cancelRequested scanId) ?_
  simp only [ScanEnv.serve, World.serve, hg.notCanceled, Course.note]

section Loop

variable {retentionDays : ℕ} {target : ValidatedTarget} {targetType : TargetType}

theorem obeys_skipped {m : ModuleMetadata} (hg : Going scanId selected (m.name :: names) c)
    (reason : Option String) :
    (setModuleStatus scanId m.name .notApplicable reason none 0 false).Obeys (ofHandler env.serve)
      (fun _ c' => Going scanId selected names c' ∧ c'.ran = c.ran) E c := by
  refine Obeys.mono (obeys_setModuleStatus hg.hasScan m.name .notApplicable reason none 0 false)
    ?_ fun _ _ hx => hx
  rintro _ c' ⟨u, hu, hw⟩
  exact ⟨hg.closes hw (by rw [hu]; rfl), hw.ran⟩

/-- **The module loop.** If every module that applies ends in a handled way,
each of them runs, each run is closed, and the scan ends. -/
theorem obeys_moduleLoop : ∀ (modules : List ModuleMetadata) (t : Tally) (c : Course),
    Going scanId selected (modules.map (·.name)) c →
    (∀ i < (modules.filter (·.appliesTo targetType)).length,
      Handled (env.ends (c.ran.length + i)) = true) →
    (moduleLoop retentionDays scanId target targetType modules t).Obeys (ofHandler env.serve)
      (fun status c' => status.isTerminal = true ∧
        c'.ran = c.ran ++ (modules.filter (·.appliesTo targetType)).map (·.name) ∧
        Closed scanId selected status c') E c
  | [], t, c, hg, _ => by
    unfold moduleLoop
    refine Obeys.bind (obeys_notCanceled hg) ?_
    rintro _ _ ⟨rfl, rfl⟩
    simpa using obeys_conclude hg retentionDays t
  | m :: rest, t, c, hg, hends => by
    unfold moduleLoop
    refine Obeys.bind (obeys_notCanceled hg) ?_
    rintro _ _ ⟨rfl, rfl⟩
    cases ha : m.appliesTo targetType with
    | false =>
      rw [List.filter_cons_of_neg (by simp [ha])] at hends ⊢
      refine Obeys.bind (obeys_skipped hg _) ?_
      rintro _ c₁ ⟨hg₁, hran⟩
      rw [← hran] at hends ⊢
      exact obeys_moduleLoop rest t c₁ hg₁ hends
    | true =>
      rw [List.filter_cons_of_pos (by simpa using ha)] at hends ⊢
      have hfirst : Handled (env.ends c.ran.length) = true := hends 0 (Nat.succ_pos _)
      refine Obeys.bind (obeys_runModule hg hfirst target t) ?_
      rintro t' c₁ ⟨hg₁, hran⟩
      have hrest : ∀ i < (rest.filter (·.appliesTo targetType)).length,
          Handled (env.ends (c₁.ran.length + i)) = true := by
        intro i hi
        have hi' := hends (i + 1) (Nat.succ_lt_succ hi)
        rw [hran, List.length_append, List.length_singleton, Nat.add_assoc, Nat.add_comm 1 i]
        exact hi'
      refine Obeys.mono (obeys_moduleLoop rest t' c₁ hg₁ hrest) ?_ fun _ _ hx => hx
      rintro status c₂ ⟨ht, hran₂, hclosed⟩
      refine ⟨ht, ?_, hclosed⟩
      rw [hran₂, hran, List.append_assoc, List.map_cons, List.singleton_append]

/-- And if one of them does not, its exception goes through. -/
theorem moduleLoop_fails {Q : ScanStatus → Course → Prop} :
    ∀ (modules : List ModuleMetadata) (t : Tally) (c : Course),
    Going scanId selected (modules.map (·.name)) c →
    (∃ i < (modules.filter (·.appliesTo targetType)).length,
      Handled (env.ends (c.ran.length + i)) = false) →
    (moduleLoop retentionDays scanId target targetType modules t).Obeys (ofHandler env.serve)
      Q (fun _ _ => True) c
  | [], _, _, _, ⟨i, hi, _⟩ => absurd hi (Nat.not_lt_zero i)
  | m :: rest, t, c, hg, hends => by
    unfold moduleLoop
    refine Obeys.bind (obeys_notCanceled hg) ?_
    rintro _ _ ⟨rfl, rfl⟩
    cases ha : m.appliesTo targetType with
    | false =>
      rw [List.filter_cons_of_neg (by simp [ha])] at hends
      refine Obeys.bind (obeys_skipped hg _) ?_
      rintro _ c₁ ⟨hg₁, hran⟩
      rw [← hran] at hends
      exact moduleLoop_fails rest t c₁ hg₁ hends
    | true =>
      rw [List.filter_cons_of_pos (by simpa using ha)] at hends
      cases hfirst : Handled (env.ends c.ran.length) with
      | false =>
        exact Obeys.bind (Q := fun _ _ => False) (runModule_fails hg hfirst target t)
          fun _ _ h => h.elim
      | true =>
        refine Obeys.bind (obeys_runModule hg hfirst target t) ?_
        rintro t' c₁ ⟨hg₁, hran⟩
        refine moduleLoop_fails rest t' c₁ hg₁ ?_
        -- the one that fails is among the rest
        obtain ⟨i, hi, hfail⟩ := hends
        cases i with
        | zero => exact absurd hfirst (by rw [Nat.add_zero] at hfail; simp [hfail])
        | succ i =>
          refine ⟨i, Nat.lt_of_succ_lt_succ hi, ?_⟩
          rw [hran, List.length_append, List.length_singleton, Nat.add_assoc, Nat.add_comm 1 i]
          exact hfail

end Loop

end

end ScanLedger
