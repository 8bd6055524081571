/-
# The script of an execution

What `execute_scan` may do next, however its statements are answered: a
protocol over what has happened in it so far. It keeps to its own scan, closes
the module runs in their order and each with a reason unless it is done, stores
what a module found before it says so, and ends the scan when every run is
closed, when a cancel was seen, or when the target was refused at dispatch. It
raises only after an answer that was at fault.

Key definitions: `Standing`, `Standing.next`, `faults`, `Standing.allows`, `script`.
Key theorems: `scripted_runRetention`, `scripted_dispatch`, `scripted_moduleLoop`,
`scripted_executeScan`.
-/
import ScanLedger.Execution

namespace ScanLedger

open Prog
open Governor (limitsOf intensityProfiles)

/-! ### What has happened -/

/-- An execution so far: where it stands, the scan as it was read, the modules
still to end, and of the first of them whether its run is marked running, what
it returned and whether that is stored. -/
structure Standing where
  point : Point
  scan : Option ScanRow
  todo : List ModuleMetadata
  running : Bool
  result : Option ModuleResult
  stored : Bool
  /-- The open module runs were marked as skipped. -/
  skipped : Bool
  /-- The status that ends the scan is written. -/
  ended : Bool
  /-- The sequence that was read for the next event. -/
  numbered : Option ℕ
  ticking : Bool
  /-- The scans that the retention sweep has selected. -/
  expired : List ℕ
  faulty : Bool

def Standing.start : Standing :=
  ⟨.reading, none, [], false, none, false, false, false, none, false, [], false⟩

/-- `create_scan` let it through: the profile is known and the modules are
registered. -/
def ScanRow.sound (registry : ModuleRegistry) (scan : ScanRow) : Bool :=
  (match limitsOf scan.intensityProfile intensityProfiles with
    | .ok _ => true
    | .error _ => false) &&
  scan.selectedModules.all (registry.has ·)

/-- Its scope can be created. -/
def ScopeProfileRow.sound (row : ScopeProfileRow) : Bool :=
  match ScopeProfile.create row.name row.entries row.allowCgnat row.allowLinkLocal with
  | .ok _ => true
  | .error _ => false

section

variable (registry : ModuleRegistry)

/-- An answer that `execute_scan` has no way on from. -/
def faults : (o : RunnerOp) → Except Exn o.Answer → Bool
  | .getScan _, .ok (some scan) => !scan.sound registry
  | .getScope _, .ok (some row) => !row.sound
  | .guard _ (.resolve _), .error (.resolution _) => false
  | .runModule _ _, r => !Handled r
  | _, .ok _ => false
  | _, .error _ => true

def ModuleRegistry.selection (registry : ModuleRegistry) (scan : ScanRow) : List ModuleMetadata :=
  match registry.ordered scan.selectedModules with
  | .ok modules => modules
  | .error _ => []

namespace Standing

variable (g : Standing)

/-- The run of the first module to come is written. -/
def wrote (u : ModuleUpdate) : Standing :=
  match u.status.isTerminal with
  | true => { g with todo := g.todo.tail, running := false, result := none, stored := false }
  | false => { g with running := true }

def after : (o : RunnerOp) → Except Exn o.Answer → Standing
  | .getScan _, .ok (some scan) =>
    { g with scan := some scan, todo := registry.selection scan }
  | .updateModuleRun _ _ u, .ok _ => g.wrote u
  | .skipRemaining _ _ _, .ok _ => { g with skipped := true, todo := [] }
  | .updateScan _ _ _, .ok _ => { g with ended := true }
  | .insertFindings _ _, .ok _ => { g with stored := true }
  | .nextSequence _, .ok n => { g with numbered := some n }
  | .insertEvent _, _ => { g with numbered := none }
  | .expiredScans _, .ok ids => { g with expired := ids }
  | .startTicker _, .ok _ => { g with ticking := true }
  | .stopTicker, _ => { g with ticking := false }
  | .runModule _ _, .ok result => { g with result := some result }
  | _, _ => g

def next (o : RunnerOp) (r : Except Exn o.Answer) : Standing :=
  match faults registry o r with
  | true => { g.after registry o r with point := g.point.next o r, faulty := true }
  | false => { g.after registry o r with point := g.point.next o r }

/-! ### What may be done next -/

/-- The run of the first module may be written so. -/
def writes (u : ModuleUpdate) : Prop :=
  match u.status with
  | .running => g.running = false ∧ g.point = .checked g.todo.length
  | .notApplicable =>
    g.running = false ∧ g.point = .checked g.todo.length ∧ u.reason.isSome = true
  | .failed => g.running = true ∧ g.result = none ∧ u.reason.isSome = true
  | .done => g.running = true ∧ ∃ result, g.result = some result ∧
      (result.findings = [] ∨ g.stored = true) ∧ u.findingCount = result.findings.length
  | .queued | .skipped | .interrupted => False

/-- The scan may end so. -/
def closes : ScanStatus → Prop
  | .canceled => g.point = .canceling ∧ g.skipped = true ∧ g.todo = []
  | .failed => (∃ left, g.point = .dispatching left) ∨ g.point = .checked 0 ∧ g.todo = []
  | .completed | .completedWithWarnings => g.point = .checked 0 ∧ g.todo = []
  | .queued | .running => False

variable (scanId : ℕ)

def allows : RunnerOp → Prop
  | .now | .expiredScans _ | .sweepExpiredCache _ | .footprint => True
  | .getScan id => id = scanId ∧ g.point = .reading
  | .getScope id => (∃ left, g.point = .dispatching left) ∧
      ∃ scan, g.scan = some scan ∧ id = scan.scopeId
  | .cancelRequested id => id = scanId ∧ g.ended = false ∧ g.running = false ∧
      (g.point = .dispatching g.todo.length ∨ g.point = .looping g.todo.length)
  | .updateScan id status _ => id = scanId ∧ g.ended = false ∧ g.closes status
  | .updateModuleRun id name u => id = scanId ∧ g.ended = false ∧
      ∃ m rest, g.todo = m :: rest ∧ name = m.name ∧ g.writes u
  | .skipRemaining id _ _ => id = scanId ∧ g.ended = false ∧ g.point = .canceling
  | .insertFindings id findings => id = scanId ∧ g.ended = false ∧ g.running = true ∧
      g.stored = false ∧ ∃ result, g.result = some result ∧ findings = result.findings
  | .nextSequence id => id = scanId
  | .insertEvent row => row.scanId = scanId ∧ g.numbered = some row.sequence
  | .deleteScans ids => ids = g.expired
  | .guard ledger o => ledger.scanId = some scanId ∧ (∃ left, g.point = .dispatching left) ∧
      ((∃ hostname, o = .resolve hostname) ∨ ∃ entry, o = .record entry)
  | .startTicker id => id = scanId ∧ g.ticking = false
  | .stopTicker => g.ticking = true
  | .runModule m context => context.scanId = scanId ∧ g.ended = false ∧ g.running = true ∧
      g.result = none ∧ g.stored = false ∧ g.todo.head? = some m

end Standing

/-- The scan that is asked for is the one that is found. -/
def answers : (o : RunnerOp) → Except Exn o.Answer → Prop
  | .getScan id, .ok (some scan) => scan.id = id
  | _, _ => True

/-- The script of an execution of this scan, answered in any other way. -/
def script (scanId : ℕ) : Protocol Exn RunnerOp RunnerOp.Answer Standing :=
  ⟨fun g => g.allows scanId, fun _ => answers, fun g => g.next registry⟩

/-- An exception follows an answer at fault, with the ticker as it was. -/
def Fails (ticking : Bool) (_ : Exn) (g : Standing) : Prop :=
  g.faulty = true ∧ g.ticking = ticking

end

/-! ### Publishing and retention -/

section

variable {registry : ModuleRegistry} {scanId : ℕ} {g : Standing} {b : Bool}

theorem scripted_ask (o : RunnerOp) {Q : o.Answer → Standing → Prop}
    (h : g.allows scanId o) (hQ : ∀ a, Q a (g.next registry o (.ok a)))
    (hf : ∀ x, Fails b x (g.next registry o (.error x))) :
    (ask o).Obeys (script registry scanId) Q (Fails b) g :=
  Obeys.perform h (fun a _ => hQ a) fun x _ => hf x

/-- What only reads the clock and the like leaves the standing as it is. -/
theorem scripted_still (o : RunnerOp) (h : g.allows scanId o)
    (hnext : ∀ a, g.next registry o (.ok a) = g)
    (hf : ∀ x, Fails b x (g.next registry o (.error x))) :
    (ask o).Obeys (script registry scanId) (fun _ g' => g = g') (Fails b) g :=
  scripted_ask o h (fun a => (hnext a).symm) hf

theorem scripted_now (hb : g.ticking = b) :
    (ask .now).Obeys (script registry scanId) (fun _ g' => g = g') (Fails b) g :=
  scripted_still .now trivial (fun _ => rfl) fun _ => ⟨rfl, hb⟩

/-- An event of the scan was stored. -/
def Standing.published (g : Standing) : Event → Standing
  | .scanFinished _ _ => { g with numbered := none, point := .finished }
  | .scanRunning | .moduleStatus .. | .footprint .. => { g with numbered := none }

theorem scripted_publish (hb : g.ticking = b) (event : Event) (module : Option String) :
    (publish scanId event module).Obeys (script registry scanId)
      (fun _ g' => g' = g.published event) (Fails b) g := by
  unfold publish
  refine Obeys.bind (scripted_ask (.nextSequence scanId)
    (Q := fun n g' => g' = { g with numbered := some n }) rfl (fun _ => rfl) fun _ => ⟨rfl, hb⟩) ?_
  rintro n _ rfl
  refine scripted_ask (.insertEvent ⟨scanId, n, module, event⟩) ⟨rfl, rfl⟩ (fun _ => ?_)
    fun _ => ⟨rfl, hb⟩
  cases event <;> rfl

theorem scripted_runRetention (hb : g.ticking = b) (retentionDays : ℕ) :
    (runRetention retentionDays).Obeys (script registry scanId) (fun _ _ => True) (Fails b) g := by
  unfold runRetention
  have hsweep : (sweepOldScans retentionDays).Obeys (script registry scanId)
      (fun _ g' => g'.ticking = b) (Fails b) g := by
    unfold sweepOldScans
    refine Obeys.bind (scripted_now hb) ?_
    rintro moment _ rfl
    refine Obeys.bind (scripted_ask (.expiredScans _)
      (Q := fun ids g' => g' = { g with expired := ids }) trivial (fun _ => rfl)
      fun _ => ⟨rfl, hb⟩) ?_
    rintro expired _ rfl
    cases expired with
    | nil => exact .ret hb
    | cons id ids =>
      exact scripted_ask (.deleteScans (id :: ids)) rfl (fun _ => hb) fun _ => ⟨rfl, hb⟩
  refine Obeys.bind hsweep fun _ g₁ hb₁ => ?_
  refine Obeys.bind (scripted_now hb₁) ?_
  rintro moment _ rfl
  exact scripted_ask (.sweepExpiredCache moment) trivial (fun _ => trivial) fun _ => ⟨rfl, hb₁⟩

/-! ### Module runs -/

variable {m : ModuleMetadata} {rest modules : List ModuleMetadata}

/-- The run of the first module to come was written and published. -/
def Standing.marked (g : Standing) (u : ModuleUpdate) : Standing :=
  { g.wrote u with point := g.point.write u.status, numbered := none }

theorem scripted_setModuleStatus (hb : g.ticking = b) (hopen : g.ended = false)
    (htodo : g.todo = m :: rest) (status : ModuleStatus) (reason code : Option String)
    (findingCount : ℕ) (cacheHit : Bool)
    (hw : ∀ now, g.writes ⟨status, now, findingCount, cacheHit, reason, code⟩) :
    (setModuleStatus scanId m.name status reason code findingCount cacheHit).Obeys
      (script registry scanId)
      (fun _ g' => ∃ now, g' = g.marked ⟨status, now, findingCount, cacheHit, reason, code⟩)
      (Fails b) g := by
  unfold setModuleStatus
  refine Obeys.bind (scripted_now hb) ?_
  rintro now _ rfl
  let u : ModuleUpdate := ⟨status, now, findingCount, cacheHit, reason, code⟩
  have hticking : (g.wrote u).ticking = b := by
    rw [← hb]
    unfold Standing.wrote
    cases u.status.isTerminal <;> rfl
  refine Obeys.bind (scripted_ask (.updateModuleRun scanId m.name u)
    (Q := fun _ g' => g' = { g.wrote u with point := g.point.write status })
    ⟨rfl, hopen, m, rest, htodo, rfl, hw now⟩ (fun _ => rfl) fun _ => ⟨rfl, hb⟩) ?_
  rintro _ _ rfl
  refine Obeys.mono (scripted_publish (g := { g.wrote u with point := g.point.write status })
    hticking _ _) ?_ fun _ _ hx => hx
  rintro _ _ rfl
  exact ⟨now, rfl⟩

/-- Between two modules: these are still to end. -/
structure Standing.Ready (g : Standing) (modules : List ModuleMetadata) (ticking : Bool) :
    Prop where
  todo : g.todo = modules
  point : g.point = .dispatching modules.length ∨ g.point = .looping modules.length
  ongoing : g.ended = false
  idle : g.running = false
  result : g.result = none
  stored : g.stored = false
  ticking : g.ticking = ticking

/-- In a module run, which has come to this result. -/
structure Standing.Midway (g : Standing) (m : ModuleMetadata) (rest : List ModuleMetadata)
    (result : Option ModuleResult) (stored : Bool) : Prop where
  todo : g.todo = m :: rest
  point : g.point = .looping (rest.length + 1)
  ongoing : g.ended = false
  running : g.running = true
  result : g.result = result
  stored : g.stored = stored
  ticking : g.ticking = true

/-- The first run is closed. -/
theorem Standing.Midway.ready {result : Option ModuleResult} {stored : Bool}
    (h : g.Midway m rest result stored) {u : ModuleUpdate} (hu : u.status.isTerminal = true) :
    (g.marked u).Ready rest true := by
  unfold marked
  rw [h.point]
  simp only [wrote, hu, Point.write, if_true, Nat.add_sub_cancel, h.todo, List.tail_cons]
  exact ⟨rfl, Or.inr rfl, h.ongoing, rfl, rfl, rfl, h.ticking⟩

theorem scripted_failModule (h : g.Midway m rest none false) (t : Tally) (reason code : String) :
    (failModule scanId m.name t reason code).Obeys (script registry scanId)
      (fun _ g' => g'.Ready rest true) (Fails true) g := by
  unfold failModule
  refine Obeys.bind (scripted_setModuleStatus h.ticking h.ongoing h.todo .failed (some reason)
    (some code) 0 false fun _ => ⟨h.running, h.result, rfl⟩) ?_
  rintro _ _ ⟨now, rfl⟩
  exact .ret (h.ready rfl)

theorem scripted_done (t : Tally) {result : ModuleResult} {stored : Bool}
    (h : g.Midway m rest (some result) stored) (hs : result.findings = [] ∨ stored = true) {n : ℕ}
    (hn : n = result.findings.length) (reason : Option String) (cacheHit : Bool) :
    (Prog.bind (setModuleStatus scanId m.name .done reason none n cacheHit) fun _ => ret t).Obeys
      (script registry scanId) (fun _ g' => g'.Ready rest true) (Fails true) g := by
  rw [← h.stored] at hs
  refine Obeys.bind (scripted_setModuleStatus h.ticking h.ongoing h.todo .done reason none n
    cacheHit fun _ => ⟨h.running, result, h.result, hs, hn⟩) ?_
  rintro _ _ ⟨now, rfl⟩
  exact .ret (h.ready rfl)

theorem scripted_storeFindings {result : ModuleResult} (h : g.Midway m rest (some result) false) :
    (storeFindings scanId result.findings).Obeys (script registry scanId)
      (fun _ g' => ∃ stored, g'.Midway m rest (some result) stored ∧
        (result.findings = [] ∨ stored = true)) (Fails true) g := by
  cases hf : result.findings with
  | nil => exact .ret ⟨false, h, Or.inl rfl⟩
  | cons f fs =>
    refine scripted_ask (.insertFindings scanId (f :: fs))
      ⟨rfl, h.ongoing, h.running, h.stored, result, h.result, hf.symm⟩ (fun _ => ?_)
      fun _ => ⟨rfl, h.ticking⟩
    exact ⟨true, ⟨h.todo, h.point, h.ongoing, h.running, h.result, rfl, h.ticking⟩, Or.inr rfl⟩

/-- A clause for each way to end that is handled, and the run is closed. -/
theorem scripted_settleModule (t : Tally) {r : Except Exn ModuleResult} (hr : Handled r = true)
    (h : g.Midway m rest r.toOption false) :
    (settleModule scanId m t r).Obeys (script registry scanId)
      (fun _ g' => g'.Ready rest true) (Fails true) g := by
  match r, hr with
  | .error (.failure .timeout), _ => exact scripted_failModule h t _ _
  | .error (.budgetExceeded e), _ => exact scripted_failModule h t _ _
  | .error (.moduleError code message), _ => exact scripted_failModule h t _ _
  | .error (.targetRejected target reason), _ => exact scripted_failModule h t _ _
  | .ok result, _ =>
    unfold settleModule
    refine Obeys.bind (scripted_storeFindings h) ?_
    rintro _ g₁ ⟨stored, h₁, hs⟩
    exact scripted_done _ h₁ hs rfl _ _

theorem scripted_tryModule (h : g.Midway m rest none false) (target : ValidatedTarget) (t : Tally) :
    (tryModule scanId target m t).Obeys (script registry scanId)
      (fun _ g' => g'.Ready rest true) (Fails true) g := by
  unfold tryModule
  refine .op ⟨rfl, h.ongoing, h.running, h.result, h.stored, by rw [h.todo]; rfl⟩ fun r _ => ?_
  show (settleModule scanId m t r).Obeys _ _ _ (g.next registry (.runModule m _) r)
  have hfault : faults registry (.runModule m ⟨scanId, target, t.produced⟩) r = !Handled r := by
    cases r <;> rfl
  cases hr : Handled r with
  | true =>
    refine scripted_settleModule t hr ?_
    unfold Standing.next
    rw [hfault, hr]
    cases r with
    | ok result => exact ⟨h.todo, h.point, h.ongoing, h.running, rfl, h.stored, h.ticking⟩
    | error x => exact ⟨h.todo, h.point, h.ongoing, h.running, h.result, h.stored, h.ticking⟩
  | false =>
    obtain ⟨x, hx⟩ := settleModule_raises m t hr
    rw [hx]
    refine .raise ?_
    unfold Standing.next
    rw [hfault, hr]
    cases r with
    | ok result => cases hr
    | error x => exact ⟨rfl, h.ticking⟩

/-- A module of those to come, from the write that it is running on. -/
theorem scripted_runModule (htodo : g.todo = m :: rest)
    (hpoint : g.point = .checked (rest.length + 1)) (hopen : g.ended = false)
    (hidle : g.running = false) (hresult : g.result = none) (hstored : g.stored = false)
    (hticking : g.ticking = false) (target : ValidatedTarget) (t : Tally) :
    (runModule scanId target m t).Obeys (script registry scanId)
      (fun _ g' => g'.Ready rest false) (Fails false) g := by
  unfold runModule
  refine Obeys.bind (scripted_setModuleStatus hticking hopen htodo .running none none 0 false
    fun _ => ⟨hidle, by rw [hpoint, htodo, List.length_cons]⟩) ?_
  rintro _ _ ⟨now, rfl⟩
  have hstart : (ask (.startTicker scanId)).Obeys (script registry scanId)
      (fun _ g' => g'.Midway m rest none false) (Fails false)
      (g.marked ⟨.running, now, 0, false, none, none⟩) := by
    refine scripted_ask (.startTicker scanId) ⟨rfl, hticking⟩ (fun _ => ?_) fun _ => ⟨rfl, hticking⟩
    refine ⟨htodo, ?_, hopen, rfl, hresult, hstored, rfl⟩
    show g.point.write .running = .looping (rest.length + 1)
    rw [hpoint]
    rfl
  refine Obeys.bind hstart fun _ g₁ h₁ => ?_
  have htry : (Prog.tryFinally (tryModule scanId target m t) (ask .stopTicker)).Obeys
      (script registry scanId) (fun _ g' => g'.Ready rest false) (Fails false) g₁ := by
    refine Obeys.tryFinally (scripted_tryModule h₁ target t) ?_ ?_
    · intro _ g₂ h₂
      refine scripted_ask .stopTicker h₂.ticking (fun _ => ?_) fun _ => ⟨rfl, rfl⟩
      exact ⟨h₂.todo, h₂.point, h₂.ongoing, h₂.idle, h₂.result, h₂.stored, rfl⟩
    · rintro x g₂ ⟨hfaulty, hticking₂⟩
      exact scripted_ask .stopTicker hticking₂ (fun _ => ⟨hfaulty, rfl⟩) fun _ => ⟨rfl, rfl⟩
  refine Obeys.bind htry fun t' g₂ h₂ => ?_
  have hprint : (publishFootprint scanId).Obeys (script registry scanId)
      (fun _ g' => g'.Ready rest false) (Fails false) g₂ := by
    unfold publishFootprint
    refine Obeys.bind (scripted_still .footprint trivial (fun _ => rfl)
      fun _ => ⟨rfl, h₂.ticking⟩) ?_
    rintro counts _ rfl
    refine Obeys.mono (scripted_publish h₂.ticking _ _) ?_ fun _ _ hx => hx
    rintro _ _ rfl
    exact ⟨h₂.todo, h₂.point, h₂.ongoing, h₂.idle, h₂.result, h₂.stored, h₂.ticking⟩
  exact Obeys.bind hprint fun _ _ h₃ => .ret h₃

/-! ### The end, and the loop -/

variable {retentionDays : ℕ}

theorem scripted_finish (hb : g.ticking = false) (hopen : g.ended = false) (status : ScanStatus)
    (hs : g.closes status) (reason : Option String) :
    (finish retentionDays scanId status reason).Obeys (script registry scanId) (fun _ _ => True)
      (Fails false) g := by
  unfold finish
  refine Obeys.bind (scripted_now hb) ?_
  rintro now _ rfl
  refine Obeys.bind (scripted_ask (.updateScan scanId status now)
    (Q := fun _ g' => g' = { g with ended := true }) ⟨rfl, hopen, hs⟩ (fun _ => rfl)
    fun _ => ⟨rfl, hb⟩) ?_
  rintro _ _ rfl
  refine Obeys.bind (scripted_publish (g := { g with ended := true }) hb _ _) ?_
  rintro _ _ rfl
  exact Obeys.bind (scripted_runRetention
    (g := Standing.published { g with ended := true } (.scanFinished status reason)) hb
    retentionDays) fun _ _ _ => .ret trivial

theorem scripted_finishCanceled (hb : g.ticking = false) (hopen : g.ended = false)
    (hpoint : g.point = .canceling) :
    (finishCanceled retentionDays scanId).Obeys (script registry scanId) (fun _ _ => True)
      (Fails false) g := by
  unfold finishCanceled
  refine Obeys.bind (scripted_now hb) ?_
  rintro now _ rfl
  refine Obeys.bind (scripted_ask (.skipRemaining scanId "the scan was canceled" now)
    (Q := fun _ g' => g' = { g with skipped := true, todo := [] }) ⟨rfl, hopen, hpoint⟩
    (fun _ => rfl) fun _ => ⟨rfl, hb⟩) ?_
  rintro _ _ rfl
  exact scripted_finish (g := { g with skipped := true, todo := [] }) hb hopen .canceled
    ⟨hpoint, rfl, rfl⟩ none

theorem scripted_conclude (hb : g.ticking = false) (hopen : g.ended = false) (htodo : g.todo = [])
    (hpoint : g.point = .checked 0) (t : Tally) :
    (conclude retentionDays scanId t).Obeys (script registry scanId) (fun _ _ => True)
      (Fails false) g := by
  unfold conclude
  split_ifs
  · exact scripted_finish hb hopen .failed (Or.inr ⟨hpoint, htodo⟩) _
  · exact scripted_finish hb hopen .completedWithWarnings ⟨hpoint, htodo⟩ none
  · exact scripted_finish hb hopen .completed ⟨hpoint, htodo⟩ none

/-- The check for a cancel before a module, and after the last. -/
theorem scripted_cancelRequested (h : g.Ready modules false) :
    (ask (.cancelRequested scanId)).Obeys (script registry scanId)
      (fun (canceled : Bool) g' => g'.todo = modules ∧ g'.ended = false ∧ g'.running = false ∧
        g'.result = none ∧ g'.stored = false ∧ g'.ticking = false ∧
        g'.point = if canceled then .canceling else .checked modules.length)
      (Fails false) g := by
  refine scripted_ask (.cancelRequested scanId) ⟨rfl, h.ongoing, h.idle, ?_⟩ (fun canceled => ?_)
    fun _ => ⟨rfl, h.ticking⟩
  · rw [h.todo]
    exact h.point
  · refine ⟨h.todo, h.ongoing, h.idle, h.result, h.stored, h.ticking, ?_⟩
    show g.point.check canceled = _
    rcases h.point with hp | hp <;> rw [hp] <;> rfl

theorem scripted_moduleLoop (target : ValidatedTarget) (targetType : TargetType) :
    ∀ (modules : List ModuleMetadata) (t : Tally) (g : Standing), g.Ready modules false →
    (moduleLoop retentionDays scanId target targetType modules t).Obeys (script registry scanId)
      (fun _ _ => True) (Fails false) g
  | [], t, g, h => by
    unfold moduleLoop
    refine Obeys.bind (scripted_cancelRequested h) ?_
    rintro canceled g₁ ⟨htodo, hopen, hidle, hresult, hstored, hb, hpoint⟩
    cases canceled with
    | true => exact scripted_finishCanceled hb hopen hpoint
    | false => exact scripted_conclude hb hopen htodo hpoint t
  | m :: rest, t, g, h => by
    unfold moduleLoop
    refine Obeys.bind (scripted_cancelRequested h) ?_
    rintro canceled g₁ ⟨htodo, hopen, hidle, hresult, hstored, hb, hpoint⟩
    cases canceled with
    | true => exact scripted_finishCanceled hb hopen hpoint
    | false =>
      have hpoint : g₁.point = .checked (rest.length + 1) := hpoint
      cases m.appliesTo targetType with
      | false =>
        refine Obeys.bind (scripted_setModuleStatus hb hopen htodo .notApplicable _ none 0 false
          fun _ => ⟨hidle, by rw [hpoint, htodo, List.length_cons], rfl⟩) ?_
        rintro _ _ ⟨now, rfl⟩
        refine scripted_moduleLoop target targetType rest t _
          ⟨?_, Or.inr ?_, hopen, rfl, rfl, rfl, hb⟩
        · show g₁.todo.tail = rest
          rw [htodo]
          rfl
        · show g₁.point.write .notApplicable = .looping rest.length
          rw [hpoint]
          rfl
      | true =>
        refine Obeys.bind
          (scripted_runModule htodo hpoint hopen hidle hresult hstored hb target t) ?_
        intro t' g₂ h₂
        exact scripted_moduleLoop target targetType rest t' g₂ h₂

/-! ### Dispatch -/

section Dispatch

variable {ledger : DatabaseLedger} {α : Type}

theorem Standing.next_guard (o : Op) (r : Except Exn o.Answer) :
    g.next registry (.guard ledger o) r =
      match faults registry (.guard ledger o) r with
      | true => { g with faulty := true }
      | false => g := rfl

/-- The guard's calls are within the script. -/
def OnlyValidates (o : Op) : Prop :=
  (∃ hostname, o = .resolve hostname) ∨ ∃ entry, o = .record entry

theorem scripted_guarded_faulty (hl : ledger.scanId = some scanId) {left : ℕ}
    (hpoint : g.point = .dispatching left) (hf : g.faulty = true) :
    ∀ {p : Guard α}, p.Always OnlyValidates (fun _ => True) →
      (guarded ledger p).Obeys (script registry scanId) (fun _ g' => g' = g)
        (fun _ g' => g' = g) g := by
  intro p
  induction p with
  | ret a => exact fun _ => .ret rfl
  | raise x => exact fun _ => .raise rfl
  | op o k ih =>
    intro hp
    cases hp with
    | op hpre hk =>
      refine .op ⟨hl, ⟨left, hpoint⟩, hpre⟩ fun r _ => ?_
      have hself : { g with faulty := true } = g := by
        rw [← hf]
      have hnext : g.next registry (.guard ledger o) r = g := by
        rw [Standing.next_guard]
        cases faults registry (.guard ledger o) r
        · rfl
        · exact hself
      show (guarded ledger (k r)).Obeys _ _ _ (g.next registry (.guard ledger o) r)
      rw [hnext]
      exact ih r (hk r trivial)

/-- The resolver answers or raises `ResolutionError`, and the ledger accepts. -/
def calmGuard (registry : ModuleRegistry) (ledger : DatabaseLedger) :
    Protocol Exn Op Op.Answer Unit :=
  ⟨fun _ => OnlyValidates, fun _ o r => faults registry (.guard ledger o) r = false,
    fun _ _ _ => ()⟩

/-- Only a refusal comes out of a validation that no answer was at fault in. -/
theorem scripted_guarded (hl : ledger.scanId = some scanId) {left : ℕ}
    (hpoint : g.point = .dispatching left) :
    ∀ {p : Guard α}, p.Always OnlyValidates (fun _ => True) →
      p.Obeys (calmGuard registry ledger) (fun _ _ => True)
        (fun x _ => ∃ target reason, x = .targetRejected target reason) () →
      (guarded ledger p).Obeys (script registry scanId)
        (fun _ g' => g' = g ∨ g' = { g with faulty := true })
        (fun x g' => g' = { g with faulty := true } ∨
          g' = g ∧ ∃ target reason, x = .targetRejected target reason) g := by
  intro p
  induction p with
  | ret a => exact fun _ _ => .ret (Or.inl rfl)
  | raise x =>
    intro _ hc
    cases hc with
    | raise hx => exact .raise (Or.inr ⟨rfl, hx⟩)
  | op o k ih =>
    intro hp hc
    cases hp with
    | op hpre hk => cases hc with
      | op _ hck =>
        refine .op ⟨hl, ⟨left, hpoint⟩, hpre⟩ fun r _ => ?_
        show (guarded ledger (k r)).Obeys _ _ _ (g.next registry (.guard ledger o) r)
        rw [Standing.next_guard]
        cases hfault : faults registry (.guard ledger o) r with
        | false => exact ih r (hk r trivial) (hck r hfault)
        | true =>
          refine Obeys.mono (scripted_guarded_faulty (g := { g with faulty := true }) hl hpoint rfl
            (hk r trivial)) (fun _ _ h => Or.inr h) fun _ _ h => Or.inl h

theorem calm_validateTarget (registry : ModuleRegistry) (ledger : DatabaseLedger)
    (scope : ScopeProfile) (targetInput : String) :
    (validateTarget scope targetInput).Obeys (calmGuard registry ledger) (fun _ _ => True)
      (fun x _ => ∃ target reason, x = .targetRejected target reason) () := by
  refine Obeys.mono (obeys_validateTarget scope ⟨fun entry => Or.inr ⟨entry, rfl⟩,
    fun hostname => Or.inl ⟨hostname, rfl⟩, fun target reason => ⟨target, reason, rfl⟩, ?_, ?_⟩
    targetInput) (fun _ _ _ => trivial) fun _ _ hx => hx
  · intro entry x hx
    cases hx
  · intro hostname x hx hno
    cases x with
    | resolution text => exact absurd rfl (hno text)
    | targetRejected | budgetExceeded | moduleError | governorConfig | failure => cases hx

theorem scripted_dispatch (hl : ledger.scanId = some scanId) {left : ℕ}
    (hpoint : g.point = .dispatching left) (hb : g.ticking = false) (scope : ScopeProfile)
    (targetInput : String) :
    (dispatch ledger scope targetInput).Obeys (script registry scanId)
      (fun _ g' => g' = g ∨ g' = { g with faulty := true }) (Fails false) g := by
  unfold dispatch
  have hcalm := calm_validateTarget registry ledger scope targetInput
  have hguarded := scripted_guarded hl hpoint (always_validateTarget scope targetInput) hcalm
  refine Obeys.tryCatch (Obeys.bind hguarded fun target g' h => .ret h) ?_
  rintro x g' (rfl | ⟨rfl, target, reason, rfl⟩)
  · cases x with
    | targetRejected target reason => exact .ret (Or.inr rfl)
    | resolution | budgetExceeded | moduleError | governorConfig | failure =>
      exact .raise ⟨rfl, hb⟩
  · exact .ret (Or.inl rfl)

end Dispatch

/-! ### From the start -/

/-- The scan was read, and its target is not accepted yet. -/
structure Standing.Dispatching (g : Standing) (registry : ModuleRegistry) (scan : ScanRow) :
    Prop where
  found : g.scan = some scan
  todo : g.todo = registry.selection scan
  point : g.point = .dispatching scan.selectedModules.length
  ongoing : g.ended = false
  idle : g.running = false
  result : g.result = none
  stored : g.stored = false
  ticking : g.ticking = false
  faulty : scan.sound registry = false → g.faulty = true

theorem Standing.Dispatching.fault {scan : ScanRow} (h : g.Dispatching registry scan) :
    Standing.Dispatching { g with faulty := true } registry scan :=
  ⟨h.found, h.todo, h.point, h.ongoing, h.idle, h.result, h.stored, h.ticking, fun _ => rfl⟩

/-- With its modules in order, the loop can begin. -/
theorem Standing.Dispatching.ready {scan : ScanRow} (h : g.Dispatching registry scan)
    (ho : registry.ordered scan.selectedModules = .ok modules) : g.Ready modules false := by
  have hselection : registry.selection scan = modules := by
    unfold ModuleRegistry.selection
    rw [ho]
  refine ⟨h.todo.trans hselection, Or.inl ?_, h.ongoing, h.idle, h.result, h.stored, h.ticking⟩
  rw [h.point, ModuleRegistry.ordered_length ho]

theorem ScanRow.sound_limits {scan : ScanRow} (h : scan.sound registry = true) :
    ∃ L, limitsOf scan.intensityProfile intensityProfiles = .ok L := by
  unfold sound at h
  cases hl : limitsOf scan.intensityProfile intensityProfiles with
  | ok L => exact ⟨L, rfl⟩
  | error e => rw [hl] at h; cases h

theorem ScanRow.sound_ordered {scan : ScanRow} (h : scan.sound registry = true) :
    ∃ modules, registry.ordered scan.selectedModules = .ok modules := by
  unfold sound at h
  have hall := List.all_eq_true.mp (Bool.and_eq_true_iff.mp h).2
  obtain ⟨modules, ho, -⟩ := ModuleRegistry.ordered_of_has hall
  exact ⟨modules, ho⟩

theorem scripted_executeIn {scan : ScanRow} (hid : scan.id = scanId)
    (h : g.Dispatching registry scan) (scopeId : ℕ) (scope : ScopeProfile) :
    (executeIn registry retentionDays scan scopeId scope).Obeys (script registry scanId)
      (fun _ _ => True) (Fails false) g := by
  subst hid
  have hfaulty : scan.sound registry ≠ true → g.faulty = true := fun hs =>
    h.faulty (Bool.eq_false_iff.mpr hs)
  unfold executeIn
  refine Obeys.bind (scripted_publish h.ticking _ _) ?_
  rintro _ _ rfl
  have h₁ : (g.published .scanRunning).Dispatching registry scan :=
    ⟨h.found, h.todo, h.point, h.ongoing, h.idle, h.result, h.stored, h.ticking, h.faulty⟩
  cases hlimits : limitsOf scan.intensityProfile intensityProfiles with
  | error e =>
    refine .raise ⟨hfaulty fun hs => ?_, h.ticking⟩
    obtain ⟨L, hL⟩ := ScanRow.sound_limits hs
    rw [hlimits] at hL
    cases hL
  | ok L =>
    have hdispatch : (dispatch ⟨some scan.id, some scopeId⟩ scope scan.targetInput).Obeys
        (script registry scan.id) (fun _ g' => g'.Dispatching registry scan) (Fails false)
        (g.published .scanRunning) := by
      refine Obeys.mono (scripted_dispatch rfl h₁.point h₁.ticking scope scan.targetInput) ?_
        fun _ _ hx => hx
      rintro _ g' (rfl | rfl)
      · exact h₁
      · exact h₁.fault
    refine Obeys.bind hdispatch fun target g₂ h₂ => ?_
    cases target with
    | error reason => exact scripted_finish h₂.ticking h₂.ongoing .failed (Or.inl ⟨_, h₂.point⟩) _
    | ok target =>
      cases ho : registry.ordered scan.selectedModules with
      | error x =>
        refine .raise ⟨h₂.faulty (Bool.eq_false_iff.mpr fun hs => ?_), h₂.ticking⟩
        obtain ⟨modules, hmodules⟩ := ScanRow.sound_ordered hs
        rw [ho] at hmodules
        cases hmodules
      | ok modules =>
        exact scripted_moduleLoop target scan.targetType modules _ g₂ (h₂.ready ho)

/-- The scan was read: a standing for each verdict on it. -/
theorem dispatching_read (scan : ScanRow) :
    (Standing.start.next registry (.getScan scanId) (.ok (some scan))).Dispatching registry
      scan := by
  have hfaults : faults registry (.getScan scanId) (.ok (some scan)) = !scan.sound registry := rfl
  unfold Standing.next
  rw [hfaults]
  cases hs : scan.sound registry
  · exact ⟨rfl, rfl, rfl, rfl, rfl, rfl, rfl, rfl, fun _ => rfl⟩
  · exact ⟨rfl, rfl, rfl, rfl, rfl, rfl, rfl, rfl, fun h => by rw [hs] at h; cases h⟩

/-- And so was its scope. -/
theorem Standing.Dispatching.scoped {scan : ScanRow} (h : g.Dispatching registry scan)
    (scopeId : ℕ) (row : Option ScopeProfileRow) :
    (g.next registry (.getScope scopeId) (.ok row)).Dispatching registry scan ∧
      ∀ r, row = some r → r.sound = false →
        (g.next registry (.getScope scopeId) (.ok row)).faulty = true := by
  cases row with
  | none => exact ⟨h, nofun⟩
  | some r =>
    have hfaults : faults registry (.getScope scopeId) (.ok (some r)) = !r.sound := rfl
    unfold Standing.next
    rw [hfaults]
    cases hs : r.sound
    · exact ⟨h.fault, fun _ _ _ => rfl⟩
    · refine ⟨h, fun r' hr' hf => ?_⟩
      cases hr'
      rw [hs] at hf
      cases hf

/-- A retention sweep deletes what it has selected. -/
def retention : Protocol Exn RunnerOp RunnerOp.Answer (List ℕ) where
  pre expired
    | .now | .expiredScans _ | .sweepExpiredCache _ => True
    | .deleteScans ids => ids = expired
    | _ => False
  ans _ _ _ := True
  next expired
    | .expiredScans _, .ok ids => ids
    | _, _ => expired

theorem retains (o : RunnerOp) {expired : List ℕ} (h : retention.pre expired o) :
    (ask o).Obeys retention (fun a expired' => expired' = retention.next expired o (.ok a))
      (fun _ _ => True) expired :=
  Obeys.perform (K := retention) h (fun _ _ => rfl) fun _ _ => trivial

theorem obeys_retention (retentionDays : ℕ) (expired : List ℕ) :
    (runRetention retentionDays).Obeys retention (fun _ _ => True) (fun _ _ => True) expired := by
  have hsweep : (sweepOldScans retentionDays).Obeys retention (fun _ _ => True) (fun _ _ => True)
      expired := by
    unfold sweepOldScans
    refine Obeys.bind (retains .now trivial) fun moment _ _ => ?_
    refine Obeys.bind (retains (.expiredScans _) trivial) fun ids selected hselected => ?_
    have hselected : selected = ids := hselected
    subst hselected
    cases selected with
    | nil => exact .ret trivial
    | cons id ids =>
      exact Obeys.mono (retains (.deleteScans (id :: ids)) rfl) (fun _ _ _ => trivial)
        fun _ _ hx => hx
  unfold runRetention
  refine Obeys.bind hsweep fun _ _ _ => ?_
  refine Obeys.bind (retains .now trivial) fun moment _ _ => ?_
  exact Obeys.mono (retains (.sweepExpiredCache moment) trivial) (fun _ _ _ => trivial)
    fun _ _ hx => hx

/-- **The script.** An execution keeps to it, whatever it is answered. -/
theorem scripted_executeScan (registry : ModuleRegistry) (retentionDays scanId : ℕ) :
    (executeScan registry retentionDays scanId).Obeys (script registry scanId) (fun _ _ => True)
      (Fails false) .start := by
  unfold executeScan
  have hread : (ask (.getScan scanId)).Obeys (script registry scanId)
      (fun (row : Option ScanRow) g' => ∀ scan, row = some scan →
        scan.id = scanId ∧ g'.Dispatching registry scan) (Fails false) .start := by
    refine Obeys.perform (K := script registry scanId) (o := .getScan scanId) (s := .start)
      (E := Fails false) ⟨rfl, rfl⟩ ?_ fun _ _ => ⟨rfl, rfl⟩
    rintro row hid scan rfl
    exact ⟨hid, dispatching_read scan⟩
  refine Obeys.bind hread fun row g₁ h₁ => ?_
  cases row with
  | none => exact .ret trivial
  | some scan =>
    obtain ⟨hid, h₁⟩ := h₁ scan rfl
    have hscope : (ask (.getScope scan.scopeId)).Obeys (script registry scanId)
        (fun (row : Option ScopeProfileRow) g' => g'.Dispatching registry scan ∧
          ∀ r, row = some r → r.sound = false → g'.faulty = true) (Fails false) g₁ :=
      scripted_ask (.getScope scan.scopeId) ⟨⟨_, h₁.point⟩, scan, h₁.found, rfl⟩
        (fun row => h₁.scoped scan.scopeId row) fun _ => ⟨rfl, h₁.ticking⟩
    refine Obeys.bind hscope ?_
    rintro row g₂ ⟨h₂, hunsound⟩
    cases row with
    | none => exact scripted_finish h₂.ticking h₂.ongoing .failed (Or.inl ⟨_, h₂.point⟩) _
    | some row =>
      dsimp only
      cases hc : ScopeProfile.create row.name row.entries row.allowCgnat row.allowLinkLocal with
      | error e =>
        refine .raise ⟨hunsound row rfl ?_, h₂.ticking⟩
        unfold ScopeProfileRow.sound
        rw [hc]
      | ok scope => exact scripted_executeIn hid h₂ row.id scope

end

end ScanLedger
