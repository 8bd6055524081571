/-
# The phases of an execution

An execution is live from the moment its scan is read until its last event is
stored. What it inserts it inserts while it is live, its ticker runs only
meanwhile, and what the retention sweep deletes it deletes afterwards.

Key definitions: `Point.live`, `Standing.tidy`, `phases`.
Key theorems: `phased_moduleLoop`, `phased_executeScan`.
-/
import ScanLedger.Tracking

namespace ScanLedger

open Prog
open Governor (limitsOf intensityProfiles)

/-! ### Live executions -/

/-- The scan is read, and its last event is not stored yet. -/
def Point.live : Point → Bool
  | .reading | .finished => false
  | .dispatching _ | .looping _ | .checked _ | .canceling => true

/-- It is the last event of a scan. -/
def Event.finishes : Event → Bool
  | .scanFinished _ _ => true
  | .scanRunning | .moduleStatus .. | .footprint .. => false

/-- A live execution stays live over it, and so does its ticker. -/
def RunnerOp.steady : RunnerOp → Bool
  | .insertEvent row => !row.event.finishes
  | .getScan _ | .deleteScans _ | .startTicker _ | .stopTicker => false
  | _ => true

theorem Point.live_next {point : Point} {o : RunnerOp} (r : Except Exn o.Answer)
    (h : point.live = true) (ho : ∀ row, o = .insertEvent row → row.event.finishes = false) :
    (point.next o r).live = true := by
  have hmoves := point.moves_next o r
  generalize point.next o r = point' at hmoves ⊢
  cases hmoves with
  | stays => exact h
  | reads | writes => rfl
  | checks id hpoint hpoint' => rcases hpoint' with rfl | rfl <;> rfl
  | finishes row hevent =>
    have hnot := ho row rfl
    rw [hevent] at hnot
    cases hnot

/-- Only the scan's row makes an execution live. -/
theorem Point.live_of_next {point : Point} {o : RunnerOp} {r : Except Exn o.Answer}
    (h : (point.next o r).live = true) (ho : ∀ id, o ≠ .getScan id) : point.live = true := by
  have hmoves := point.moves_next o r
  generalize point.next o r = point' at hmoves h
  cases hmoves with
  | stays => exact h
  | reads id => exact absurd rfl (ho id)
  | checks id hpoint | writes id module u left' hpoint => rcases hpoint with rfl | rfl <;> rfl
  | finishes => cases h

theorem Standing.next_ticking (registry : ModuleRegistry) (g : Standing) {o : RunnerOp}
    (r : Except Exn o.Answer) (hstart : ∀ id, o ≠ .startTicker id) (hstop : o ≠ .stopTicker) :
    (g.next registry o r).ticking = g.ticking := by
  rw [next_after (·.ticking) fun _ _ _ => rfl]
  cases o with
  | startTicker id => exact absurd rfl (hstart id)
  | stopTicker => exact absurd rfl hstop
  | updateModuleRun scanId module u =>
    cases r with
    | error x => rfl
    | ok _ => exact wrote_apart (·.ticking) (fun _ _ _ _ _ => rfl) g u
  | getScan scanId =>
    rcases r with x | (_ | scan) <;> rfl
  | _ => cases r <;> rfl

/-! ### The protocol -/

/-- Inserts while it is live, deletes when it is over, and no ticker then. -/
def Standing.tidy (g : Standing) : RunnerOp → Prop
  | .insertEvent row => g.point.live = true ∧ (row.event.finishes = true → g.ticking = false)
  | .insertFindings _ _ | .guard _ (.record _) | .startTicker _ => g.point.live = true
  | .deleteScans _ => g.point = .finished
  | _ => True

def phases (registry : ModuleRegistry) : Protocol Exn RunnerOp RunnerOp.Answer Standing :=
  ⟨fun g => g.tidy, fun _ _ _ => True, fun g => g.next registry⟩

/-- Live, with or without its ticker. -/
structure Standing.Live (g : Standing) (ticking : Bool) : Prop where
  live : g.point.live = true
  ticking : g.ticking = ticking

section

variable {registry : ModuleRegistry} {scanId : ℕ} {g : Standing} {b : Bool} {α : Type}
  {E : Exn → Standing → Prop}

theorem Standing.Live.next (h : g.Live b) {o : RunnerOp} (ho : o.steady = true)
    (r : Except Exn o.Answer) : (g.next registry o r).Live b where
  live := by
    rw [Standing.next_point]
    refine Point.live_next r h.live ?_
    rintro row rfl
    simpa [RunnerOp.steady] using ho
  ticking := by
    rw [Standing.next_ticking registry g r, h.ticking]
    · rintro id rfl
      cases ho
    · rintro rfl
      cases ho

theorem Standing.Live.tidy (h : g.Live b) {o : RunnerOp} (ho : o.steady = true) : g.tidy o := by
  cases o with
  | insertEvent row =>
    have hevent : row.event.finishes = false := by simpa [RunnerOp.steady] using ho
    refine ⟨h.live, fun hfinishes => ?_⟩
    rw [hevent] at hfinishes
    cases hfinishes
  | insertFindings id findings => exact h.live
  | startTicker id => exact h.live
  | deleteScans ids => cases ho
  | guard ledger o =>
    cases o with
    | record entry => exact h.live
    | _ => exact trivial
  | _ => exact trivial

/-- A program that only issues steady operations keeps a live execution so. -/
theorem phased_of_always : ∀ {p : Runner α} {g : Standing},
    p.Always (fun o => o.steady = true) (fun _ => True) → g.Live b →
    p.Obeys (phases registry) (fun _ g' => g'.Live b) (fun _ g' => g'.Live b) g := by
  intro p
  induction p with
  | ret a => exact fun _ hg => .ret hg
  | raise x => exact fun _ hg => .raise hg
  | op o k ih =>
    intro g hp hg
    cases hp with
    | op ho hk => exact .op (hg.tidy ho) fun r _ => ih r (hk r trivial) (hg.next ho r)

/-! ### Steady programs -/

theorem steady_publish (event : Event) (h : event.finishes = false) (module : Option String) :
    (publish scanId event module).Always (fun o => o.steady = true) (fun _ => True) := by
  unfold publish
  refine Always.bind (Always.perform (o := RunnerOp.nextSequence scanId) rfl) fun next _ => ?_
  refine Always.perform (o := RunnerOp.insertEvent ⟨scanId, next, module, event⟩) ?_
  show (!event.finishes) = true
  rw [h]
  rfl

theorem steady_setModuleStatus (module : String) (status : ModuleStatus)
    (reason code : Option String) (findingCount : ℕ) (cacheHit : Bool) :
    (setModuleStatus scanId module status reason code findingCount cacheHit).Always
      (fun o => o.steady = true) (fun _ => True) := by
  unfold setModuleStatus
  refine Always.bind (Always.perform (o := RunnerOp.now) rfl) fun now _ => ?_
  refine Always.bind (Always.perform (o := RunnerOp.updateModuleRun scanId module _) rfl)
    fun _ _ => ?_
  exact steady_publish _ rfl _

theorem steady_failModule (module : String) (t : Tally) (reason code : String) :
    (failModule scanId module t reason code).Always (fun o => o.steady = true)
      (fun _ => True) := by
  unfold failModule
  exact Always.bind (steady_setModuleStatus module .failed _ _ _ _) fun _ _ => Always.ret trivial

theorem steady_storeFindings : ∀ findings : List Finding,
    (storeFindings scanId findings).Always (fun o => o.steady = true) (fun _ => True)
  | [] => Always.ret trivial
  | f :: fs => Always.perform (o := RunnerOp.insertFindings scanId (f :: fs)) rfl

theorem steady_settleModule (module : ModuleMetadata) (t : Tally) (r : Except Exn ModuleResult) :
    (settleModule scanId module t r).Always (fun o => o.steady = true) (fun _ => True) := by
  match r with
  | .error (.failure .timeout) => exact steady_failModule _ _ _ _
  | .error (.budgetExceeded e) => exact steady_failModule _ _ _ _
  | .error (.moduleError code message) => exact steady_failModule _ _ _ _
  | .error (.targetRejected target reason) => exact steady_failModule _ _ _ _
  | .error (.resolution text) => exact Always.raise _
  | .error (.governorConfig e) => exact Always.raise _
  | .error (.failure .cancelled) => exact Always.raise _
  | .error (.failure .integrity) => exact Always.raise _
  | .error (.failure (.os text)) => exact Always.raise _
  | .error (.failure (.other text)) => exact Always.raise _
  | .ok result =>
    unfold settleModule
    refine Always.bind (steady_storeFindings result.findings) fun _ _ => ?_
    exact Always.bind (steady_setModuleStatus module.name .done _ _ _ _)
      fun _ _ => Always.ret trivial

theorem steady_tryModule (target : ValidatedTarget) (module : ModuleMetadata) (t : Tally) :
    (tryModule scanId target module t).Always (fun o => o.steady = true) (fun _ => True) := by
  unfold tryModule
  refine .op (show RunnerOp.steady (.runModule module _) = true from rfl) fun r _ => ?_
  exact steady_settleModule module t r

theorem steady_publishFootprint :
    (publishFootprint scanId).Always (fun o => o.steady = true) (fun _ => True) := by
  unfold publishFootprint
  exact Always.bind (Always.perform (o := RunnerOp.footprint) rfl)
    fun _ _ => steady_publish _ rfl _

theorem steady_guarded (ledger : DatabaseLedger) : ∀ p : Guard α,
    (guarded ledger p).Always (fun o => o.steady = true) (fun _ => True) := by
  intro p
  induction p with
  | ret a => exact Always.ret trivial
  | raise x => exact Always.raise x
  | op o k ih => exact .op (show RunnerOp.steady (.guard ledger o) = true from rfl) fun r _ => ih r

theorem steady_dispatch (ledger : DatabaseLedger) (scope : ScopeProfile) (targetInput : String) :
    (dispatch ledger scope targetInput).Always (fun o => o.steady = true) (fun _ => True) := by
  unfold dispatch
  refine Always.tryCatch (Always.bind (steady_guarded ledger _) fun _ _ => Always.ret trivial) ?_
  intro x
  cases x with
  | targetRejected target reason => exact Always.ret trivial
  | resolution | budgetExceeded | moduleError | governorConfig | failure => exact Always.raise _

/-! ### The whole execution -/

/-- What reads the clock and the like, in a phase it is allowed in. -/
theorem phased_ask (o : RunnerOp) {Q : o.Answer → Standing → Prop} (h : g.tidy o)
    (hQ : ∀ a, Q a (g.next registry o (.ok a))) :
    (ask o).Obeys (phases registry) Q (fun _ _ => True) g :=
  Obeys.perform h (fun a _ => hQ a) fun _ _ => trivial

theorem phased_steady {p : Runner α}
    (hp : p.Always (fun o => o.steady = true) (fun _ => True)) (h : g.Live b) :
    p.Obeys (phases registry) (fun _ g' => g'.Live b) (fun _ _ => True) g :=
  Obeys.mono (phased_of_always hp h) (fun _ _ hq => hq) fun _ _ _ => trivial

theorem phased_runModule (h : g.Live false) (target : ValidatedTarget) (module : ModuleMetadata)
    (t : Tally) :
    (runModule scanId target module t).Obeys (phases registry) (fun _ g' => g'.Live false)
      (fun _ _ => True) g := by
  unfold runModule
  refine Obeys.bind (phased_steady (steady_setModuleStatus module.name .running _ _ _ _) h)
    fun _ g₁ h₁ => ?_
  have hstart : (ask (.startTicker scanId)).Obeys (phases registry) (fun _ g' => g'.Live true)
      (fun _ _ => True) g₁ :=
    phased_ask (.startTicker scanId) h₁.live fun _ => ⟨h₁.live, rfl⟩
  refine Obeys.bind hstart fun _ g₂ h₂ => ?_
  have htry : (Prog.tryFinally (tryModule scanId target module t) (ask .stopTicker)).Obeys
      (phases registry) (fun _ g' => g'.Live false) (fun _ _ => True) g₂ := by
    refine Obeys.tryFinally (phased_steady (steady_tryModule target module t) h₂) ?_ ?_
    · exact fun _ g₃ h₃ => phased_ask .stopTicker trivial fun _ => ⟨h₃.live, rfl⟩
    · exact fun _ _ _ => phased_ask .stopTicker trivial fun _ => trivial
  refine Obeys.bind htry fun _ g₃ h₃ => ?_
  exact Obeys.bind (phased_steady steady_publishFootprint h₃) fun _ _ h₄ => .ret h₄

theorem phased_runRetention (h : g.point = .finished) (retentionDays : ℕ) :
    (runRetention retentionDays).Obeys (phases registry) (fun _ _ => True) (fun _ _ => True) g := by
  unfold runRetention
  have hsweep : (sweepOldScans retentionDays).Obeys (phases registry) (fun _ _ => True)
      (fun _ _ => True) g := by
    unfold sweepOldScans
    refine Obeys.bind (phased_ask .now (Q := fun _ g' => g'.point = .finished) trivial fun _ => h)
      fun moment g₁ h₁ => ?_
    refine Obeys.bind (phased_ask (.expiredScans _) (Q := fun _ g' => g'.point = .finished) trivial
      fun _ => h₁) fun expired g₂ h₂ => ?_
    cases expired with
    | nil => exact .ret trivial
    | cons id ids => exact phased_ask (.deleteScans (id :: ids)) h₂ fun _ => trivial
  refine Obeys.bind hsweep fun _ _ _ => ?_
  refine Obeys.bind (phased_ask .now (Q := fun _ _ => True) trivial fun _ => trivial)
    fun moment _ _ => ?_
  exact phased_ask (.sweepExpiredCache moment) trivial fun _ => trivial

variable {retentionDays : ℕ}

theorem phased_finish (h : g.Live false) (status : ScanStatus) (reason : Option String) :
    (finish retentionDays scanId status reason).Obeys (phases registry) (fun _ _ => True)
      (fun _ _ => True) g := by
  unfold finish
  refine Obeys.bind (phased_steady (Always.perform (o := RunnerOp.now) rfl) h) fun now g₁ h₁ => ?_
  refine Obeys.bind (phased_steady
    (Always.perform (o := RunnerOp.updateScan scanId status now) rfl) h₁) fun _ g₂ h₂ => ?_
  have hpublish : (publish scanId (.scanFinished status reason) none).Obeys (phases registry)
      (fun _ g' => g'.point = .finished) (fun _ _ => True) g₂ := by
    unfold publish
    refine Obeys.bind (phased_steady (Always.perform (o := RunnerOp.nextSequence scanId) rfl) h₂)
      fun next g₃ h₃ => ?_
    exact phased_ask (.insertEvent ⟨scanId, next, none, .scanFinished status reason⟩)
      ⟨h₃.live, fun _ => h₃.ticking⟩ fun _ => rfl
  refine Obeys.bind hpublish fun _ g₃ h₃ => ?_
  exact Obeys.bind (phased_runRetention h₃ retentionDays) fun _ _ _ => .ret trivial

theorem phased_finishCanceled (h : g.Live false) :
    (finishCanceled retentionDays scanId).Obeys (phases registry) (fun _ _ => True)
      (fun _ _ => True) g := by
  unfold finishCanceled
  refine Obeys.bind (phased_steady (Always.perform (o := RunnerOp.now) rfl) h) fun now g₁ h₁ => ?_
  refine Obeys.bind (phased_steady (Always.perform (o := RunnerOp.skipRemaining scanId _ now) rfl)
    h₁) fun _ g₂ h₂ => ?_
  exact phased_finish h₂ .canceled none

theorem phased_conclude (h : g.Live false) (t : Tally) :
    (conclude retentionDays scanId t).Obeys (phases registry) (fun _ _ => True) (fun _ _ => True)
      g := by
  unfold conclude
  split_ifs
  · exact phased_finish h .failed _
  · exact phased_finish h .completedWithWarnings none
  · exact phased_finish h .completed none

theorem phased_moduleLoop (target : ValidatedTarget) (targetType : TargetType) :
    ∀ (modules : List ModuleMetadata) (t : Tally) (g : Standing), g.Live false →
    (moduleLoop retentionDays scanId target targetType modules t).Obeys (phases registry)
      (fun _ _ => True) (fun _ _ => True) g
  | [], t, g, h => by
    unfold moduleLoop
    refine Obeys.bind (phased_steady
      (Always.perform (o := RunnerOp.cancelRequested scanId) rfl) h) fun canceled g₁ h₁ => ?_
    cases canceled with
    | true => exact phased_finishCanceled h₁
    | false => exact phased_conclude h₁ t
  | m :: rest, t, g, h => by
    unfold moduleLoop
    refine Obeys.bind (phased_steady
      (Always.perform (o := RunnerOp.cancelRequested scanId) rfl) h) fun canceled g₁ h₁ => ?_
    cases canceled with
    | true => exact phased_finishCanceled h₁
    | false =>
      cases m.appliesTo targetType with
      | false =>
        refine Obeys.bind (phased_steady (steady_setModuleStatus m.name .notApplicable _ _ _ _) h₁)
          fun _ g₂ h₂ => ?_
        exact phased_moduleLoop target targetType rest t g₂ h₂
      | true =>
        refine Obeys.bind (phased_runModule h₁ target m t) fun t' g₂ h₂ => ?_
        exact phased_moduleLoop target targetType rest t' g₂ h₂

theorem phased_executeIn (h : g.Live false) (scan : ScanRow) (scopeId : ℕ) (scope : ScopeProfile) :
    (executeIn registry retentionDays scan scopeId scope).Obeys (phases registry)
      (fun _ _ => True) (fun _ _ => True) g := by
  unfold executeIn
  refine Obeys.bind (phased_steady (steady_publish .scanRunning rfl none) h) fun _ g₁ h₁ => ?_
  cases limitsOf scan.intensityProfile intensityProfiles with
  | error e => exact .raise trivial
  | ok L =>
    refine Obeys.bind (phased_steady (steady_dispatch _ scope scan.targetInput) h₁)
      fun target g₂ h₂ => ?_
    cases target with
    | error reason => exact phased_finish h₂ .failed _
    | ok target =>
      cases registry.ordered scan.selectedModules with
      | error x => exact .raise trivial
      | ok modules => exact phased_moduleLoop target scan.targetType modules _ g₂ h₂

/-- **The phases.** An execution keeps to them, whatever it is answered. -/
theorem phased_executeScan (registry : ModuleRegistry) (retentionDays scanId : ℕ) :
    (executeScan registry retentionDays scanId).Obeys (phases registry) (fun _ _ => True)
      (fun _ _ => True) .start := by
  unfold executeScan
  have hread : (ask (.getScan scanId)).Obeys (phases registry)
      (fun (row : Option ScanRow) g' => row.isSome = true → g'.Live false) (fun _ _ => True)
      .start := by
    refine phased_ask (.getScan scanId) trivial fun row hrow => ?_
    obtain ⟨scan, rfl⟩ := Option.isSome_iff_exists.mp hrow
    refine ⟨?_, ?_⟩
    · rw [Standing.next_point]
      rfl
    · exact Standing.next_ticking registry .start _ nofun nofun
  refine Obeys.bind hread fun row g₁ h₁ => ?_
  cases row with
  | none => exact .ret trivial
  | some scan =>
    refine Obeys.bind (phased_steady (Always.perform (o := RunnerOp.getScope scan.scopeId) rfl)
      (h₁ rfl)) fun row g₂ h₂ => ?_
    cases row with
    | none => exact phased_finish h₂ .failed _
    | some row =>
      dsimp only
      cases ScopeProfile.create row.name row.entries row.allowCgnat row.allowLinkLocal with
      | error e => exact .raise trivial
      | ok scope => exact phased_executeIn h₂ scan row.id scope

end

end ScanLedger
