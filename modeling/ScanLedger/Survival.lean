/-
# A worker that keeps working

Can a request break the worker that runs a scan? `delete_scan` removes a scan
whatever its status, and the next row that the execution inserts for it breaks
a foreign key: the exception goes through `execute_scan` and ends `_loop`. So
does an event whose number the footprint ticker has taken, and a scope that two
updates at once have made one that `create` refuses. Where none of this happens,
every execution returns and the worker goes on to the next queued scan.

Key definitions: `KeepsWorking`, `SysAct.Calm`, `Spares`, `Healthy`, `Working`.
Key theorems: `serve_calm`, `working_step`, `worker_keepsWorking`.
-/
import ScanLedger.Integrity
import ScanLedger.Phases

namespace ScanLedger

open Prog Run Table

/-! ### The property, and its condition -/

/-- Runner `i` over an endless run of the system. -/
structure KeepsWorking (cfg : Config) (i : ℕ) (s : ℕ → Sys) (a : ℕ → SysAct) : Prop where
  /-- No exception goes through `_loop`. -/
  safe : ∀ n x, ((s n).procs i).stage ≠ .dead x
  /-- An execution that is served again and again returns, unless the process ends. -/
  returns : (∀ n scanId, (s n).Executes i scanId →
      ∃ m ≥ n, (∃ e, a m = .run i (.serve e)) ∨ ¬ (s m).Executes i scanId) →
    ∀ n scanId, (s n).Executes i scanId →
      ∃ m > n, ((s m).procs i).stage = .looping ∨ ((s m).procs i).stage = .down
  /-- And the next scan that it looks for and claims is the oldest queued one. -/
  claims : ∀ n scan, ((s n).procs i).stage = .looping → (s n).db.nextQueued = some scan →
    ∃ s', exec (Sys.step cfg) (s n) [.run i .look, .run i .claim] = some s' ∧
      s'.Executes i scan.id

/-- A module run ends in a way `execute_scan` has a clause for, and the resolver
answers or raises `ResolutionError`. -/
structure Answers.Calm (e : Answers) : Prop where
  result : Handled e.result = true
  resolve : ∀ hostname x, e.resolve hostname = .error x → ∃ text, x = .resolution text

/-- The step is runner `i`'s, calmly answered, a request's or the clock's. -/
def SysAct.Calm (i : ℕ) : SysAct → Prop
  | .run j (.serve e) => j = i ∧ e.Calm
  | .run j _ => j = i
  | .tick _ | .api _ => True

/-- The scan that is executed, from when it was read to its last event. -/
def Stage.live : Stage → Option ℕ
  | .executing scanId point _ => if point.live then some scanId else none
  | .down | .starting | .sweeping _ | .looping | .claiming _ | .dead _ => none

/-- The event that the execution inserts next. -/
def Stage.inserts (stage : Stage) : Option ScanEventRow :=
  match stage.head with
  | some (.insertEvent row) => some row
  | _ => none

def Ticker.inserts : Ticker → Option ScanEventRow
  | .publishing row => some row
  | .off | .asleep _ | .failed _ => none

/-- No scan is deleted while its execution is live, no scope is left that
`create` refuses, and no event is inserted whose number is taken. -/
def Spares (i : ℕ) (s : Sys) : SysAct → Prop
  | .api (.deleteScan scanId) => (s.procs i).stage.live ≠ some scanId
  | .api (.updateScope seen payload) =>
    ∀ row ∈ s.db.scopes, row.id = seen.id → (payload.write seen row).sound = true
  | .run _ (.serve _) =>
    ∀ row ∈ (s.procs i).stage.inserts, row.sequence ∉ s.db.sequences row.scanId
  | .run _ .tock => ∀ row ∈ (s.procs i).ticker.inserts, row.sequence ∉ s.db.sequences row.scanId
  | _ => True

/-- An update whose row is still as it was read leaves a sound scope. -/
theorem ScopeCreate.write_sound {payload : ScopeCreate} (h : payload.valid = true)
    (seen : ScopeProfileRow) : (payload.write seen seen).sound = true := by
  have hwritten : ∀ {α : Type} [DecidableEq α] (a b : α), written a b a = b := by
    intro α _ a b
    unfold written
    split_ifs with hab
    · exact hab.symm
    · rfl
  unfold ScopeProfileRow.sound ScopeCreate.write
  simp only [hwritten]
  exact h

/-! ### The invariant -/

/-- No answer was at fault, the scan is there while its execution is live, and
so long as the ticker runs it has not failed. -/
structure Healthy (db : Db) (ticker : Ticker) (scanId : ℕ) (g : Standing) : Prop where
  sane : g.faulty = false
  there : g.point.live = true → db.hasScan scanId = true
  ticks : g.ticking = true → g.point.live = true ∧
    (ticker = .asleep scanId ∨ ∃ row, ticker = .publishing row ∧ row.scanId = scanId)

/-- The first sweep of a worker, whose statements all succeed. -/
def firstSweep : Protocol Exn RunnerOp RunnerOp.Answer Unit where
  pre _
    | .now | .expiredScans _ | .sweepExpiredCache _ | .deleteScans _ => True
    | _ => False
  ans _ _ r := ∃ a, r = .ok a
  next _ _ _ := ()

/-- An execution waits for an answer, and keeps to its script and its phases. -/
def Sound (registry : ModuleRegistry) (db : Db) (ticker : Ticker) (scanId : ℕ) (point : Point)
    (rest : Runner ScanStatus) : Prop :=
  (∃ o, rest.head = some o) ∧ ∃ g : Standing, g.point = point ∧
    rest.Obeys (script registry scanId) (fun _ _ => True) (Fails false) g ∧
    rest.Obeys (phases registry) (fun _ _ => True) (fun _ _ => True) g ∧
    Healthy db ticker scanId g

structure Working (cfg : Config) (i : ℕ) (s : Sys) : Prop where
  integral : s.db.Integral cfg.registry
  scopes : ∀ row ∈ s.db.scopes, row.sound = true
  safe : ∀ x, (s.procs i).stage ≠ .dead x
  sweeping : ∀ rest, (s.procs i).stage = .sweeping rest →
    rest.Obeys firstSweep (fun _ _ => True) (fun _ _ => False) ()
  executing : ∀ scanId point rest, (s.procs i).stage = .executing scanId point rest →
    Sound cfg.registry s.db (s.procs i).ticker scanId point rest

section

variable {cfg : Config} {i : ℕ} {s s' : Sys} {a : SysAct} {db : Db} {ticker : Ticker} {scanId : ℕ}
  {g : Standing}

theorem working_init (cfg : Config) (i : ℕ) (clock : ℚ) : Working cfg i (.init .empty clock) where
  integral := integral_empty cfg.registry
  scopes _ h := absurd h List.not_mem_nil
  safe _ := nofun
  sweeping _ := nofun
  executing _ _ _ := nofun

theorem obeys_firstSweep (retentionDays : ℕ) :
    (runRetention retentionDays).Obeys firstSweep (fun _ _ => True) (fun _ _ => False) () := by
  have hask : ∀ o : RunnerOp, firstSweep.pre () o →
      (ask o).Obeys firstSweep (fun _ _ => True) (fun _ _ => False) () := by
    intro o ho
    refine Obeys.perform ho (fun _ _ => trivial) ?_
    rintro x ⟨a, ha⟩
    cases ha
  unfold runRetention
  have hsweep : (sweepOldScans retentionDays).Obeys firstSweep (fun _ _ => True)
      (fun _ _ => False) () := by
    unfold sweepOldScans
    refine Obeys.bind (hask .now trivial) fun moment _ _ => ?_
    refine Obeys.bind (hask (.expiredScans _) trivial) fun expired _ _ => ?_
    cases expired with
    | nil => exact .ret trivial
    | cons id ids => exact hask (.deleteScans (id :: ids)) trivial
  refine Obeys.bind hsweep fun _ _ _ => ?_
  exact Obeys.bind (hask .now trivial) fun moment _ _ => hask (.sweepExpiredCache moment) trivial

theorem serve_firstSweep {e : Answers} {w w' : World} {o : RunnerOp} {r : Except Exn o.Answer}
    (ho : firstSweep.pre () o) (hw : w.serve e o = (r, w')) : ∃ a, r = .ok a := by
  cases o with
  | now | expiredScans | sweepExpiredCache | deleteScans =>
    cases hw
    exact ⟨_, rfl⟩
  | _ => exact ho.elim

/-! ### The execution's statements -/

/-- **Answers.** A statement of a healthy execution succeeds, but for what is at
a module's or the resolver's end. -/
theorem serve_calm {registry : ModuleRegistry} {e : Answers} {o : RunnerOp}
    {r : Except Exn o.Answer} {w : World} (h : Healthy db ticker scanId g)
    (hintegral : db.Integral registry) (hscopes : ∀ row ∈ db.scopes, row.sound = true)
    (ha : g.allows scanId o) (ht : g.tidy o) (he : e.Calm)
    (hfree : ∀ row, o = .insertEvent row → row.sequence ∉ db.sequences row.scanId)
    (hw : World.serve e ⟨db, ticker⟩ o = (r, w)) : faults registry o r = false := by
  cases o with
  | getScan id =>
    cases hw
    show faults registry (.getScan id) (.ok (db.getScan id)) = false
    cases hget : db.getScan id with
    | none => rfl
    | some scan =>
      have hsound := hintegral.sound scan (List.mem_of_find?_eq_some hget)
      simp only [faults, hsound, Bool.not_true]
  | getScope id =>
    cases hw
    show faults registry (.getScope id) (.ok (db.getScope id)) = false
    cases hget : db.getScope id with
    | none => rfl
    | some row =>
      have hsound := hscopes row (List.mem_of_find?_eq_some hget)
      simp only [faults, hsound, Bool.not_true]
  | insertFindings id findings =>
    obtain ⟨rfl, -⟩ := ha
    rw [World.serve_insertFindings (h.there ht)] at hw
    cases hw
    rfl
  | insertEvent row =>
    obtain ⟨rfl, -⟩ := ha
    have hinsert : db.insertEvent row = some { db with events := db.events ++ [row] } :=
      Db.insertEvent_eq_some.mpr ⟨⟨h.there ht.1, hfree row rfl⟩, rfl⟩
    simp only [World.serve, hinsert, World.insert] at hw
    cases hw
    rfl
  | guard ledger o =>
    obtain ⟨hl, -, ho⟩ := ha
    rcases ho with ⟨hostname, rfl⟩ | ⟨entry, rfl⟩
    · cases hw
      show faults registry (.guard ledger (.resolve hostname))
        ((e.resolve hostname).mapError ResolveError.exn) = false
      cases hr : e.resolve hostname with
      | ok addresses => rfl
      | error x =>
        obtain ⟨text, rfl⟩ := he.resolve hostname x hr
        rfl
    · rw [World.serve_record hl (h.there ht)] at hw
      cases hw
      rfl
  | stopTicker =>
    obtain ⟨-, rfl | ⟨row, rfl, -⟩⟩ := h.ticks ha
    · cases hw
      rfl
    · cases hw
      rfl
  | runModule module context =>
    cases hw
    have hresult := he.result
    simp only [faults, hresult, Bool.not_true]
  | now | cancelRequested | updateScan | updateModuleRun | skipRemaining | nextSequence
  | expiredScans | deleteScans | sweepExpiredCache | startTicker | footprint =>
    cases hw
    rfl

theorem Effect.scopes {db' : Db} {o : RunnerOp} {r : Except Exn o.Answer} (h : Effect db o r db') :
    db'.scopes = db.scopes := by
  cases h <;> rfl

/-- Only the two operations on it touch the ticker. -/
theorem World.ticker_of_serve {e : Answers} {w w' : World} {o : RunnerOp} {r : Except Exn o.Answer}
    (hstart : ∀ id, o ≠ .startTicker id) (hstop : o ≠ .stopTicker) (h : w.serve e o = (r, w')) :
    w'.ticker = w.ticker := by
  have hinsert : ∀ db : Option Db, (w.insert db).2.ticker = w.ticker := by
    rintro (_ | db)
    · rfl
    · rfl
  have hserve : (w.serve e o).2.ticker = w.ticker := by
    cases o with
    | startTicker id => exact absurd rfl (hstart id)
    | stopTicker => exact absurd rfl hstop
    | insertFindings | insertEvent => exact hinsert _
    | guard ledger o =>
      cases o with
      | record entry => exact hinsert _
      | _ => rfl
    | _ => rfl
  rwa [h] at hserve

theorem Standing.next_faulty {registry : ModuleRegistry} {o : RunnerOp} {r : Except Exn o.Answer}
    (h : faults registry o r = false) : (g.next registry o r).faulty = g.faulty := by
  unfold Standing.next
  rw [h]
  show (g.after registry o r).faulty = g.faulty
  cases o with
  | updateModuleRun id module u =>
    cases r with
    | error x => rfl
    | ok _ => exact Standing.wrote_apart (·.faulty) (fun _ _ _ _ _ => rfl) g u
  | getScan id =>
    rcases r with x | (_ | scan) <;> rfl
  | _ => cases r <;> rfl

/-- The scan of a live execution is there after a statement of its own. -/
theorem Healthy.there_next {registry : ModuleRegistry} {e : Answers} {o : RunnerOp}
    {r : Except Exn o.Answer} {w : World} (h : Healthy db ticker scanId g)
    (ha : g.allows scanId o) (ht : g.tidy o) (hw : World.serve e ⟨db, ticker⟩ o = (r, w))
    (hlive : (g.next registry o r).point.live = true) : w.db.hasScan scanId = true := by
  rw [Standing.next_point] at hlive
  by_cases hget : ∃ id, o = .getScan id
  · obtain ⟨id, rfl⟩ := hget
    obtain ⟨rfl, -⟩ := ha
    cases hw
    change (g.point.next (.getScan id) (.ok (db.getScan id))).live = true at hlive
    cases hscan : db.getScan id with
    | none =>
      rw [hscan] at hlive
      exact h.there hlive
    | some scan => exact Db.hasScan_of_getScan hscan
  · have hlive₀ := Point.live_of_next hlive fun id ho => hget ⟨id, ho⟩
    have hextends : db.Extends registry o.deleted w.db := (effect_of_serve hw).extends
    refine hextends.hasScan (h.there hlive₀) fun hid => ?_
    cases o with
    | deleteScans ids =>
      -- it is over by then
      have hover : g.point = .finished := ht
      rw [hover] at hlive₀
      cases hlive₀
    | _ => cases hid

theorem Healthy.next {registry : ModuleRegistry} {e : Answers} {o : RunnerOp}
    {r : Except Exn o.Answer} {w : World} (h : Healthy db ticker scanId g)
    (ha : g.allows scanId o) (ht : g.tidy o) (hf : faults registry o r = false)
    (hw : World.serve e ⟨db, ticker⟩ o = (r, w)) :
    Healthy w.db w.ticker scanId (g.next registry o r) where
  sane := (Standing.next_faulty hf).trans h.sane
  there := h.there_next ha ht hw
  ticks hticking := by
    by_cases hstart : ∃ id, o = .startTicker id
    · obtain ⟨id, rfl⟩ := hstart
      obtain ⟨rfl, -⟩ := ha
      cases hw
      refine ⟨?_, Or.inl rfl⟩
      rw [Standing.next_point]
      exact ht
    by_cases hstop : o = .stopTicker
    · subst hstop
      rw [Standing.next_after (·.ticking) fun _ _ _ => rfl] at hticking
      cases r <;> cases hticking
    have hstart : ∀ id, o ≠ .startTicker id := fun id ho => hstart ⟨id, ho⟩
    rw [Standing.next_ticking registry g r hstart hstop] at hticking
    obtain ⟨hlive, hticker⟩ := h.ticks hticking
    refine ⟨?_, ?_⟩
    · rw [Standing.next_point]
      refine Point.live_next r hlive ?_
      rintro row rfl
      by_contra hfinishes
      have hoff := ht.2 (by simpa using hfinishes)
      rw [hticking] at hoff
      cases hoff
    · rw [World.ticker_of_serve hstart hstop hw]
      exact hticker

/-! ### Steps -/

/-- The database changes beside the execution, and the scan stays if it is live. -/
theorem Healthy.beside {db' : Db} (h : Healthy db ticker scanId g)
    (hthere : g.point.live = true → db.hasScan scanId = true → db'.hasScan scanId = true) :
    Healthy db' ticker scanId g :=
  ⟨h.sane, fun hlive => hthere hlive (h.there hlive), h.ticks⟩

theorem Serves.sound_scopes {registry : ModuleRegistry} {clock : ℚ} {db' : Db} {a : ApiStep}
    (h : Serves registry clock db a db') (hscopes : ∀ row ∈ db.scopes, row.sound = true)
    (hspares : ∀ seen payload, a = .updateScope seen payload →
      ∀ row ∈ db.scopes, row.id = seen.id → (payload.write seen row).sound = true) :
    ∀ row ∈ db'.scopes, row.sound = true := by
  intro row hrow
  cases h with
  | createsScope hv h =>
    obtain ⟨-, rfl⟩ := Db.createScope_eq_some.mp h
    rcases List.mem_append.mp hrow with hrow | hrow
    · exact hscopes row hrow
    · rw [List.mem_singleton.mp hrow]
      exact hv
  | updatesScope hv h =>
    obtain ⟨-, rfl⟩ := Db.updateScope_eq_some.mp h
    obtain ⟨row₀, hrow₀, ⟨hid, rfl⟩ | ⟨-, rfl⟩⟩ := mem_updateWhere.mp hrow
    · exact hspares _ _ rfl row₀ hrow₀ (eq_of_beq hid)
    · exact hscopes _ hrow₀
  | deletesScope h =>
    obtain ⟨-, rfl⟩ := Db.deleteScope_eq_some.mp h
    exact hscopes row (List.mem_filter.mp hrow).1
  | createsScan hv h =>
    obtain ⟨-, rfl⟩ := Db.createScan_eq_some.mp h
    exact hscopes row hrow
  | refused | decides | cancels | deletes => exact hscopes row hrow

/-- A request that spares the runner. -/
theorem Working.api (h : Working cfg i s) {a : ApiStep} {db : Db} (hspares : Spares i s (.api a))
    (hserves : Serves cfg.registry s.clock s.db a db) : Working cfg i { s with db } where
  integral := h.integral.extends hserves.extends
  scopes := hserves.sound_scopes h.scopes fun seen payload ha => by
    subst ha
    exact hspares
  safe := h.safe
  sweeping := h.sweeping
  executing scanId point rest hs := by
    obtain ⟨hhead, g, hpoint, hscript, hphases, hhealthy⟩ := h.executing scanId point rest hs
    refine ⟨hhead, g, hpoint, hscript, hphases, hhealthy.beside fun hlive hthere => ?_⟩
    refine hserves.extends.hasScan hthere fun hdeleted => ?_
    cases a with
    | deleteScan id =>
      have hid : scanId = id := List.mem_singleton.mp hdeleted
      refine hspares ?_
      rw [hs, ← hid, ← hpoint]
      exact if_pos hlive
    | _ => cases hdeleted

/-- The runner goes on with these in its new stage. -/
theorem Working.put {db : Db} {p : Proc} (hintegral : db.Integral cfg.registry)
    (hscopes : ∀ row ∈ db.scopes, row.sound = true) (hsafe : ∀ x, p.stage ≠ .dead x)
    (hsweeping : ∀ rest, p.stage = .sweeping rest →
      rest.Obeys firstSweep (fun _ _ => True) (fun _ _ => False) ())
    (hexecuting : ∀ scanId point rest, p.stage = .executing scanId point rest →
      Sound cfg.registry db p.ticker scanId point rest) : Working cfg i (s.put i db p) := by
  refine ⟨hintegral, hscopes, ?_, ?_, ?_⟩
  · rw [Sys.put_self]
    exact hsafe
  · rw [Sys.put_self]
    exact hsweeping
  · rw [Sys.put_self]
    exact hexecuting

/-- A step of the runner that leaves its stage. -/
theorem Working.stays (h : Working cfg i s) {db : Db} {p : Proc}
    (hintegral : db.Integral cfg.registry) (hscopes : db.scopes = s.db.scopes)
    (hstage : p.stage = (s.procs i).stage)
    (hhealthy : ∀ scanId g, Healthy s.db (s.procs i).ticker scanId g →
      Healthy db p.ticker scanId g) : Working cfg i (s.put i db p) := by
  refine Working.put hintegral (fun row hrow => h.scopes row (hscopes ▸ hrow))
    (fun x hx => h.safe x (hstage ▸ hx)) (fun rest hr => h.sweeping rest (hstage ▸ hr)) ?_
  intro scanId point rest hr
  obtain ⟨hhead, g, hpoint, hscript, hphases, hg⟩ := h.executing scanId point rest (hstage ▸ hr)
  exact ⟨hhead, g, hpoint, hscript, hphases, hhealthy scanId g hg⟩

theorem afterStatement_head {id : ℕ} {pt point : Point} {p rest : Runner ScanStatus}
    (h : afterStatement scanId point p = .executing id pt rest) : ∃ o, rest.head = some o := by
  cases p <;> cases h
  exact ⟨_, rfl⟩

/-- A statement of the execution. -/
theorem Working.executes (h : Working cfg i s) {e : Answers} {point : Point} {o : RunnerOp}
    {k : Except Exn o.Answer → Runner ScanStatus} {r : Except Exn o.Answer} {w : World}
    (he : e.Calm) (hspares : Spares i s (.run i (.serve e)))
    (hstage : (s.procs i).stage = .executing scanId point (.op o k))
    (hw : World.serve { e with now := s.clock } ⟨s.db, (s.procs i).ticker⟩ o = (r, w))
    (hintegral : w.db.Integral cfg.registry) :
    Working cfg i (s.put i w.db { s.procs i with
      stage := afterStatement scanId (point.next o r) (k r), ticker := w.ticker }) := by
  obtain ⟨-, g, rfl, hscript, hphases, hhealthy⟩ := h.executing _ _ _ hstage
  cases hscript with
  | op ha hk => cases hphases with
    | op ht hl =>
      have hfree : ∀ row, o = .insertEvent row → row.sequence ∉ s.db.sequences row.scanId := by
        rintro row rfl
        refine hspares row ?_
        rw [hstage]
        rfl
      have hcalm : Answers.Calm { e with now := s.clock } := ⟨he.result, he.resolve⟩
      have hfaults : faults cfg.registry o r = false :=
        serve_calm hhealthy h.integral h.scopes ha ht hcalm hfree hw
      have hnext := hhealthy.next ha ht hfaults hw
      have hscript := hk r (answers_serve hw)
      have hphases := hl r trivial
      have hscopes : w.db.scopes = s.db.scopes := (effect_of_serve hw).scopes
      refine Working.put hintegral (fun row hrow => h.scopes row (hscopes ▸ hrow)) ?_
        (fun rest hr => absurd hr afterStatement_ne) ?_
      · -- an exception would follow an answer at fault
        intro x hx
        cases hp : k r with
        | ret status => rw [hp] at hx; cases hx
        | op o' k' => rw [hp] at hx; cases hx
        | raise x' =>
          rw [hp] at hscript
          cases hscript with
          | raise hfails =>
            have hfaulty : ((script cfg.registry scanId).next g o r).faulty = true := hfails.1
            have hsane : ((script cfg.registry scanId).next g o r).faulty = false := hnext.sane
            rw [hsane] at hfaulty
            cases hfaulty
      · intro id pt rest hr
        have hhead := afterStatement_head hr
        obtain ⟨rfl, rfl, rfl⟩ := afterStatement_eq hr
        exact ⟨hhead, _, Standing.next_point cfg.registry g o r, hscript, hphases, hnext⟩

/-- A statement of the first sweep. -/
theorem Working.sweeps (h : Working cfg i s) {e : Answers} {o : RunnerOp}
    {k : Except Exn o.Answer → Runner Unit} {r : Except Exn o.Answer} {w : World}
    (hstage : (s.procs i).stage = .sweeping (.op o k))
    (hw : World.serve { e with now := s.clock } ⟨s.db, (s.procs i).ticker⟩ o = (r, w))
    (hintegral : w.db.Integral cfg.registry) :
    Working cfg i (s.put i w.db { s.procs i with
      stage := afterSweep (k r), ticker := w.ticker }) := by
  have hobeys := h.sweeping _ hstage
  cases hobeys with
  | op hpre hk =>
    have hrest := hk r (serve_firstSweep hpre hw)
    have hscopes : w.db.scopes = s.db.scopes := (effect_of_serve hw).scopes
    refine Working.put hintegral (fun row hrow => h.scopes row (hscopes ▸ hrow)) ?_ ?_
      fun id pt rest hr => absurd hr afterSweep_ne
    · intro x hx
      cases hp : k r with
      | ret status => rw [hp] at hx; cases hx
      | op o' k' => rw [hp] at hx; cases hx
      | raise x' =>
        rw [hp] at hrest
        cases hrest with
        | raise hfalse => exact hfalse
    · intro rest hr
      rw [afterSweep_eq hr]
      exact hrest

theorem Working.recovers (h : Working cfg i s)
    (hintegral : (s.db.recoverInterrupted s.clock).Integral cfg.registry) :
    Working cfg i (s.put i (s.db.recoverInterrupted s.clock)
      { s.procs i with stage := afterSweep (runRetention cfg.retentionDays) }) := by
  refine Working.put hintegral h.scopes (fun x hx => ?_) (fun rest hr => ?_) fun id pt rest hr => ?_
  · cases hx
  · have hr : afterSweep (runRetention cfg.retentionDays) = .sweeping rest := hr
    rw [afterSweep_eq hr]
    exact obeys_firstSweep cfg.retentionDays
  · have hr : afterSweep (runRetention cfg.retentionDays) = .executing id pt rest := hr
    exact absurd hr afterSweep_ne

theorem Working.claims (h : Working cfg i s) {candidate : ℕ}
    (hintegral : (s.db.claim candidate i s.clock).1.Integral cfg.registry) :
    Working cfg i (s.put i (s.db.claim candidate i s.clock).1 { s.procs i with
      stage := afterStatement candidate .reading
        (executeScan cfg.registry cfg.retentionDays candidate) }) := by
  let execution := executeScan cfg.registry cfg.retentionDays candidate
  refine Working.put hintegral h.scopes (fun x hx => ?_) (fun rest hr => ?_) fun id pt rest hr => ?_
  · cases hx
  · have hr : afterStatement candidate .reading execution = .sweeping rest := hr
    exact absurd hr afterStatement_ne
  · have hr : afterStatement candidate .reading execution = .executing id pt rest := hr
    have hhead := afterStatement_head hr
    obtain ⟨rfl, rfl, rfl⟩ := afterStatement_eq hr
    exact ⟨hhead, .start, rfl, scripted_executeScan cfg.registry cfg.retentionDays id,
      phased_executeScan cfg.registry cfg.retentionDays id, rfl, nofun, nofun⟩

/-- **One step.** -/
theorem working_step (h : Working cfg i s) (hcalm : a.Calm i) (hspares : Spares i s a)
    (hs : s.step cfg a = some s') : Working cfg i s' := by
  have hintegral := h.integral.extends (extends_step hs)
  cases Sys.step_steps hs with
  | tick => exact ⟨h.integral, h.scopes, h.safe, h.sweeping, h.executing⟩
  | api hserves => exact h.api hspares hserves
  | run hmoves =>
    rename_i j m db p
    have hj : j = i := by
      cases m with
      | serve e => exact hcalm.1
      | _ => exact hcalm
    subst hj
    have hsame : ∀ scanId g, Healthy s.db (s.procs j).ticker scanId g →
        Healthy s.db (s.procs j).ticker scanId g := fun _ _ hg => hg
    cases hmoves with
    | refused | sleeps | reads | fails => exact h.stays hintegral rfl rfl hsame
    | acquires =>
      have hhealthy : ∀ lock scanId g, Healthy s.db (s.procs j).ticker scanId g →
          Healthy { s.db with lock } (s.procs j).ticker scanId g :=
        fun _ _ _ hg => hg.beside fun _ hthere => hthere
      cases hstage : (s.procs j).stage with
      | down => exact Working.put hintegral h.scopes nofun nofun nofun
      | _ => exact h.stays hintegral rfl (by rw [hstage]; rfl) (hhealthy _)
    | stops | stopped | crashes | looks | loses =>
      exact Working.put hintegral h.scopes nofun nofun nofun
    | deletes | beats =>
      exact h.stays hintegral rfl rfl fun _ _ hg => hg.beside fun _ hthere => hthere
    | recovers => exact h.recovers hintegral
    | claims => exact h.claims hintegral
    | sweeps hstage hw => exact h.sweeps hstage hw hintegral
    | executes hstage hw => exact h.executes hcalm.2 hspares hstage hw hintegral
    | ticks ht =>
      refine h.stays hintegral rfl rfl fun id g hg => ⟨hg.sane, hg.there, fun hticking => ?_⟩
      obtain ⟨hlive, hticker⟩ := hg.ticks hticking
      refine ⟨hlive, Or.inr ⟨_, rfl, ?_⟩⟩
      rw [ht] at hticker
      rcases hticker with heq | ⟨row, heq, -⟩
      · cases heq
        rfl
      · cases heq
    | tocks ht hi =>
      obtain ⟨-, rfl⟩ := Db.insertEvent_eq_some.mp hi
      refine h.stays hintegral rfl rfl fun id g hg => ⟨hg.sane, hg.there, fun hticking => ?_⟩
      obtain ⟨hlive, hticker⟩ := hg.ticks hticking
      refine ⟨hlive, Or.inl ?_⟩
      rw [ht] at hticker
      rcases hticker with heq | ⟨row, heq, hid⟩
      · cases heq
      · cases heq
        rw [← hid]
    | tockFails ht hi =>
      rename_i row
      refine h.stays hintegral rfl rfl fun id g hg => ⟨hg.sane, hg.there, fun hticking => ?_⟩
      -- its scan is there, and the number is not taken
      obtain ⟨hlive, hticker⟩ := hg.ticks hticking
      rw [ht] at hticker
      rcases hticker with heq | ⟨row', heq, hid⟩
      · cases heq
      · cases heq
        have hfree : row.sequence ∉ s.db.sequences row.scanId := by
          refine hspares row ?_
          rw [ht]
          rfl
        have hinsert : s.db.insertEvent row ≠ none := by
          unfold Db.insertEvent
          rw [if_pos ⟨hid ▸ hg.there hlive, hfree⟩]
          nofun
        exact absurd hi hinsert
    | records hstage =>
      obtain ⟨r, heffect⟩ := s.db.record_effect ⟨some _, none⟩ _
      refine h.stays hintegral heffect.scopes rfl fun id g hg => hg.beside fun _ hthere => ?_
      have hextends : s.db.Extends cfg.registry [] _ := heffect.extends
      exact hextends.hasScan hthere List.not_mem_nil

/-! ### Endless runs -/

/-- What a step does to an execution, if the runner is not served. -/
theorem executing_step {point : Point} {rest : Runner ScanStatus} (hcalm : a.Calm i)
    (hserve : ∀ e, a ≠ .run i (.serve e)) (hs : s.step cfg a = some s')
    (hstage : (s.procs i).stage = .executing scanId point rest) :
    (s'.procs i).stage = .executing scanId point rest ∨ (s'.procs i).stage = .down := by
  cases Sys.step_steps hs with
  | tick | api => exact Or.inl hstage
  | run hmoves =>
    rename_i j m db p
    have hj : j = i := by
      cases m with
      | serve e => exact hcalm.1
      | _ => exact hcalm
    subst hj
    rw [Sys.put_self]
    cases hmoves with
    | acquires =>
      left
      show Stage.acquired (s.procs j).stage = _
      rw [hstage]
      rfl
    | stops | stopped | crashes => exact Or.inr rfl
    | recovers hother | looks hother | loses hother | claims hother =>
      rw [hstage] at hother
      cases hother
    | sweeps | executes => exact absurd rfl (hserve _)
    | refused | reads | fails | deletes | beats | sleeps | ticks | tocks | tockFails | records =>
      exact Or.inl hstage

variable {acts : ℕ → SysAct} {clock : ℚ}

/-- It goes on executing until it is served or the process ends. -/
theorem executing_until {point : Point} {rest : Runner ScanStatus} {n : ℕ}
    (hcalm : ∀ n, (acts n).Calm i)
    (hstage : ((states (Sys.step cfg) s acts n).procs i).stage = .executing scanId point rest) :
    ∀ d, (∀ k, n ≤ k → k < n + d → ∀ e, acts k ≠ .run i (.serve e)) →
      ((states (Sys.step cfg) s acts (n + d)).procs i).stage = .executing scanId point rest ∨
        ∃ m > n, ((states (Sys.step cfg) s acts m).procs i).stage = .down
  | 0, _ => Or.inl hstage
  | d + 1, hnot => by
    rcases executing_until hcalm hstage d fun k hk hlt => hnot k hk (by omega) with hd | hdown
    · cases hs : (states (Sys.step cfg) s acts (n + d)).step cfg (acts (n + d)) with
      | none =>
        left
        rw [← Nat.add_assoc, states, hs]
        exact hd
      | some s' =>
        have hserve := hnot (n + d) (by omega) (by omega)
        rcases executing_step (hcalm (n + d)) hserve hs hd with hstays | hdown
        · left
          rw [← Nat.add_assoc, states_succ hs]
          exact hstays
        · refine Or.inr ⟨n + d + 1, by omega, ?_⟩
          rw [states_succ hs]
          exact hdown
    · exact Or.inr hdown

/-- It is served, or the process ends. -/
theorem executing_served {point : Point} {rest : Runner ScanStatus} {n : ℕ}
    (hcalm : ∀ n, (acts n).Calm i)
    (hfair : ∀ n scanId, (states (Sys.step cfg) s acts n).Executes i scanId →
      ∃ m ≥ n, (∃ e, acts m = .run i (.serve e)) ∨
        ¬ (states (Sys.step cfg) s acts m).Executes i scanId)
    (hstage : ((states (Sys.step cfg) s acts n).procs i).stage = .executing scanId point rest) :
    (∃ m ≥ n, (∃ e, acts m = .run i (.serve e)) ∧
        ((states (Sys.step cfg) s acts m).procs i).stage = .executing scanId point rest) ∨
      ∃ m > n, ((states (Sys.step cfg) s acts m).procs i).stage = .down := by
  classical
  have hex := hfair n scanId ⟨point, rest, hstage⟩
  -- up to the first of these steps, nothing happens to it
  obtain ⟨hge, hfirst⟩ := Nat.find_spec hex
  have hnot : ∀ k, n ≤ k → k < n + (Nat.find hex - n) → ∀ e, acts k ≠ .run i (.serve e) := by
    intro k hk hlt e he
    exact Nat.find_min hex (by omega) ⟨hk, Or.inl ⟨e, he⟩⟩
  have huntil := executing_until hcalm hstage (Nat.find hex - n) hnot
  rw [Nat.add_sub_cancel' hge] at huntil
  rcases huntil with hstays | hdown
  · rcases hfirst with hserve | hnever
    · exact Or.inl ⟨Nat.find hex, hge, hserve, hstays⟩
    · exact absurd ⟨point, rest, hstays⟩ hnever
  · exact Or.inr hdown

/-- **Progress.** The induction is on the program that is left. -/
theorem executing_returns (hcalm : ∀ n, (acts n).Calm i)
    (hsafe : ∀ n x, ((states (Sys.step cfg) s acts n).procs i).stage ≠ .dead x)
    (hfair : ∀ n scanId, (states (Sys.step cfg) s acts n).Executes i scanId →
      ∃ m ≥ n, (∃ e, acts m = .run i (.serve e)) ∨
        ¬ (states (Sys.step cfg) s acts m).Executes i scanId) :
    ∀ (p : Runner ScanStatus) (n : ℕ) (point : Point),
    ((states (Sys.step cfg) s acts n).procs i).stage = afterStatement scanId point p →
    ∃ m ≥ n, ((states (Sys.step cfg) s acts m).procs i).stage = .looping ∨
      ((states (Sys.step cfg) s acts m).procs i).stage = .down := by
  intro p
  induction p with
  | ret status => exact fun n point hstage => ⟨n, le_rfl, Or.inl hstage⟩
  | raise x => exact fun n point hstage => absurd hstage (hsafe n x)
  | op o k ih =>
    intro n point hstage
    have hstage : ((states (Sys.step cfg) s acts n).procs i).stage =
        .executing scanId point (.op o k) := hstage
    rcases executing_served hcalm hfair hstage with ⟨m, hm, ⟨e, he⟩, hserved⟩ | ⟨m, hm, hdown⟩
    · let t := states (Sys.step cfg) s acts m
      let served := World.serve { e with now := t.clock } ⟨t.db, (t.procs i).ticker⟩ o
      have hs : t.step cfg (acts m) = some (t.put i served.2.db { t.procs i with
          stage := afterStatement scanId (point.next o served.1) (k served.1),
          ticker := served.2.ticker }) := by
        rw [he]
        simp only [Sys.step, procStep, t, hserved, Option.map_some]
        rfl
      have hnext : ((states (Sys.step cfg) s acts (m + 1)).procs i).stage =
          afterStatement scanId (point.next o served.1) (k served.1) := by
        rw [states_succ hs, Sys.put_self]
      obtain ⟨m', hm', hends⟩ := ih served.1 (m + 1) _ hnext
      exact ⟨m', by omega, hends⟩
    · exact ⟨m, le_of_lt hm, Or.inr hdown⟩

/-- The oldest queued scan is claimed, if nothing comes between. -/
theorem claims_next (hstage : (s.procs i).stage = .looping) {scan : ScanRow}
    (hqueued : s.db.nextQueued = some scan) :
    ∃ s', exec (Sys.step cfg) s [.run i .look, .run i .claim] = some s' ∧
      s'.Executes i scan.id := by
  have hmem := List.argmin_mem hqueued
  obtain ⟨hmem, hstatus⟩ := List.mem_filter.mp hmem
  have hclaim : (s.db.claim scan.id i s.clock).2 = true :=
    List.any_eq_true.mpr ⟨scan, hmem, by rw [hstatus, beq_self_eq_true]; rfl⟩
  let s₁ := s.put i s.db { s.procs i with stage := .claiming scan.id }
  have hlook : s.step cfg (.run i .look) = some s₁ := by
    simp only [Sys.step, procStep, hstage, hqueued, Option.map_some, s₁]
  let s₂ := s₁.put i (s₁.db.claim scan.id i s₁.clock).1 { s₁.procs i with
    stage := afterStatement scan.id .reading
      (executeScan cfg.registry cfg.retentionDays scan.id) }
  have hstep : s₁.step cfg (.run i .claim) = some s₂ := by
    have hstage₁ : (s₁.procs i).stage = .claiming scan.id := by rw [Sys.put_self]
    have hclaim₁ : (s₁.db.claim scan.id i s₁.clock).2 = true := hclaim
    simp only [Sys.step, procStep, hstage₁, hclaim₁, if_true, Option.map_some, s₂]
  refine ⟨s₂, (exec_cons _).mpr ⟨s₁, hlook, (exec_cons _).mpr ⟨s₂, hstep, rfl⟩⟩, ?_⟩
  exact ⟨.reading, executeScan cfg.registry cfg.retentionDays scan.id, by rw [Sys.put_self]; rfl⟩

end

/-- **The worker goes on.** Over every run in which no live scan is deleted, no
scope is left that `create` refuses and no event's number is taken, no exception
ends the worker, every execution returns and the next queued scan is claimed. -/
theorem worker_keepsWorking (cfg : Config) (i : ℕ) (clock : ℚ) (acts : ℕ → SysAct)
    (hcalm : ∀ n, (acts n).Calm i)
    (hspares : ∀ n, Spares i (states (Sys.step cfg) (.init .empty clock) acts n) (acts n)) :
    KeepsWorking cfg i (states (Sys.step cfg) (.init .empty clock) acts) acts := by
  have hstep : ∀ s a s', Working cfg i s → a.Calm i ∧ Spares i s a → s.step cfg a = some s' →
      Working cfg i s' := fun _ _ _ h hok hs => working_step h hok.1 hok.2 hs
  have hworking := states_inv hstep (working_init cfg i clock) fun n => ⟨hcalm n, hspares n⟩
  have hsafe := fun n => (hworking n).safe
  refine ⟨hsafe, ?_, fun n scan hstage hqueued => claims_next hstage hqueued⟩
  intro hfair n scanId ⟨point, rest, hstage⟩
  obtain ⟨⟨o, hhead⟩, -⟩ := (hworking n).executing scanId point rest hstage
  have hafter : ((states (Sys.step cfg) (.init .empty clock) acts n).procs i).stage =
      afterStatement scanId point rest := by
    rw [hstage]
    cases rest with
    | op o k => rfl
    | ret | raise => cases hhead
  obtain ⟨m, hm, hends⟩ := executing_returns hcalm hsafe hfair rest n point hafter
  refine ⟨m, lt_of_le_of_ne hm ?_, hends⟩
  rintro rfl
  rw [hstage] at hends
  rcases hends with hends | hends <;> cases hends

/-! ### Deleted too early -/

instance (i : ℕ) (s : Sys) : ∀ a, Decidable (Spares i s a)
  | .api (.deleteScan scanId) =>
    inferInstanceAs (Decidable ((s.procs i).stage.live ≠ some scanId))
  | .api (.updateScope seen payload) => inferInstanceAs (Decidable
      (∀ row ∈ s.db.scopes, row.id = seen.id → (payload.write seen row).sound = true))
  | .run _ (.serve _) => inferInstanceAs (Decidable
      (∀ row ∈ (s.procs i).stage.inserts, row.sequence ∉ s.db.sequences row.scanId))
  | .run _ .tock => inferInstanceAs (Decidable
      (∀ row ∈ (s.procs i).ticker.inserts, row.sequence ∉ s.db.sequences row.scanId))
  | .api (.createScope _) | .api (.deleteScope _) | .api (.decide _ _) | .api (.createScan _)
  | .api (.cancelScan _ _) | .tick _ | .run _ (.acquire _) | .run _ .write | .run _ .release
  | .run _ .delete | .run _ (.beat _) | .run _ .recover | .run _ .look | .run _ .claim
  | .run _ (.tick _ _) | .run _ (.record _) | .run _ .crash => inferInstanceAs (Decidable True)

/-- These steps, and then nothing but the clock's. -/
def thenIdle (ls : List SysAct) (n : ℕ) : SysAct := (ls[n]?).getD (.tick 0)

theorem labAnswers_calm : labAnswers.Calm := ⟨rfl, fun _ _ h => by cases h⟩

theorem calm_thenIdle {i : ℕ} {ls : List SysAct} (h : ∀ a ∈ ls, a.Calm i) (n : ℕ) :
    (thenIdle ls n).Calm i := by
  unfold thenIdle
  cases hn : ls[n]? with
  | none => exact trivial
  | some a => exact h a (List.mem_of_getElem? hn)

theorem spares_thenIdle {i : ℕ} {ls : List SysAct} {s : ℕ → Sys}
    (h : ∀ n < ls.length, Spares i (s n) (thenIdle ls n)) (n : ℕ) :
    Spares i (s n) (thenIdle ls n) := by
  by_cases hn : n < ls.length
  · exact h n hn
  · unfold thenIdle
    rw [List.getElem?_eq_none (Nat.le_of_not_lt hn)]
    exact trivial

/-- Runner 0 claims the scan of the lab and reads it. -/
def labStarts : List SysAct := labRequests ++ startsAt 0 0 ++ [.run 0 (.serve labAnswers)]

theorem labStarts_calm : ∀ a ∈ labStarts, a.Calm 0 := by
  unfold labStarts labRequests startsAt
  simp [SysAct.Calm, labAnswers_calm]

/-- The scan is cancelled while it runs, and deleted when it has ended. -/
def labWorks : List SysAct :=
  labStarts ++ .api (.cancelScan .running 1) :: List.replicate 16 (.run 0 (.serve labAnswers)) ++
    [.api (.deleteScan 1)]

theorem worker_keepsWorking_lab :
    KeepsWorking labConfig 0 (states (Sys.step labConfig) (.init .empty 0) (thenIdle labWorks))
      (thenIdle labWorks) := by
  have hcalm : ∀ a ∈ labWorks, a.Calm 0 := by
    unfold labWorks
    simp only [List.forall_mem_append, List.forall_mem_cons]
    refine ⟨⟨labStarts_calm, trivial, fun a ha => ?_⟩, trivial, fun a ha => by cases ha⟩
    rw [List.eq_of_mem_replicate ha]
    exact ⟨rfl, labAnswers_calm⟩
  exact worker_keepsWorking labConfig 0 0 (thenIdle labWorks) (calm_thenIdle hcalm)
    (spares_thenIdle (by decide +kernel))

def Stage.isDead : Stage → Bool
  | .dead _ => true
  | .down | .starting | .sweeping _ | .looping | .claiming _ | .executing _ _ _ => false

/-- The scan is deleted once it is read, and its first event finds no row. -/
theorem not_worker_keepsWorking : ¬ ∀ (cfg : Config) (i : ℕ) (clock : ℚ) (acts : ℕ → SysAct),
    (∀ n, (acts n).Calm i) →
    KeepsWorking cfg i (states (Sys.step cfg) (.init .empty clock) acts) acts := by
  intro h
  let ls := labStarts ++ .api (.deleteScan 1) :: List.replicate 3 (.run 0 (.serve labAnswers))
  have hcalm : ∀ a ∈ ls, a.Calm 0 := by
    simp only [ls, List.forall_mem_append, List.forall_mem_cons]
    refine ⟨labStarts_calm, trivial, fun a ha => ?_⟩
    rw [List.eq_of_mem_replicate ha]
    exact ⟨rfl, labAnswers_calm⟩
  have hworks := h labConfig 0 0 (thenIdle ls) (calm_thenIdle hcalm)
  let s := states (Sys.step labConfig) (.init .empty 0) (thenIdle ls) 17
  have hdead : (s.procs 0).stage.isDead = true := by decide +kernel
  cases hstage : (s.procs 0).stage with
  | dead x => exact hworks.safe 17 x hstage
  | _ => rw [hstage] at hdead; cases hdead

end ScanLedger
