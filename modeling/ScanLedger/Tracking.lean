/-
# Tracking the runners

Beside the state of the system goes what has happened so far in each runner's
execution. Every runner that executes a scan keeps to the script from there,
and one that sweeps deletes what it has selected. `Tracks` says what each step
of the system comes to in these terms: which statement of the script it carries
out, and what that does to the tables.

Key definitions: `Sys.Executes`, `Tracked`, `Tracks`, `Effect`.
Key theorems: `serve_effect`, `tracked_step`, `emitted_tracked`, `exec_tracked`.
-/
import ScanLedger.Script
import ScanLedger.WorkerLock

namespace ScanLedger

open Prog Run

/-! ### What a statement does to the tables -/

/-- The scans that a statement deletes. -/
def RunnerOp.deleted : RunnerOp → List ℕ
  | .deleteScans ids => ids
  | _ => []

/-- A statement, so answered, has written. -/
def RunnerOp.writes : (o : RunnerOp) → Except Exn o.Answer → Bool
  | .updateScan _ _ _, _ | .updateModuleRun _ _ _, _ | .skipRemaining _ _ _, _
  | .deleteScans _, _ => true
  | .insertFindings _ _, .ok _ | .insertEvent _, .ok _ | .guard _ (.record _), .ok _ => true
  | _, _ => false

theorem RunnerOp.deleted_of_reads {o : RunnerOp} {r : Except Exn o.Answer}
    (h : o.writes r = false) : o.deleted = [] := by
  cases o with
  | deleteScans ids => cases h
  | _ => rfl

/-- What a statement of a runner, so answered, leaves of the database. -/
inductive Effect (db : Db) : (o : RunnerOp) → Except Exn o.Answer → Db → Prop
  /-- It has read, or it has failed. -/
  | reads (o : RunnerOp) (r : Except Exn o.Answer) (h : o.writes r = false) : Effect db o r db
  | updatesScan (scanId : ℕ) (status : ScanStatus) (now : ℚ) :
      Effect db (.updateScan scanId status now) (.ok ()) (db.updateScan scanId status now)
  | updatesRun (scanId : ℕ) (module : String) (u : ModuleUpdate) :
      Effect db (.updateModuleRun scanId module u) (.ok ()) (db.updateModuleRun scanId module u)
  | skips (scanId : ℕ) (reason : String) (now : ℚ) :
      Effect db (.skipRemaining scanId reason now) (.ok ()) (db.skipRemaining scanId reason now)
  | stores (scanId : ℕ) (findings : List Finding) (h : db.hasScan scanId = true) :
      Effect db (.insertFindings scanId findings) (.ok ())
        { db with findings := db.findings ++ findings.map fun f => ⟨scanId, f⟩ }
  | publishes (row : ScanEventRow) (h : db.hasScan row.scanId = true)
      (hn : row.sequence ∉ db.sequences row.scanId) :
      Effect db (.insertEvent row) (.ok ()) { db with events := db.events ++ [row] }
  | records (ledger : DatabaseLedger) (entry : LedgerEntry)
      (h : ∀ id ∈ ledger.scanId, db.hasScan id = true) :
      Effect db (.guard ledger (.record entry)) (.ok ())
        { db with ledger := db.ledger ++ [⟨ledger.scanId, ledger.scopeId, entry⟩] }
  | deletes (ids : List ℕ) : Effect db (.deleteScans ids) (.ok ()) (db.deleteScans ids)

theorem serve_effect (e : Answers) (w : World) (o : RunnerOp) :
    Effect w.db o (w.serve e o).1 (w.serve e o).2.db := by
  cases o with
  | updateScan scanId status now => exact .updatesScan scanId status now
  | updateModuleRun scanId module u => exact .updatesRun scanId module u
  | skipRemaining scanId reason now => exact .skips scanId reason now
  | deleteScans ids => exact .deletes ids
  | insertFindings scanId findings =>
    change Effect w.db (.insertFindings scanId findings)
      (w.insert (w.db.insertFindings scanId findings)).1
      (w.insert (w.db.insertFindings scanId findings)).2.db
    cases h : w.db.insertFindings scanId findings with
    | none => exact .reads _ _ rfl
    | some db =>
      obtain ⟨hscan, rfl⟩ := Db.insertFindings_eq_some.mp h
      exact .stores scanId findings hscan
  | insertEvent row =>
    change Effect w.db (.insertEvent row) (w.insert (w.db.insertEvent row)).1
      (w.insert (w.db.insertEvent row)).2.db
    cases h : w.db.insertEvent row with
    | none => exact .reads _ _ rfl
    | some db =>
      obtain ⟨⟨hscan, hn⟩, rfl⟩ := Db.insertEvent_eq_some.mp h
      exact .publishes row hscan hn
  | guard ledger o =>
    cases o with
    | record entry =>
      change Effect w.db (.guard ledger (.record entry))
        (w.insert (w.db.insertLedger ⟨ledger.scanId, ledger.scopeId, entry⟩)).1
        (w.insert (w.db.insertLedger ⟨ledger.scanId, ledger.scopeId, entry⟩)).2.db
      cases h : w.db.insertLedger ⟨ledger.scanId, ledger.scopeId, entry⟩ with
      | none => exact .reads _ _ rfl
      | some db =>
        obtain ⟨hscan, rfl⟩ := Db.insertLedger_eq_some.mp h
        exact .records ledger entry hscan
    | _ => exact .reads _ _ rfl
  | stopTicker =>
    unfold World.serve
    split <;> exact .reads _ _ rfl
  | _ => exact .reads _ _ rfl

/-- The tables but for the lock. -/
def Db.SameTables (db db' : Db) : Prop := { db' with lock := db.lock } = db

theorem effect_of_serve {e : Answers} {w w' : World} {o : RunnerOp} {r : Except Exn o.Answer}
    (h : w.serve e o = (r, w')) : Effect w.db o r w'.db := by
  have he := serve_effect e w o
  rwa [h] at he

/-- An entry is stored, or it is not. -/
theorem Db.record_effect (db : Db) (ledger : DatabaseLedger) (entry : LedgerEntry) :
    ∃ r, Effect db (.guard ledger (.record entry)) r
      ((db.insertLedger ⟨ledger.scanId, ledger.scopeId, entry⟩).getD db) := by
  cases h : db.insertLedger ⟨ledger.scanId, ledger.scopeId, entry⟩ with
  | none => exact ⟨.error (.failure .integrity), .reads _ _ rfl⟩
  | some db' =>
    obtain ⟨hscan, rfl⟩ := Db.insertLedger_eq_some.mp h
    exact ⟨.ok (), .records ledger entry hscan⟩

/-- The scan that is asked for is the one that is found. -/
theorem answers_serve {e : Answers} {w w' : World} {o : RunnerOp} {r : Except Exn o.Answer}
    (h : w.serve e o = (r, w')) : answers o r := by
  cases o with
  | getScan scanId =>
    cases h
    show answers (.getScan scanId) (.ok (w.db.getScan scanId))
    cases hfound : w.db.getScan scanId with
    | none => exact trivial
    | some scan =>
      have hid := List.find?_some (p := fun r : ScanRow => r.id == scanId) hfound
      exact eq_of_beq hid
  | _ => exact trivial

/-! ### Who executes what -/

def Sys.Executes (s : Sys) (i scanId : ℕ) : Prop :=
  ∃ point rest, (s.procs i).stage = .executing scanId point rest

def Sys.Sweeps (s : Sys) (i : ℕ) : Prop := ∃ rest, (s.procs i).stage = .sweeping rest

/-- Every runner that executes a scan keeps to its script from where it stands,
and every one that sweeps to its selection. -/
structure Tracked (cfg : Config) (s : Sys) (γ : ℕ → Standing) : Prop where
  executing : ∀ i scanId point rest, (s.procs i).stage = .executing scanId point rest →
    (γ i).point = point ∧
      rest.Obeys (script cfg.registry scanId) (fun _ _ => True) (Fails false) (γ i)
  sweeping : ∀ i rest, (s.procs i).stage = .sweeping rest →
    rest.Obeys retention (fun _ _ => True) (fun _ _ => True) (γ i).expired

/-- What a step of the system comes to, tracked. -/
inductive Tracks (cfg : Config) (s : Sys) (γ : ℕ → Standing) :
    SysAct → Sys → (ℕ → Standing) → Prop
  /-- Nothing but the lock is written, and nobody begins to execute or sweep. -/
  | rests {a : SysAct} {s' : Sys} (ha : ∀ i e, a ≠ .run i (.serve e))
      (hclock : s.clock ≤ s'.clock) (hdb : s.db.SameTables s'.db)
      (hexec : ∀ j scanId, s'.Executes j scanId → s.Executes j scanId)
      (hsweep : ∀ j, s'.Sweeps j → s.Sweeps j) : Tracks cfg s γ a s' γ
  | api {a : ApiStep} {db : Db} (h : Serves cfg.registry s.clock s.db a db) :
      Tracks cfg s γ (.api a) { s with db } γ
  | recovers {i : ℕ} {p : Proc} (hs : (s.procs i).stage = .starting)
      (hp : ∀ scanId point rest, p.stage ≠ .executing scanId point rest) :
      Tracks cfg s γ (.run i .recover) (s.put i (s.db.recoverInterrupted s.clock) p) γ
  | claims {i candidate : ℕ} {p : Proc} (hc : (s.db.claim candidate i s.clock).2 = true)
      (hp : ∀ scanId point rest, p.stage = .executing scanId point rest → scanId = candidate) :
      Tracks cfg s γ (.run i .claim) (s.put i (s.db.claim candidate i s.clock).1 p)
        (Function.update γ i .start)
  /-- Runner `i` carries out a statement of its execution. -/
  | executes {i : ℕ} {e : Answers} {scanId : ℕ} {o : RunnerOp}
      {k : Except Exn o.Answer → Runner ScanStatus} {p : Proc}
      (hs : (s.procs i).stage = .executing scanId (γ i).point (.op o k))
      (ha : (γ i).allows scanId o) {r : Except Exn o.Answer} {w : World}
      (hw : World.serve { e with now := s.clock } ⟨s.db, (s.procs i).ticker⟩ o = (r, w))
      (hp : ∀ id point rest, p.stage = .executing id point rest → id = scanId) :
      Tracks cfg s γ (.run i (.serve e)) (s.put i w.db p)
        (Function.update γ i ((γ i).next cfg.registry o r))
  /-- Runner `i` carries out a statement of its first sweep. -/
  | sweeps {i : ℕ} {e : Answers} {o : RunnerOp} {k : Except Exn o.Answer → Runner Unit}
      {p : Proc} (hs : (s.procs i).stage = .sweeping (.op o k))
      (ha : retention.pre (γ i).expired o) {r : Except Exn o.Answer} {w : World}
      (hw : World.serve { e with now := s.clock } ⟨s.db, (s.procs i).ticker⟩ o = (r, w))
      (hp : ∀ id point rest, p.stage ≠ .executing id point rest) :
      Tracks cfg s γ (.run i (.serve e)) (s.put i w.db p)
        (Function.update γ i { γ i with expired := retention.next (γ i).expired o r })
  /-- Beside the execution the ticker's event is stored, or the guard records. -/
  | beside {i : ℕ} {m : Move} {o : RunnerOp} {r : Except Exn o.Answer} {db : Db} {p : Proc}
      (hm : ∀ e, m ≠ .serve e) (he : Effect s.db o r db)
      (ho : (∃ row, o = .insertEvent row) ∨ ∃ ledger entry, o = .guard ledger (.record entry))
      (hp : p.stage = (s.procs i).stage) : Tracks cfg s γ (.run i m) (s.put i db p) γ

/-! ### Steps -/

section

variable {cfg : Config} {s s' : Sys} {γ γ' : ℕ → Standing} {a : SysAct} {i : ℕ}

theorem Sys.Executes.of_put {db : Db} {p : Proc} {j scanId : ℕ}
    (h : (s.put i db p).Executes j scanId)
    (hp : ∀ id point rest, p.stage = .executing id point rest → s.Executes i id) :
    s.Executes j scanId := by
  obtain ⟨point, rest, hs⟩ := h
  by_cases hj : j = i
  · subst hj
    rw [Sys.put_self] at hs
    exact hp scanId point rest hs
  · rw [Sys.put_of_ne s hj] at hs
    exact ⟨point, rest, hs⟩

theorem Sys.Sweeps.of_put {db : Db} {p : Proc} {j : ℕ} (h : (s.put i db p).Sweeps j)
    (hp : ∀ rest, p.stage = .sweeping rest → s.Sweeps i) : s.Sweeps j := by
  obtain ⟨rest, hs⟩ := h
  by_cases hj : j = i
  · subst hj
    rw [Sys.put_self] at hs
    exact hp rest hs
  · rw [Sys.put_of_ne s hj] at hs
    exact ⟨rest, hs⟩

/-- Apart from the point and the fault, a statement leaves what `after` says. -/
theorem Standing.next_after {β : Type} (f : Standing → β)
    (hf : ∀ g point faulty, f { g with point, faulty } = f g) (registry : ModuleRegistry)
    (g : Standing) (o : RunnerOp) (r : Except Exn o.Answer) :
    f (g.next registry o r) = f (g.after registry o r) := by
  unfold Standing.next
  split
  · exact hf _ _ _
  · exact hf _ _ (g.after registry o r).faulty

/-- A write to a module run leaves what is not about the run. -/
theorem Standing.wrote_apart {β : Type} (f : Standing → β)
    (hf : ∀ g todo running result stored, f { g with todo, running, result, stored } = f g)
    (g : Standing) (u : ModuleUpdate) : f (g.wrote u) = f g := by
  unfold wrote
  split
  · exact hf g _ _ _ _
  · exact hf g g.todo _ g.result g.stored

theorem Standing.next_point (registry : ModuleRegistry) (g : Standing) (o : RunnerOp)
    (r : Except Exn o.Answer) : (g.next registry o r).point = g.point.next o r := by
  unfold Standing.next
  split <;> rfl

theorem afterStatement_eq {scanId id : ℕ} {point pt : Point} {p rest : Runner ScanStatus}
    (h : afterStatement scanId point p = .executing id pt rest) :
    id = scanId ∧ pt = point ∧ rest = p := by
  cases p <;> cases h
  exact ⟨rfl, rfl, rfl⟩

theorem afterStatement_ne {scanId : ℕ} {point : Point} {p : Runner ScanStatus}
    {rest : Runner Unit} : afterStatement scanId point p ≠ .sweeping rest := by
  cases p <;> exact nofun

theorem afterSweep_eq {p rest : Runner Unit} (h : afterSweep p = .sweeping rest) : rest = p := by
  cases p <;> cases h
  rfl

theorem afterSweep_ne {id : ℕ} {pt : Point} {p : Runner Unit} {rest : Runner ScanStatus} :
    afterSweep p ≠ .executing id pt rest := by
  cases p <;> exact nofun

/-- Runner `i` steps, and is tracked in its new stage. -/
theorem Tracked.put (h : Tracked cfg s γ) {db : Db} {p : Proc} {g : Standing}
    (hexec : ∀ scanId point rest, p.stage = .executing scanId point rest → g.point = point ∧
      rest.Obeys (script cfg.registry scanId) (fun _ _ => True) (Fails false) g)
    (hsweep : ∀ rest, p.stage = .sweeping rest →
      rest.Obeys retention (fun _ _ => True) (fun _ _ => True) g.expired) :
    Tracked cfg (s.put i db p) (Function.update γ i g) where
  executing j scanId point rest hs := by
    by_cases hj : j = i
    · subst hj
      rw [Sys.put_self] at hs
      rw [Function.update_self]
      exact hexec scanId point rest hs
    · rw [Sys.put_of_ne s hj] at hs
      rw [Function.update_of_ne hj]
      exact h.executing j scanId point rest hs
  sweeping j rest hs := by
    by_cases hj : j = i
    · subst hj
      rw [Sys.put_self] at hs
      rw [Function.update_self]
      exact hsweep rest hs
    · rw [Sys.put_of_ne s hj] at hs
      rw [Function.update_of_ne hj]
      exact h.sweeping j rest hs

/-- A step of runner `i` that leaves its stage, or goes where it does nothing. -/
theorem Tracked.rest (h : Tracked cfg s γ) {db : Db} {p : Proc}
    (hp : p.stage = (s.procs i).stage ∨ (∀ id point rest, p.stage ≠ .executing id point rest) ∧
      ∀ rest, p.stage ≠ .sweeping rest) : Tracked cfg (s.put i db p) γ := by
  rw [← Function.update_eq_self i γ]
  refine h.put (fun scanId point rest hs => ?_) fun rest hs => ?_
  · rcases hp with hp | ⟨hp, -⟩
    · exact h.executing i scanId point rest (hp ▸ hs)
    · exact absurd hs (hp scanId point rest)
  · rcases hp with hp | ⟨-, hp⟩
    · exact h.sweeping i rest (hp ▸ hs)
    · exact absurd hs (hp rest)

/-- Such a step that writes nothing but the lock. -/
theorem Tracked.rests (h : Tracked cfg s γ) {db : Db} {p : Proc}
    (ha : ∀ j e, a ≠ .run j (.serve e)) (hdb : s.db.SameTables db)
    (hp : p.stage = (s.procs i).stage ∨ (∀ id point rest, p.stage ≠ .executing id point rest) ∧
      ∀ rest, p.stage ≠ .sweeping rest) :
    ∃ γ', Tracked cfg (s.put i db p) γ' ∧ Tracks cfg s γ a (s.put i db p) γ' := by
  refine ⟨γ, h.rest hp, .rests ha le_rfl hdb (fun j scanId he => he.of_put fun id point rest hs =>
    ?_) fun j hs => hs.of_put fun rest hs => ?_⟩
  · rcases hp with hp | ⟨hp, -⟩
    · exact ⟨point, rest, hp ▸ hs⟩
    · exact absurd hs (hp id point rest)
  · rcases hp with hp | ⟨-, hp⟩
    · exact ⟨rest, hp ▸ hs⟩
    · exact absurd hs (hp rest)

/-- **Tracking.** The runners stay tracked through a step. -/
theorem tracked_step (h : Tracked cfg s γ) (hs : s.step cfg a = some s') :
    ∃ γ', Tracked cfg s' γ' ∧ Tracks cfg s γ a s' γ' := by
  cases Sys.step_steps hs with
  | tick hd =>
    exact ⟨γ, ⟨h.executing, h.sweeping⟩, .rests nofun (le_add_of_nonneg_right hd) rfl
      (fun _ _ he => he) fun _ hs => hs⟩
  | api hserves => exact ⟨γ, ⟨h.executing, h.sweeping⟩, .api hserves⟩
  | run hmoves =>
    rename_i i m db p
    cases hmoves with
    | refused => exact h.rests nofun rfl (Or.inl rfl)
    | reads | fails | beats | sleeps | ticks | tockFails => exact h.rests nofun rfl (Or.inl rfl)
    | acquires hl hw =>
      refine h.rests nofun rfl ?_
      cases hstage : (s.procs i).stage with
      | down => exact Or.inr ⟨nofun, nofun⟩
      | _ => exact Or.inl rfl
    | stops | stopped | crashes => exact h.rests nofun rfl (Or.inr ⟨nofun, nofun⟩)
    | deletes => exact h.rests nofun rfl (Or.inl rfl)
    | looks | loses => exact h.rests nofun rfl (Or.inr ⟨nofun, nofun⟩)
    | recovers hstage =>
      have hne : ∀ id point rest, (Stage.executing id point rest) ≠
          afterSweep (runRetention cfg.retentionDays) := fun _ _ _ he => afterSweep_ne he.symm
      have htracked : Tracked cfg (s.put i (s.db.recoverInterrupted s.clock)
          { s.procs i with stage := afterSweep (runRetention cfg.retentionDays) })
          (Function.update γ i (γ i)) := by
        refine h.put (fun id point rest he => absurd he.symm (hne id point rest)) fun rest hr => ?_
        have hr : afterSweep (runRetention cfg.retentionDays) = .sweeping rest := hr
        rw [afterSweep_eq hr]
        exact obeys_retention cfg.retentionDays _
      rw [Function.update_eq_self] at htracked
      exact ⟨γ, htracked, .recovers hstage fun id point rest he => hne id point rest he.symm⟩
    | claims hstage hc =>
      rename_i candidate
      let execution := executeScan cfg.registry cfg.retentionDays candidate
      refine ⟨Function.update γ i .start, h.put ?_ ?_, .claims hc ?_⟩
      · intro scanId point rest he
        have he : afterStatement candidate .reading execution = .executing scanId point rest := he
        obtain ⟨rfl, rfl, rfl⟩ := afterStatement_eq he
        exact ⟨rfl, scripted_executeScan cfg.registry cfg.retentionDays scanId⟩
      · intro rest hr
        have hr : afterStatement candidate .reading execution = .sweeping rest := hr
        exact absurd hr afterStatement_ne
      · intro scanId point rest he
        have he : afterStatement candidate .reading execution = .executing scanId point rest := he
        exact (afterStatement_eq he).1
    | sweeps hstage hw =>
      rename_i e o k r w
      have hobeys := h.sweeping i _ hstage
      cases hobeys with
      | op hpre hk =>
        refine ⟨Function.update γ i { γ i with expired := retention.next (γ i).expired o r },
          h.put ?_ ?_, .sweeps hstage hpre hw ?_⟩
        · intro id point rest he
          exact absurd he afterSweep_ne
        · intro rest hr
          rw [afterSweep_eq hr]
          exact hk r trivial
        · intro id point rest
          exact afterSweep_ne
    | executes hstage hw =>
      rename_i e scanId point o k r w
      obtain ⟨hpoint, hobeys⟩ := h.executing i _ _ _ hstage
      cases hobeys with
      | op hpre hk =>
        rw [← hpoint] at hstage
        refine ⟨Function.update γ i ((γ i).next cfg.registry o r), h.put ?_ ?_,
          .executes hstage hpre hw ?_⟩
        · intro id pt rest he
          obtain ⟨rfl, rfl, rfl⟩ := afterStatement_eq he
          refine ⟨?_, hk r (answers_serve hw)⟩
          rw [← hpoint]
          exact Standing.next_point cfg.registry _ o r
        · intro rest hr
          exact absurd hr afterStatement_ne
        · intro id pt rest he
          exact (afterStatement_eq he).1
    | tocks ht hi =>
      obtain ⟨hscan, rfl⟩ := Db.insertEvent_eq_some.mp hi
      exact ⟨γ, h.rest (Or.inl rfl),
        .beside nofun (.publishes _ hscan.1 hscan.2) (Or.inl ⟨_, rfl⟩) rfl⟩
    | records hstage =>
      obtain ⟨r, he⟩ := s.db.record_effect ⟨some _, none⟩ _
      exact ⟨γ, h.rest (Or.inl rfl), .beside nofun he (Or.inr ⟨_, _, rfl⟩) rfl⟩

theorem tracked_init (db : Db) (clock : ℚ) : Tracked cfg (.init db clock) fun _ => .start :=
  ⟨fun _ _ _ _ h => (by cases h), fun _ _ h => (by cases h)⟩

/-- A tracked invariant of the steps that meet a condition, which may speak of
what was emitted so far, holds in the end of every run whose steps meet it. -/
theorem emitted_tracked {ε : Type} (obs : Sys → SysAct → List ε)
    {I : List ε → Sys → (ℕ → Standing) → Prop} {ok : Sys → SysAct → Prop}
    (hI : ∀ h s γ a s' γ', Tracked cfg s γ → I h s γ → ok s a → s.step cfg a = some s' →
      Tracks cfg s γ a s' γ' → I (h ++ obs s a) s' γ')
    {h : List ε} (ht : Tracked cfg s γ) (h₀ : I h s γ) {ls : List SysAct}
    (hm : Meets (Sys.step cfg) ok s ls) (hr : exec (Sys.step cfg) s ls = some s') :
    ∃ γ', Tracked cfg s' γ' ∧ I (h ++ emitted (Sys.step cfg) obs s ls) s' γ' := by
  refine emitted_inv (J := fun h s => ∃ γ, Tracked cfg s γ ∧ I h s γ) ?_ ⟨γ, ht, h₀⟩ hm hr
  intro h s a s' ⟨γ, ht, hi⟩ hok hs
  obtain ⟨γ', ht', hstep⟩ := tracked_step ht hs
  exact ⟨γ', ht', hI h s γ a s' γ' ht hi hok hs hstep⟩

/-- And one that does not. -/
theorem run_tracked {I : Sys → (ℕ → Standing) → Prop} {ok : Sys → SysAct → Prop}
    (hI : ∀ s γ a s' γ', Tracked cfg s γ → I s γ → ok s a → s.step cfg a = some s' →
      Tracks cfg s γ a s' γ' → I s' γ')
    (ht : Tracked cfg s γ) (h₀ : I s γ) {ls : List SysAct} (hm : Meets (Sys.step cfg) ok s ls)
    (hr : exec (Sys.step cfg) s ls = some s') : ∃ γ', Tracked cfg s' γ' ∧ I s' γ' :=
  emitted_tracked (ε := Unit) (fun _ _ => []) (I := fun _ => I) (h := [])
    (fun _ s γ a s' γ' => hI s γ a s' γ') ht h₀ hm hr

/-- From a database that no runner is started on yet. -/
theorem exec_tracked {I : Sys → (ℕ → Standing) → Prop} {ok : Sys → SysAct → Prop}
    (hI : ∀ s γ a s' γ', Tracked cfg s γ → I s γ → ok s a → s.step cfg a = some s' →
      Tracks cfg s γ a s' γ' → I s' γ')
    {db : Db} {clock : ℚ} (h₀ : I (.init db clock) fun _ => .start) {ls : List SysAct}
    (hm : Meets (Sys.step cfg) ok (.init db clock) ls)
    (hr : exec (Sys.step cfg) (.init db clock) ls = some s) : ∃ γ, Tracked cfg s γ ∧ I s γ :=
  run_tracked hI (tracked_init db clock) h₀ hm hr

end

end ScanLedger
