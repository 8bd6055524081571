/-
# The ledger

Of the ledger rows only those go whose scan is deleted, by a request or by a
retention sweep, and no row changes. A sweep selects the scans in one statement
and deletes them in another; since a terminal scan stays terminal and an id is
given out once, it deletes only scans that were terminal and old when it
selected them, with all that they own.

Key definitions: `Sys.selects`, `lastCutoff`, `Selected`.
Key theorems: `Tracks.terminal`, `selected_step`, `ledger_appendOnly`.
-/
import ScanLedger.Integrity

namespace ScanLedger

open Prog Run Table

/-! ### What a sweep has selected -/

/-- The cutoff of a sweep's SELECT. -/
def RunnerOp.cutoffs : RunnerOp → List ℚ
  | .expiredScans cutoff => [cutoff]
  | _ => []

/-- The SELECT of a sweep: whose it is, and its cutoff. -/
def Sys.selects (s : Sys) : SysAct → List (ℕ × ℚ)
  | .run i (.serve _) => match (s.procs i).stage.head with
    | some o => o.cutoffs.map fun cutoff => (i, cutoff)
    | none => []
  | _ => []

/-- The cutoff of the last SELECT of runner `i`. -/
def lastCutoff (i : ℕ) (selected : List (ℕ × ℚ)) : Option ℚ :=
  ((selected.filter (·.1 == i)).getLast?).map (·.2)

theorem lastCutoff_self (i : ℕ) (cutoff : ℚ) (selected : List (ℕ × ℚ)) :
    lastCutoff i (selected ++ [(i, cutoff)]) = some cutoff := by
  unfold lastCutoff
  simp

theorem lastCutoff_of_ne {i j : ℕ} (h : j ≠ i) (cutoff : ℚ) (selected : List (ℕ × ℚ)) :
    lastCutoff i (selected ++ [(j, cutoff)]) = lastCutoff i selected := by
  unfold lastCutoff
  simp [h]

/-- The scans that each runner's last sweep has selected are those terminal and
old ones, as far as they are still there. -/
structure Selected (registry : ModuleRegistry) (selected : List (ℕ × ℚ)) (s : Sys)
    (γ : ℕ → Standing) : Prop where
  integral : s.db.Integral registry
  expired : ∀ i, ∀ id ∈ (γ i).expired, id < s.db.nextId ∧
    ∃ cutoff ∈ lastCutoff i selected, ∀ scan ∈ s.db.scans, scan.id = id →
      scan.status.isTerminal = true ∧ scan.createdAt < cutoff

/-! ### Steps -/

section

variable {cfg : Config} {s s' : Sys} {γ γ' : ℕ → Standing} {a : SysAct}

/-- A scan that is not new has the row it had, and is terminal if it was. -/
theorem Tracks.terminal (ht : Tracks cfg s γ a s' γ') {scan : ScanRow} (hs : scan ∈ s'.db.scans) :
    (∃ scan₀ ∈ s.db.scans, scan₀.created = scan.created ∧
      (scan₀.status.isTerminal = true → scan.status.isTerminal = true)) ∨
      scan.id = s.db.nextId := by
  cases ht.scan_origin hs with
  | kept hs => exact Or.inl ⟨scan, hs, rfl, id⟩
  | created hid => exact Or.inr hid
  | flagged ha hseen h₀ h =>
    subst h
    exact Or.inl ⟨_, h₀, rfl, id⟩
  | requeued ha hstart h₀ hrunning h =>
    subst h
    refine Or.inl ⟨_, h₀, rfl, fun hterminal => ?_⟩
    rw [hrunning] at hterminal
    cases hterminal
  | claimed ha h₀ hqueued h =>
    subst h
    refine Or.inl ⟨_, h₀, rfl, fun hterminal => ?_⟩
    rw [hqueued] at hterminal
    cases hterminal
  | ended ha hstage h₀ hw h =>
    subst h
    exact Or.inl ⟨_, h₀, rfl, fun _ => Standing.updateScan_terminal hw⟩

/-- What an execution has selected to delete changes with a SELECT alone. -/
theorem Standing.next_expired (registry : ModuleRegistry) (g : Standing) (o : RunnerOp)
    (r : Except Exn o.Answer) :
    (g.next registry o r).expired = retention.next g.expired o r := by
  rw [next_after (·.expired) fun _ _ _ => rfl]
  cases o with
  | updateModuleRun scanId module u =>
    cases r with
    | error x => rfl
    | ok _ => exact wrote_apart (·.expired) (fun _ _ _ _ _ => rfl) g u
  | getScan scanId =>
    rcases r with x | (_ | scan) <;> rfl
  | _ => cases r <;> rfl

theorem Sys.selects_of_ne (h : ∀ i e, a ≠ .run i (.serve e)) : s.selects a = [] := by
  unfold Sys.selects
  split
  · rename_i i e
    exact absurd rfl (h i e)
  · rfl

theorem Sys.selects_serve {i : ℕ} {e : Answers} {o : RunnerOp}
    (h : (s.procs i).stage.head = some o) :
    s.selects (.run i (.serve e)) = o.cutoffs.map fun cutoff => (i, cutoff) := by
  show (match (s.procs i).stage.head with
    | some o => o.cutoffs.map fun cutoff => (i, cutoff)
    | none => []) = _
  rw [h]

/-- The selection of runner `j` is as it was before, with the cutoff, or it is
what its SELECT gives now. -/
def Selects (selected selected' : List (ℕ × ℚ)) (s s' : Sys) (γ γ' : ℕ → Standing) (j : ℕ) :
    Prop :=
  (∀ id ∈ (γ' j).expired, id ∈ (γ j).expired) ∧ lastCutoff j selected' = lastCutoff j selected ∨
    ∃ cutoff, lastCutoff j selected' = some cutoff ∧ (γ' j).expired = s.db.expiredScans cutoff ∧
      s'.db = s.db

/-- Runner `i` carries out a statement. -/
theorem selects_serve {selected : List (ℕ × ℚ)} {i : ℕ} {e : Answers} {o : RunnerOp}
    (hhead : (s.procs i).stage.head = some o) {r : Except Exn o.Answer} {w : World}
    (hw : World.serve { e with now := s.clock } ⟨s.db, (s.procs i).ticker⟩ o = (r, w)) {p : Proc}
    {g : Standing} (hg : g.expired = retention.next (γ i).expired o r) (j : ℕ) :
    Selects selected (selected ++ s.selects (.run i (.serve e))) s (s.put i w.db p) γ
      (Function.update γ i g) j := by
  rw [Sys.selects_serve hhead]
  by_cases hj : j = i
  · subst hj
    unfold Selects
    rw [Function.update_self, hg]
    cases o with
    | expiredScans cutoff =>
      cases hw
      exact Or.inr ⟨cutoff, lastCutoff_self j cutoff selected, rfl, rfl⟩
    | _ => exact Or.inl ⟨fun _ hid => hid, congrArg (lastCutoff j) (List.append_nil selected)⟩
  · unfold Selects
    rw [Function.update_of_ne hj]
    refine Or.inl ⟨fun _ hid => hid, ?_⟩
    cases o with
    | expiredScans cutoff => exact lastCutoff_of_ne (fun hij => hj hij.symm) cutoff selected
    | _ => exact congrArg (lastCutoff j) (List.append_nil selected)

theorem Tracks.selects (ht : Tracks cfg s γ a s' γ') (selected : List (ℕ × ℚ)) (j : ℕ) :
    Selects selected (selected ++ s.selects a) s s' γ γ' j := by
  have hother : ∀ {γ' : ℕ → Standing}, (∀ id ∈ (γ' j).expired, id ∈ (γ j).expired) →
      (∀ i e, a ≠ .run i (.serve e)) → Selects selected (selected ++ s.selects a) s s' γ γ' j := by
    intro γ' hexpired ha
    rw [Sys.selects_of_ne ha, List.append_nil]
    exact Or.inl ⟨hexpired, rfl⟩
  cases ht with
  | rests ha => exact hother (fun _ hid => hid) ha
  | api | recovers => exact hother (fun _ hid => hid) nofun
  | claims =>
    rename_i i candidate p hc hp
    refine hother (fun id hid => ?_) nofun
    by_cases hj : j = i
    · subst hj
      rw [Function.update_self] at hid
      cases hid
    · rwa [Function.update_of_ne hj] at hid
  | executes hstage ha hw hp =>
    exact selects_serve (congrArg Stage.head hstage) hw (Standing.next_expired _ _ _ _) j
  | sweeps hstage ha hw hp => exact selects_serve (congrArg Stage.head hstage) hw rfl j
  | beside hm => exact hother (fun _ hid => hid) fun i e ha => hm e (by cases ha; rfl)

/-- **One step.** A selected scan stays terminal and old. -/
theorem selected_step {selected : List (ℕ × ℚ)} (h : Selected cfg.registry selected s γ)
    (hs : s.step cfg a = some s') (ht : Tracks cfg s γ a s' γ') :
    Selected cfg.registry (selected ++ s.selects a) s' γ' where
  integral := h.integral.extends (extends_step hs)
  expired j id hid := by
    rcases ht.selects selected j with ⟨hexpired, hcutoff⟩ | ⟨cutoff, hcutoff, hexpired, hdb⟩
    · obtain ⟨hlt, cutoff, hmem, hold⟩ := h.expired j id (hexpired id hid)
      refine ⟨lt_of_lt_of_le hlt (extends_step hs).nextId, cutoff, hcutoff ▸ hmem, ?_⟩
      intro scan hscan hscanId
      rcases ht.terminal hscan with ⟨scan₀, hs₀, hcreated, hterminal⟩ | hnew
      · have hid₀ : scan₀.id = scan.id := congrArg (fun r => r.id) hcreated
        have hcreatedAt : scan₀.createdAt = scan.createdAt :=
          congrArg (fun r => r.createdAt) hcreated
        obtain ⟨hterm₀, hbefore⟩ := hold scan₀ hs₀ (hid₀.trans hscanId)
        exact ⟨hterminal hterm₀, hcreatedAt ▸ hbefore⟩
      · omega
    · rw [hexpired] at hid
      obtain ⟨scan₀, hs₀, rfl⟩ := List.mem_map.mp hid
      obtain ⟨hs₀, hp⟩ := List.mem_filter.mp hs₀
      obtain ⟨hbefore, hterminal⟩ := Bool.and_eq_true_iff.mp hp
      rw [hdb]
      refine ⟨h.integral.fresh scan₀ hs₀, cutoff, hcutoff, fun scan hscan hscanId => ?_⟩
      rw [h.integral.eq_of_id hscan hs₀ hscanId]
      exact ⟨hterminal, of_decide_eq_true hbefore⟩

/-! ### Runs -/

/-- Whatever happens, the rows that are there stay as they are and in their
order, but for those of the scans deleted on the way. -/
theorem ledger_grows : ∀ {ls : List SysAct} {s s' : Sys}, exec (Sys.step cfg) s ls = some s' →
    Grows (fun r => Survives (emitted (Sys.step cfg) Sys.deleted s ls) r.scanId)
      (fun _ => True) s.db.ledger s'.db.ledger
  | [], s, s', h => by
    rw [exec_nil, Option.some.injEq] at h
    subst h
    exact grows_refl fun r _ => survives_nil r.scanId
  | a :: ls, s, s'', h => by
    obtain ⟨s', hs, h⟩ := (exec_cons _).mp h
    have htrans := (extends_step hs).ledger.trans (ledger_grows h)
    simp only [← survives_append, ← emitted_cons ls hs] at htrans
    exact htrans

/-- A sweep's DELETE is of what it has selected. -/
theorem Tracks.deletes {i : ℕ} {e : Answers} (ht : Tracks cfg s γ (.run i (.serve e)) s' γ')
    (hne : s.deleted (.run i (.serve e)) ≠ []) :
    s'.db = s.db.deleteScans (s.deleted (.run i (.serve e))) ∧
      s.deleted (.run i (.serve e)) = (γ i).expired := by
  cases ht with
  | rests ha => exact absurd rfl (ha i e)
  | beside hm => exact absurd rfl (hm e)
  | executes hstage ha hw =>
    rename_i scanId o k p r w hp
    rw [Sys.deleted_serve (congrArg Stage.head hstage)] at hne ⊢
    cases o with
    | deleteScans ids =>
      cases hw
      exact ⟨rfl, ha⟩
    | _ => exact absurd rfl hne
  | sweeps hstage ha hw =>
    rename_i o k p r w hp
    rw [Sys.deleted_serve (congrArg Stage.head hstage)] at hne ⊢
    cases o with
    | deleteScans ids =>
      cases hw
      exact ⟨rfl, ha⟩
    | _ => exact absurd rfl hne

end

/-- The state `s` that the run `ls` reaches, and all that may follow. From there
on the ledger rows stay as they are and in their order, but for those whose scan
is deleted; and a sweep deletes, with all that they own, only scans that are
terminal and older than the cutoff of its SELECT. -/
structure AppendOnly (cfg : Config) (clock : ℚ) (ls : List SysAct) (s : Sys) : Prop where
  rows : ∀ ms s', exec (Sys.step cfg) s ms = some s' →
    ∃ new, s'.db.ledger = (s.db.ledger.filter fun r =>
      Survives (emitted (Sys.step cfg) Sys.deleted s ms) r.scanId) ++ new
  owned : ∀ row ∈ s.db.ledger, ∀ id ∈ row.scanId, s.db.hasScan id = true
  sweeps : ∀ i e s', s.step cfg (.run i (.serve e)) = some s' →
    ∀ ids, s.deleted (.run i (.serve e)) = ids → ids ≠ [] → s'.db = s.db.deleteScans ids ∧
      ∃ cutoff, lastCutoff i (emitted (Sys.step cfg) Sys.selects (.init .empty clock) ls) =
          some cutoff ∧
        ∀ scan ∈ s.db.scans, scan.id ∈ ids →
          scan.status.isTerminal = true ∧ scan.createdAt < cutoff

end ScanLedger
