/-
# The worker lock

`acquire_worker_lock` reads the lock row and then writes it, and the write says
nothing of what was read: its UPDATE and the DELETE of a release are keyed on
the row's id alone. Two runners that read the same stale row both acquire. While
every write still meets the row it was decided on, acquires return at least
`LOCK_STALE_AFTER_SECONDS` apart.

Key definitions: `Exclusive`, `Undisturbed`, `LockInv`.
Key theorems: `acquireWrite_owner`, `lockInv_step`, `lock_exclusive`.
-/
import ScanLedger.Workers
import ScanLedger.Lib.Run

namespace ScanLedger

open Run

/-! ### Exclusion, and its condition -/

/-- Of two runners whose acquires returned and that have not released, the later
acquire returned when the earlier one was stale. -/
def Exclusive (s : Sys) : Prop :=
  ∀ i j, i ≠ j → ∀ t ∈ (s.procs i).since, ∀ t' ∈ (s.procs j).since, t ≤ t' →
    t + lockStaleAfterSeconds ≤ t'

/-- Runner `i` writes over a row with the owner it has read, and another's row
only if it was renewed since that runner's acquire returned; with nothing to
write it finds the row there. -/
def WriteUndisturbed (cfg : Config) (s : Sys) (i : ℕ) : LockCall → Option WorkerLockRow → Prop
  | .acquiring _ (some seen), some row => row.ownerId = seen.ownerId ∧
      (seen.ownerId = i ∨ ∀ t ∈ (s.procs seen.ownerId).since, t ≤ seen.heartbeatAt)
  | .acquiring moment (some seen), none => cfg.lockRow i moment ≠ seen
  | .acquiring _ none, _ | .idle, _ | .releasing, _ => True

instance (cfg : Config) (s : Sys) (i : ℕ) :
    ∀ call stored, Decidable (WriteUndisturbed cfg s i call stored)
  | .acquiring _ (some seen), some row => inferInstanceAs (Decidable (row.ownerId = seen.ownerId ∧
      (seen.ownerId = i ∨ ∀ t ∈ (s.procs seen.ownerId).since, t ≤ seen.heartbeatAt)))
  | .acquiring moment (some seen), none =>
    inferInstanceAs (Decidable (cfg.lockRow i moment ≠ seen))
  | .acquiring _ none, _ | .idle, _ | .releasing, _ => inferInstanceAs (Decidable True)

/-- The write of an acquire meets what it has read, and the DELETE of a release
the runner's own row. -/
def Undisturbed (cfg : Config) (s : Sys) : SysAct → Prop
  | .run i .write => WriteUndisturbed cfg s i (s.procs i).lock s.db.lock
  | .run i .delete => ∀ row ∈ s.db.lock, row.ownerId = i
  | _ => True

instance (cfg : Config) (s : Sys) : ∀ a, Decidable (Undisturbed cfg s a)
  | .run i .write =>
    inferInstanceAs (Decidable (WriteUndisturbed cfg s i (s.procs i).lock s.db.lock))
  | .run i .delete => inferInstanceAs (Decidable (∀ row ∈ s.db.lock, row.ownerId = i))
  | .tick _ | .api _ | .run _ (.acquire _) | .run _ .release | .run _ (.beat _) | .run _ .recover
  | .run _ .look | .run _ .claim | .run _ (.serve _) | .run _ (.tick _ _) | .run _ .tock
  | .run _ (.record _) | .run _ .crash => inferInstanceAs (Decidable True)

/-! ### The invariant -/

/-- Who the lock row names. -/
def Db.owner (db : Db) : Option ℕ := db.lock.map (·.ownerId)

/-- A runner the row does not name has acquired so long ago that anyone may
acquire now; a read that was not refused saw a row old enough, or its own. -/
structure LockInv (s : Sys) : Prop where
  exclusive : Exclusive s
  past : ∀ i, ∀ t ∈ (s.procs i).since, t ≤ s.clock
  others : ∀ i, s.db.owner ≠ some i → ∀ t ∈ (s.procs i).since, t + lockStaleAfterSeconds ≤ s.clock
  reads : ∀ i moment seen, (s.procs i).lock = .acquiring moment seen →
    moment ≤ s.clock ∧ seen.any (·.refuses i moment) = false

theorem lockInv_init (db : Db) (clock : ℚ) : LockInv (.init db clock) where
  exclusive _ _ _ _ ht := by cases ht
  past _ _ ht := by cases ht
  others _ _ _ ht := by cases ht
  reads _ _ _ h := by cases h

/-- The runner holds the lock as before or has released it, and has not begun
to acquire it. -/
structure Proc.Rests (p p' : Proc) : Prop where
  since : p'.since = p.since ∨ p'.since = none
  lock : p'.lock = p.lock ∨ ∀ moment seen, p'.lock ≠ .acquiring moment seen

theorem Proc.Rests.of_eq {p p' : Proc} (hs : p'.since = p.since) (hl : p'.lock = p.lock) :
    p.Rests p' :=
  ⟨Or.inl hs, Or.inl hl⟩

theorem Proc.Rests.mem {p p' : Proc} (h : p.Rests p') {t : ℚ} (ht : t ∈ p'.since) :
    t ∈ p.since := by
  rcases h.since with hs | hs
  · rwa [hs] at ht
  · rw [hs] at ht
    cases ht

variable {s s' : Sys} {i : ℕ}

/-- While no acquire returns, the row keeps its owner, or loses it at the
owner's release. -/
theorem LockInv.rest (h : LockInv s) (hclock : s.clock ≤ s'.clock)
    (hprocs : ∀ j, (s.procs j).Rests (s'.procs j))
    (howner : ∀ j, s'.db.owner ≠ some j → s.db.owner ≠ some j ∨ (s'.procs j).since = none) :
    LockInv s' where
  exclusive a b hne t ht t' ht' hle :=
    h.exclusive a b hne t ((hprocs a).mem ht) t' ((hprocs b).mem ht') hle
  past j t ht := (h.past j t ((hprocs j).mem ht)).trans hclock
  others j hj t ht := by
    rcases howner j hj with hj | hnone
    · exact (h.others j hj t ((hprocs j).mem ht)).trans hclock
    · rw [hnone] at ht
      cases ht
  reads j moment seen hj := by
    rcases (hprocs j).lock with hl | hl
    · rw [hl] at hj
      obtain ⟨hm, hr⟩ := h.reads j moment seen hj
      exact ⟨hm.trans hclock, hr⟩
    · exact absurd hj (hl moment seen)

/-! ### An acquire returns -/

/-- Undisturbed, the write of an acquire leaves a row of the runner's own. -/
theorem acquireWrite_owner {cfg : Config} {moment : ℚ} {seen stored lock : Option WorkerLockRow}
    (hw : acquireWrite (cfg.lockRow i moment) seen stored = some lock)
    (hu : WriteUndisturbed cfg s i (.acquiring moment seen) stored) :
    lock.map (·.ownerId) = some i := by
  cases seen with
  | none =>
    cases stored with
    | none => cases hw; rfl
    | some row => cases hw
  | some seen =>
    simp only [acquireWrite] at hw
    split_ifs at hw with hsame
    · cases hw
      cases stored with
      | none => exact absurd hsame hu
      | some row =>
        have howner : row.ownerId = seen.ownerId := hu.1
        rw [Option.map_some, howner, ← hsame]
        rfl
    · cases stored with
      | none => cases hw
      | some row =>
        cases hw
        have howner : row.ownerId = seen.ownerId := hu.1
        show some (written seen.ownerId i row.ownerId) = some i
        unfold written
        split_ifs with hi
        · rw [howner, hi]
        · rfl

/-- Undisturbed, whoever else has acquired did so long enough ago. -/
theorem LockInv.stale {cfg : Config} {moment : ℚ} {seen lock : Option WorkerLockRow}
    (h : LockInv s) (hl : (s.procs i).lock = .acquiring moment seen)
    (hw : acquireWrite (cfg.lockRow i moment) seen s.db.lock = some lock)
    (hu : WriteUndisturbed cfg s i (.acquiring moment seen) s.db.lock) {j : ℕ} (hj : j ≠ i) {t : ℚ}
    (ht : t ∈ (s.procs j).since) : t + lockStaleAfterSeconds ≤ s.clock := by
  by_cases howner : s.db.owner = some j
  · obtain ⟨hmoment, hfresh⟩ := h.reads i moment seen hl
    obtain ⟨row, hrow, rfl⟩ := Option.map_eq_some_iff.mp howner
    rw [hrow] at hw hu
    cases seen with
    | none => cases hw
    | some seen =>
      obtain ⟨hsame, hrenewed⟩ := hu
      rw [hsame] at hj ht
      -- the row it has read is the other's, so it was read as stale
      have hseen : seen.heartbeatAt ≤ moment - lockStaleAfterSeconds := by
        simpa [WorkerLockRow.refuses, hj] using hfresh
      have hsince : t ≤ seen.heartbeatAt := (hrenewed.resolve_left hj) t ht
      linarith
  · exact h.others j howner t ht

/-- Runner `i` acquires, with the others as they were. -/
theorem LockInv.acquire (h : LockInv s) (hclock : s'.clock = s.clock)
    (howner : s'.db.owner = some i) (hsince : (s'.procs i).since = some s.clock)
    (hidle : (s'.procs i).lock = .idle) (hothers : ∀ j ≠ i, s'.procs j = s.procs j)
    (hstale : ∀ j ≠ i, ∀ t ∈ (s.procs j).since, t + lockStaleAfterSeconds ≤ s.clock) :
    LockInv s' where
  exclusive a b hne t ht t' ht' hle := by
    have hpos : (0 : ℚ) < lockStaleAfterSeconds := by norm_num [lockStaleAfterSeconds]
    by_cases ha : a = i
    · -- whoever else has acquired did so before
      subst ha
      have hb : b ≠ a := fun hb => hne hb.symm
      rw [hsince] at ht
      rw [hothers b hb] at ht'
      cases ht
      have := hstale b hb t' ht'
      linarith
    · rw [hothers a ha] at ht
      by_cases hb : b = i
      · subst hb
        rw [hsince] at ht'
        cases ht'
        exact hstale a ha t ht
      · rw [hothers b hb] at ht'
        exact h.exclusive a b hne t ht t' ht' hle
  past j t ht := by
    rw [hclock]
    by_cases hj : j = i
    · subst hj
      rw [hsince] at ht
      cases ht
      exact le_refl _
    · rw [hothers j hj] at ht
      exact h.past j t ht
  others j hj t ht := by
    have hji : j ≠ i := fun hji => hj (by rw [howner, hji])
    rw [hothers j hji] at ht
    rw [hclock]
    exact hstale j hji t ht
  reads j moment seen hj := by
    rw [hclock]
    by_cases hji : j = i
    · subst hji
      rw [hidle] at hj
      cases hj
    · rw [hothers j hji] at hj
      exact h.reads j moment seen hj

/-! ### Steps and runs -/

/-- The first step of an acquire that is not refused. -/
theorem LockInv.read (h : LockInv s) {moment : ℚ} (hm : moment ≤ s.clock)
    (hr : s.db.lock.any (·.refuses i moment) = false) :
    LockInv (s.put i s.db { s.procs i with lock := .acquiring moment s.db.lock }) := by
  have hsince : ∀ j, ∀ t ∈ ((s.put i s.db { s.procs i with
      lock := .acquiring moment s.db.lock }).procs j).since, t ∈ (s.procs j).since :=
    Sys.forall_put (P := fun j p => ∀ t ∈ p.since, t ∈ (s.procs j).since) (fun _ _ _ ht => ht)
      fun _ ht => ht
  refine ⟨?_, ?_, ?_, ?_⟩
  · exact fun a b hne t ht t' ht' => h.exclusive a b hne t (hsince a t ht) t' (hsince b t' ht')
  · exact fun j t ht => h.past j t (hsince j t ht)
  · exact fun j hj t ht => h.others j hj t (hsince j t ht)
  · refine Sys.forall_put (P := fun j p => ∀ moment seen, p.lock = .acquiring moment seen →
      moment ≤ s.clock ∧ seen.any (·.refuses j moment) = false) (fun j _ => h.reads j) ?_
    rintro _ _ ⟨⟩
    exact ⟨hm, hr⟩

/-- A release deletes the runner's own row. -/
theorem LockInv.delete (h : LockInv s) (hu : ∀ row ∈ s.db.lock, row.ownerId = i) :
    LockInv (s.put i { s.db with lock := none }
      { s.procs i with lock := .idle, since := none }) := by
  have hall : ∀ j, (s.procs j).Rests ((s.put i { s.db with lock := none }
      { s.procs i with lock := .idle, since := none }).procs j) :=
    Sys.forall_put (fun _ _ => .of_eq rfl rfl) ⟨Or.inr rfl, Or.inr fun _ _ h => by cases h⟩
  refine h.rest le_rfl hall fun j _ => ?_
  by_cases hj : j = i
  · subst hj
    rw [Sys.put_self]
    exact Or.inr rfl
  · left
    intro howner
    obtain ⟨row, hrow, hid⟩ := Option.map_eq_some_iff.mp howner
    exact hj (hid ▸ hu row hrow)

/-- A step of runner `i` that does not acquire. -/
theorem LockInv.restAt (h : LockInv s) {db : Db} {p : Proc} (hrests : (s.procs i).Rests p)
    (howner : db.owner = s.db.owner) : LockInv (s.put i db p) := by
  have hall : ∀ j, (s.procs j).Rests ((s.put i db p).procs j) :=
    Sys.forall_put (fun _ _ => .of_eq rfl rfl) hrests
  exact h.rest le_rfl hall fun j hj => Or.inl (howner ▸ hj)

theorem owner_beat (db : Db) (i : ℕ) (moment : ℚ) :
    Db.owner { db with lock := db.lock.map fun row =>
      if row.ownerId = i then { row with heartbeatAt := moment } else row } = db.owner := by
  unfold Db.owner
  rw [Option.map_map]
  congr 1
  funext row
  show (if row.ownerId = i then _ else _ : WorkerLockRow).ownerId = row.ownerId
  split_ifs <;> rfl

theorem lockInv_step {cfg : Config} {a : SysAct} (h : LockInv s) (hu : Undisturbed cfg s a)
    (hs : s.step cfg a = some s') : LockInv s' := by
  cases Sys.step_steps hs with
  | tick hd =>
    have hclock : s.clock ≤ s.clock + _ := le_add_of_nonneg_right hd
    exact h.rest hclock (fun _ => .of_eq rfl rfl) fun _ hj => Or.inl hj
  | api hserves =>
    refine h.rest le_rfl (fun _ => .of_eq rfl rfl) fun j hj => Or.inl ?_
    rwa [Db.owner, hserves.lock] at hj
  | run hmoves =>
    rename_i i m db p
    cases hmoves with
    | refused moment => exact h.restAt (.of_eq rfl rfl) rfl
    | reads hl hm hr => exact h.read hm hr
    | fails hl => exact h.restAt ⟨Or.inl rfl, Or.inr fun _ _ h => by cases h⟩ rfl
    | acquires hl hw =>
      have hu := hu
      rw [Undisturbed, hl] at hu
      exact h.acquire rfl (acquireWrite_owner hw hu) (by rw [Sys.put_self]) (by rw [Sys.put_self])
        (fun j hj => Sys.put_of_ne s hj _ _) fun j hj t ht => h.stale hl hw hu hj ht
    | stops hl ho => exact h.restAt ⟨Or.inl rfl, Or.inr fun _ _ h => by cases h⟩ rfl
    | stopped hl ho => exact h.restAt ⟨Or.inr rfl, Or.inl rfl⟩ rfl
    | deletes hl => exact h.delete hu
    | beats hm => exact h.restAt (.of_eq rfl rfl) (owner_beat s.db i _)
    | sweeps hs hw | executes hs hw =>
      exact h.restAt (.of_eq rfl rfl) (by rw [Db.owner, World.lock_of_serve hw, Db.owner])
    | tocks ht hi =>
      obtain ⟨-, rfl⟩ := Db.insertEvent_eq_some.mp hi
      exact h.restAt (.of_eq rfl rfl) rfl
    | crashes => exact h.restAt ⟨Or.inl rfl, Or.inr fun _ _ h => by cases h⟩ rfl
    | records hs =>
      exact h.restAt (.of_eq rfl rfl) (by rw [Db.owner, Db.insertLedger_lock, Db.owner])
    | recovers | sleeps | looks | loses | claims | ticks | tockFails =>
      exact h.restAt (.of_eq rfl rfl) rfl

/-- **The worker lock.** In every run whose lock writes are undisturbed, of two
runners that hold the lock the later one acquired it when the earlier was stale. -/
theorem lock_exclusive (cfg : Config) (db : Db) (clock : ℚ) (ls : List SysAct) (s : Sys)
    (hm : Meets (Sys.step cfg) (Undisturbed cfg) (.init db clock) ls)
    (hr : exec (Sys.step cfg) (.init db clock) ls = some s) : Exclusive s :=
  have hinv := exec_inv_of_meets (fun _ _ _ => lockInv_step) (lockInv_init db clock) hm hr
  hinv.exclusive

/-! ### A crashed worker's row -/

def labConfig : Config := ⟨builtinModules, 90, fun i => 4000 + i, fun _ => "lab"⟩

/-- A worker renewed its lock at ten seconds, and crashed. -/
def crashedDb : Db := ⟨[], [], [], [], [], [], some ⟨9, 4009, "lab", 0, 10⟩, 0⟩

/-- Runner 0 takes the row over, and half a minute later runner 1 takes it from
runner 0, which has not renewed it. -/
def takenOver : List SysAct :=
  [.run 0 (.acquire 100), .run 0 .write, .tick 31, .run 1 (.acquire 131), .run 1 .write]

/-- Both runners read the row before either writes it. -/
def readTogether : List SysAct :=
  [.run 0 (.acquire 100), .run 1 (.acquire 100), .run 0 .write, .run 1 .write]

theorem lock_exclusive_takenOver :
    Exclusive ((exec (Sys.step labConfig) (.init crashedDb 100) takenOver).get
      (by decide +kernel)) :=
  lock_exclusive labConfig crashedDb 100 takenOver _ (by decide +kernel) (Option.some_get _).symm

/-- Not every run keeps two runners from acquiring the lock at one time. -/
theorem not_lock_exclusive : ¬ ∀ (cfg : Config) (db : Db) (clock : ℚ) (ls : List SysAct) (s : Sys),
    exec (Sys.step cfg) (.init db clock) ls = some s → Exclusive s := by
  intro h
  have hrun := h labConfig crashedDb 100 readTogether _
    (Option.some_get (x := exec (Sys.step labConfig) (.init crashedDb 100) readTogether)
      (by decide +kernel)).symm
  have hlate := hrun 0 1 (by decide) 100 (by decide +kernel) 100 (by decide +kernel) le_rfl
  exact absurd hlate (by decide +kernel)

end ScanLedger
