/-
# Claims

`claim_next_scan` reads the oldest queued scan in one statement and takes it in
another, whose condition and row count decide between runners that read the
same one. For any runners and requests, in any order of their statements: a
queued scan becomes running by the UPDATE of the one call that returns its id,
for the runner of that call; between two calls that return the same id a
recovery queued it again; and what a call returns was the oldest queued scan
when it looked.

Key definitions: `Sys.claimReturns`, `ExclusiveClaims`.
Key theorems: `claimReturns_of_takes`, `taken_of_claimReturns`, `requeued_between`,
`looked_of_claiming`, `exclusive_claims`.
-/
import ScanLedger.Integrity

namespace ScanLedger

open Run

/-! ### The property -/

/-- The runner and the id, if the step is the UPDATE of a `claim_next_scan` that
returns an id. -/
def Sys.claimReturns (s : Sys) : SysAct → Option (ℕ × ℕ)
  | .run i .claim => match (s.procs i).stage with
    | .claiming candidate =>
      if (s.db.claim candidate i s.clock).2 then some (i, candidate) else none
    | _ => none
  | _ => none

/-- There is a row of the scan with this status. -/
def Db.Shows (db : Db) (scanId : ℕ) (status : ScanStatus) : Prop :=
  ∃ scan ∈ db.scans, scan.id = scanId ∧ scan.status = status

/-- The scan is the oldest queued one. -/
def Db.OldestQueued (db : Db) (scanId : ℕ) : Prop :=
  ∃ scan ∈ db.scans, scan.id = scanId ∧ scan.status = .queued ∧
    ∀ other ∈ db.scans, other.status = .queued → scan.createdAt ≤ other.createdAt

/-- Claims in the runs from this database. -/
structure ExclusiveClaims (cfg : Config) (db : Db) (clock : ℚ) : Prop where
  /-- A queued scan is taken by a call that returns it. -/
  one : ∀ ls s a s' scanId, exec (Sys.step cfg) (.init db clock) ls = some s →
    s.step cfg a = some s' → s.db.Shows scanId .queued → s'.db.Shows scanId .running →
    ∃ i, s.claimReturns a = some (i, scanId)
  /-- A call that returns a scan has taken it, for its runner. -/
  taken : ∀ ls s a s' i scanId, exec (Sys.step cfg) (.init db clock) ls = some s →
    s.step cfg a = some s' → s.claimReturns a = some (i, scanId) →
    s.db.Shows scanId .queued ∧ s'.db.Shows scanId .running ∧
      ∀ scan ∈ s'.db.scans, scan.id = scanId → scan.claimedBy = some i
  /-- Between two calls that return it, a recovery queued it again. -/
  again : ∀ ls s a s' ms t b i j scanId, exec (Sys.step cfg) (.init db clock) ls = some s →
    s.step cfg a = some s' → exec (Sys.step cfg) s' ms = some t →
    s.claimReturns a = some (i, scanId) → t.claimReturns b = some (j, scanId) →
    ∃ ms₁ k ms₂ u u', ms = ms₁ ++ .run k .recover :: ms₂ ∧
      exec (Sys.step cfg) s' ms₁ = some u ∧ u.step cfg (.run k .recover) = some u' ∧
      u.db.Shows scanId .running ∧ u'.db.Shows scanId .queued
  /-- The SELECT of the call, the last of its runner, found it the oldest. -/
  oldest : ∀ ls s a i scanId, exec (Sys.step cfg) (.init db clock) ls = some s →
    s.claimReturns a = some (i, scanId) →
    ∃ ls₁ ls₂ u, ls = ls₁ ++ .run i .look :: ls₂ ∧
      exec (Sys.step cfg) (.init db clock) ls₁ = some u ∧ u.db.OldestQueued scanId ∧
      ∀ m, .run i m ∈ ls₂ → m ≠ .look ∧ m ≠ .claim

/-! ### One step -/

section

variable {cfg : Config} {s s' : Sys} {γ γ' : ℕ → Standing} {a : SysAct} {i scanId : ℕ}

theorem Sys.claimReturns_eq_some : s.claimReturns a = some (i, scanId) ↔
    a = .run i .claim ∧ (s.procs i).stage = .claiming scanId ∧
      (s.db.claim scanId i s.clock).2 = true := by
  constructor
  · intro h
    unfold Sys.claimReturns at h
    split at h
    · split at h
      · rename_i hstage
        split_ifs at h with hc
        cases h
        exact ⟨rfl, hstage, hc⟩
      · cases h
    · cases h
  · rintro ⟨rfl, hstage, hc⟩
    simp only [Sys.claimReturns, hstage, hc, if_true]

theorem Db.shows_of_claim {db : Db} {candidate ownerId : ℕ} {now : ℚ}
    (h : (db.claim candidate ownerId now).2 = true) : db.Shows candidate .queued := by
  obtain ⟨scan, hs, hp⟩ := List.any_eq_true.mp h
  obtain ⟨hid, hq⟩ := Bool.and_eq_true_iff.mp hp
  exact ⟨scan, hs, eq_of_beq hid, eq_of_beq hq⟩

/-- What the UPDATE of a claim that meets its row leaves. -/
theorem Db.claimed_of_claim {db : Db} (hkeys : db.ScanKeys) {candidate ownerId : ℕ} {now : ℚ}
    (h : (db.claim candidate ownerId now).2 = true) :
    (db.claim candidate ownerId now).1.Shows candidate .running ∧
      ∀ scan ∈ (db.claim candidate ownerId now).1.scans, scan.id = candidate →
        scan.claimedBy = some ownerId := by
  obtain ⟨queued, hq, hqid, hqueued⟩ := Db.shows_of_claim h
  constructor
  · refine ⟨_, Table.mem_updateWhere.mpr ⟨queued, hq, Or.inl ⟨?_, rfl⟩⟩, hqid, rfl⟩
    rw [hqid, hqueued, beq_self_eq_true, beq_self_eq_true, Bool.and_self]
  · intro scan hs hid
    rcases Db.mem_scans_claim hs with ⟨hs, hnot⟩ | ⟨scan₀, -, -, -, rfl⟩
    · have hsame := hkeys.eq_of_id hs hq (hid.trans hqid.symm)
      exact absurd (hsame ▸ hqueued) (hnot hid)
    · rfl

/-- What the UPDATE of a claim comes to. -/
theorem Sys.step_claim (h : s.step cfg (.run i .claim) = some s') :
    s.claimReturns (.run i .claim) = none ∧ s'.db = s.db ∨
      ∃ candidate, s.claimReturns (.run i .claim) = some (i, candidate) ∧
        s'.db = (s.db.claim candidate i s.clock).1 := by
  obtain ⟨⟨db, p⟩, hstep, rfl⟩ := Option.map_eq_some_iff.mp h
  simp only [procStep] at hstep
  split at hstep
  · rename_i candidate hstage
    split_ifs at hstep with hc
    · cases hstep
      exact Or.inr ⟨candidate, Sys.claimReturns_eq_some.mpr ⟨rfl, hstage, hc⟩, rfl⟩
    · cases hstep
      refine Or.inl ⟨?_, rfl⟩
      simp only [Sys.claimReturns, hstage, hc]
      rfl
  · cases hstep

/-- **A queued scan that is running after a step** was taken by a claim. -/
theorem claimReturns_of_takes (hkeys : s.db.ScanKeys) (hs : s.step cfg a = some s')
    (ht : Tracks cfg s γ a s' γ') (hq : s.db.Shows scanId .queued)
    (hr : s'.db.Shows scanId .running) : ∃ i, s.claimReturns a = some (i, scanId) := by
  obtain ⟨queued, hqmem, hqid, hqueued⟩ := hq
  obtain ⟨scan, hmem, hid, hrunning⟩ := hr
  -- no row of before that goes by this id is running
  have hne : ∀ scan₀ ∈ s.db.scans, scan₀.id = scanId → scan₀.status ≠ .running := by
    intro scan₀ h₀ hid₀ hstatus
    have hsame := hkeys.eq_of_id h₀ hqmem (hid₀.trans hqid.symm)
    rw [hsame, hqueued] at hstatus
    cases hstatus
  cases ht.scan_origin hmem with
  | kept h => exact absurd hrunning (hne scan h hid)
  | created _ hstatus =>
    rw [hstatus] at hrunning
    cases hrunning
  | flagged ha hseen h₀ h =>
    rename_i scan₀
    subst h
    exact absurd hrunning (hne scan₀ h₀ hid)
  | requeued _ _ _ _ h =>
    subst h
    cases hrunning
  | ended _ _ _ hw h =>
    subst h
    have hterminal := Standing.updateScan_terminal hw
    cases hrunning
    cases hterminal
  | claimed ha =>
    subst ha
    rcases Sys.step_claim hs with ⟨-, hdb⟩ | ⟨candidate, hreturns, hdb⟩
    · rw [hdb] at hmem
      exact absurd hrunning (hne scan hmem hid)
    · rw [hdb] at hmem
      rcases Db.mem_scans_claim hmem with ⟨h₀, -⟩ | ⟨scan₀, -, hcandidate, -, rfl⟩
      · exact absurd hrunning (hne scan h₀ hid)
      · have hscan : candidate = scanId := hcandidate.symm.trans hid
        exact ⟨_, hscan ▸ hreturns⟩

/-- **A claim that returns** has taken its scan. -/
theorem taken_of_claimReturns (hkeys : s.db.ScanKeys) (hs : s.step cfg a = some s')
    (h : s.claimReturns a = some (i, scanId)) : s.db.Shows scanId .queued ∧
      s'.db.Shows scanId .running ∧
      ∀ scan ∈ s'.db.scans, scan.id = scanId → scan.claimedBy = some i := by
  obtain ⟨rfl, hstage, hc⟩ := Sys.claimReturns_eq_some.mp h
  have hdb : s'.db = (s.db.claim scanId i s.clock).1 := by
    rcases Sys.step_claim hs with ⟨hnone, -⟩ | ⟨candidate, hreturns, hdb⟩
    · rw [hnone] at h
      cases h
    · rw [hreturns] at h
      cases h
      exact hdb
  rw [hdb]
  exact ⟨Db.shows_of_claim hc, Db.claimed_of_claim hkeys hc⟩

/-- A scan that is there and not queued stays so, but for a recovery that finds
it running. -/
theorem requeued_of_queued (hlt : scanId < s.db.nextId) (hnot : ¬ s.db.Shows scanId .queued)
    (ht : Tracks cfg s γ a s' γ') (hq : s'.db.Shows scanId .queued) :
    ∃ k, a = .run k .recover ∧ s.db.Shows scanId .running := by
  obtain ⟨scan, hmem, hid, hqueued⟩ := hq
  cases ht.scan_origin hmem with
  | kept h => exact absurd ⟨scan, h, hid, hqueued⟩ hnot
  | created hnew => omega
  | flagged ha hseen h₀ h =>
    rename_i scan₀
    subst h
    exact absurd ⟨scan₀, h₀, hid, hqueued⟩ hnot
  | requeued ha _ h₀ hrunning h =>
    subst h
    exact ⟨_, ha, _, h₀, hid, hrunning⟩
  | claimed _ _ _ h =>
    subst h
    cases hqueued
  | ended _ _ _ hw h =>
    subst h
    have hterminal := Standing.updateScan_terminal hw
    cases hqueued
    cases hterminal

theorem afterSweep_ne_claiming (rest : Runner Unit) (id : ℕ) : afterSweep rest ≠ .claiming id := by
  cases rest <;> exact nofun

theorem afterStatement_ne_claiming (scanId : ℕ) (point : Point) (rest : Runner ScanStatus)
    (id : ℕ) : afterStatement scanId point rest ≠ .claiming id := by
  cases rest <;> exact nofun

theorem Stage.claiming_of_acquired {stage : Stage} {id : ℕ}
    (h : stage.acquired = .claiming id) : stage = .claiming id := by
  cases stage with
  | down => cases h
  | _ => exact h

/-- A runner that is to claim has just looked, or was to claim it before. -/
theorem looks_of_claiming (hs : s.step cfg a = some s')
    (hstage : (s'.procs i).stage = .claiming scanId) :
    (s.procs i).stage = .claiming scanId ∧ a ≠ .run i .look ∧ a ≠ .run i .claim ∨
      a = .run i .look ∧ ∃ scan, s.db.nextQueued = some scan ∧ scan.id = scanId := by
  cases Sys.step_steps hs with
  | tick | api => exact Or.inl ⟨hstage, nofun, nofun⟩
  | run hmoves =>
    rename_i j m db p
    by_cases hj : i = j
    · subst hj
      rw [Sys.put_self] at hstage
      cases hmoves with
      | refused | reads | fails | deletes | beats | ticks | tocks | tockFails | records =>
        exact Or.inl ⟨hstage, nofun, nofun⟩
      | sleeps hloop =>
        rw [hloop] at hstage
        cases hstage
      | acquires => exact Or.inl ⟨Stage.claiming_of_acquired hstage, nofun, nofun⟩
      | stops | stopped | loses | crashes => cases hstage
      | recovers | sweeps => simp only [afterSweep_ne_claiming] at hstage
      | claims | executes => simp only [afterStatement_ne_claiming] at hstage
      | looks hs hq =>
        cases hstage
        exact Or.inr ⟨rfl, _, hq, rfl⟩
    · rw [Sys.put_of_ne s hj] at hstage
      refine Or.inl ⟨hstage, fun h => ?_, fun h => ?_⟩
      · cases h
        exact hj rfl
      · cases h
        exact hj rfl

theorem Db.oldestQueued_of_nextQueued {db : Db} {scan : ScanRow} (h : db.nextQueued = some scan) :
    db.OldestQueued scan.id := by
  have hmin : scan ∈ (db.scans.filter (·.status == .queued)).argmin (·.createdAt) :=
    Option.mem_def.mpr h
  obtain ⟨hmem, hqueued⟩ := List.mem_filter.mp (List.argmin_mem hmin)
  refine ⟨scan, hmem, rfl, eq_of_beq hqueued, fun other ho hq => ?_⟩
  have hother : other ∈ db.scans.filter (·.status == .queued) :=
    List.mem_filter.mpr ⟨ho, by rw [hq, beq_self_eq_true]⟩
  exact List.le_of_mem_argmin hother hmin

end

/-! ### Runs -/

section

variable {cfg : Config} {db : Db} {clock : ℚ}

/-- The scans keep their keys. -/
theorem exec_scanKeys {s : Sys} (h : db.ScanKeys) {ls : List SysAct}
    (hr : exec (Sys.step cfg) (.init db clock) ls = some s) : s.db.ScanKeys :=
  exec_inv (I := fun s : Sys => s.db.ScanKeys)
    (fun _ _ _ hi hs => hi.extends (extends_step hs)) h hr

/-- The runners are tracked. -/
theorem exec_init_tracked {s : Sys} {ls : List SysAct}
    (hr : exec (Sys.step cfg) (.init db clock) ls = some s) : ∃ γ, Tracked cfg s γ := by
  have hm : Meets (Sys.step cfg) (fun _ _ => True) (.init db clock) ls :=
    meets_of_forall (fun _ _ => trivial) ls _
  obtain ⟨γ, htracked, -⟩ := exec_tracked (I := fun _ _ => True)
    (fun _ _ _ _ _ _ _ _ _ _ => trivial) trivial hm hr
  exact ⟨γ, htracked⟩

/-- **Re-queues.** A scan that is there and not queued is queued again by a
recovery that finds it running. -/
theorem requeued_between {s t : Sys} {γ : ℕ → Standing} {ms : List SysAct} {scanId : ℕ}
    (ht : Tracked cfg s γ) (hlt : scanId < s.db.nextId) (hnot : ¬ s.db.Shows scanId .queued)
    (hr : exec (Sys.step cfg) s ms = some t) (hq : t.db.Shows scanId .queued) :
    ∃ ms₁ k ms₂ u u', ms = ms₁ ++ .run k .recover :: ms₂ ∧
      exec (Sys.step cfg) s ms₁ = some u ∧ u.step cfg (.run k .recover) = some u' ∧
      u.db.Shows scanId .running ∧ u'.db.Shows scanId .queued := by
  let I := fun s : Sys => (∃ γ, Tracked cfg s γ) ∧ scanId < s.db.nextId ∧
    ¬ s.db.Shows scanId .queued
  have hI : I s := ⟨⟨γ, ht⟩, hlt, hnot⟩
  obtain ⟨ms₁, a, ms₂, u, u', rfl, hu, ⟨⟨γ₁, ht₁⟩, hlt₁, hnot₁⟩, hstep, hout⟩ :=
    exec_leaves hI hr fun h => h.2.2 hq
  obtain ⟨γ₂, ht₂, htracks⟩ := tracked_step ht₁ hstep
  -- all of it holds on but the last part
  have hqueued : u'.db.Shows scanId .queued := by
    by_contra hnone
    exact hout ⟨⟨γ₂, ht₂⟩, lt_of_lt_of_le hlt₁ (extends_step hstep).nextId, hnone⟩
  obtain ⟨k, rfl, hrunning⟩ := requeued_of_queued hlt₁ hnot₁ htracks hqueued
  exact ⟨ms₁, k, ms₂, u, u', rfl, hu, hstep, hrunning, hqueued⟩

/-- **Candidates.** A runner that is to claim a scan found it the oldest when it
looked last. -/
theorem looked_of_claiming {i scanId : ℕ} (ls : List SysAct) : ∀ {s : Sys},
    exec (Sys.step cfg) (.init db clock) ls = some s → (s.procs i).stage = .claiming scanId →
    ∃ ls₁ ls₂ u, ls = ls₁ ++ .run i .look :: ls₂ ∧
      exec (Sys.step cfg) (.init db clock) ls₁ = some u ∧ u.db.OldestQueued scanId ∧
      ∀ m, .run i m ∈ ls₂ → m ≠ .look ∧ m ≠ .claim := by
  induction ls using List.reverseRecOn with
  | nil =>
    intro s hr hstage
    rw [exec_nil, Option.some.injEq] at hr
    rw [← hr] at hstage
    cases hstage
  | append_singleton ls a ih =>
    intro s' hr hstage
    obtain ⟨s, hr₀, hs⟩ := exec_snoc.mp hr
    rcases looks_of_claiming hs hstage with ⟨hstage, hlook, hclaim⟩ | ⟨rfl, scan, hnext, rfl⟩
    · obtain ⟨ls₁, ls₂, u, rfl, hu, hold, hquiet⟩ := ih hr₀ hstage
      refine ⟨ls₁, ls₂ ++ [a], u, by simp only [List.append_assoc, List.cons_append], hu, hold, ?_⟩
      intro m hm
      rcases List.mem_append.mp hm with hm | hm
      · exact hquiet m hm
      · have ha := List.mem_singleton.mp hm
        refine ⟨?_, ?_⟩
        · rintro rfl
          exact hlook ha.symm
        · rintro rfl
          exact hclaim ha.symm
    · exact ⟨ls, [], s, rfl, hr₀, Db.oldestQueued_of_nextQueued hnext,
        fun _ hm => absurd hm List.not_mem_nil⟩

end

/-- **Claims are exclusive and ordered**, from every database whose scans are
told apart by their ids, whatever the runners and the requests do. -/
theorem exclusive_claims (cfg : Config) (db : Db) (h : db.ScanKeys) (clock : ℚ) :
    ExclusiveClaims cfg db clock where
  one ls s a s' scanId hr hs hq hrunning := by
    obtain ⟨γ, ht⟩ := exec_init_tracked hr
    obtain ⟨γ', -, htracks⟩ := tracked_step ht hs
    exact claimReturns_of_takes (exec_scanKeys h hr) hs htracks hq hrunning
  taken ls s a s' i scanId hr hs hreturns := taken_of_claimReturns (exec_scanKeys h hr) hs hreturns
  again ls s a s' ms t b i j scanId hr hs hms ha hb := by
    have hkeys := exec_scanKeys h hr
    obtain ⟨-, ⟨scan, hmem, hid, hrunning⟩, -⟩ := taken_of_claimReturns hkeys hs ha
    have hr' : exec (Sys.step cfg) (.init db clock) (ls ++ [a]) = some s' :=
      exec_snoc.mpr ⟨s, hr, hs⟩
    have hkeys' := exec_scanKeys h hr'
    obtain ⟨γ, ht⟩ := exec_init_tracked hr'
    have hlt : scanId < s'.db.nextId := hid ▸ hkeys'.fresh scan hmem
    have hnot : ¬ s'.db.Shows scanId .queued := by
      rintro ⟨queued, hq, hqid, hqueued⟩
      have hsame := hkeys'.eq_of_id hq hmem (hqid.trans hid.symm)
      rw [hsame, hrunning] at hqueued
      cases hqueued
    obtain ⟨-, -, hc⟩ := Sys.claimReturns_eq_some.mp hb
    exact requeued_between ht hlt hnot hms (Db.shows_of_claim hc)
  oldest ls s a i scanId hr hreturns := by
    obtain ⟨-, hstage, -⟩ := Sys.claimReturns_eq_some.mp hreturns
    exact looked_of_claiming ls hr hstage

theorem exclusive_claims_lab : ExclusiveClaims labConfig queuedDb 0 :=
  exclusive_claims labConfig queuedDb
    ⟨by unfold Db.Fresh; decide +kernel, by unfold Db.ids; decide +kernel⟩ 0

end ScanLedger
