/-
# Evidence

`_store_findings` only inserts, and recovery queues the whole scan again: a
module that had its findings stored before the crash runs once more and has
them stored once more, and its run counts the last of them alone. While no
module comes to a result in a scan that already has findings of it, every
finding is stored once and every run that is done counts its module's.

Key definitions: `Prints`, `Evident`, `Repeats`, `RunsAfresh`, `FindingsStep`, `Counted`.
Key theorems: `Tracks.findings`, `counted_step`, `stored_once`.
-/
import ScanLedger.Finished
import ScanLedger.Recovery

namespace ScanLedger

open Prog Run Table

/-! ### The property, and its condition -/

/-- How many findings of a module are stored for a scan. -/
def Db.storedCount (db : Db) (scanId : ℕ) (module : String) : ℕ :=
  db.findings.countP fun row => row.scanId == scanId && row.finding.module == module

/-- One row for a fingerprint in a scan, and each run that is done counts what is
stored of its module. -/
structure Evident (sha256 : String → String) (db : Db) : Prop where
  once : (db.findings.map fun row => (row.scanId, row.finding.fingerprint sha256)).Nodup
  counted : ∀ run ∈ db.moduleRuns, run.status = .done →
    run.findingCount = db.storedCount run.scanId run.module

/-- The fingerprints that each module finds in a scan, all distinct. -/
structure Prints where
  of : ℕ → String → List String
  nodup : ∀ scanId name, (of scanId name).Nodup
  disjoint : ∀ scanId name name', name ≠ name' → (of scanId name).Disjoint (of scanId name')

/-- A module finds the same on every attempt, and says that it did. -/
def Repeats (sha256 : String → String) (prints : Prints) (s : Sys) (a : SysAct) : Prop :=
  ∀ ret ∈ s.returns a, (∀ f ∈ ret.result.findings, f.module = ret.module) ∧
    ret.result.findings.map (·.fingerprint sha256) = prints.of ret.scanId ret.module

/-- No module comes to a result in a scan for which findings of it are stored. -/
def RunsAfresh (s : Sys) (a : SysAct) : Prop :=
  ∀ ret ∈ s.returns a, s.db.storedCount ret.scanId ret.module = 0

/-! ### What a step does to the findings -/

/-- They go with their scans, or the findings of a module are stored. -/
inductive FindingsStep (s : Sys) (γ : ℕ → Standing) (a : SysAct) (s' : Sys)
    (γ' : ℕ → Standing) : Prop
  | kept (deleted : List ℕ) (hgone : ∀ id ∈ deleted, s'.db.hasScan id = false)
      (h : s'.db.findings = s.db.findings.filter (·.scanId ∉ deleted))
  | stored {i scanId : ℕ} {e : Answers} {result : ModuleResult}
      {k : Except Exn Unit → Runner ScanStatus} (ha : a = .run i (.serve e))
      (hstage : (s.procs i).stage =
        .executing scanId (γ i).point (.op (.insertFindings scanId result.findings) k))
      (hresult : (γ i).result = some result) (hfresh : (γ i).stored = false)
      (hstored : (γ' i).stored = true) (hon : (γ i).running = true)
      (hthere : s.db.hasScan scanId = true)
      (h : s'.db.findings = s.db.findings ++ findingRows scanId result.findings)

section

variable {db db' : Db} {scanId : ℕ} {module : String}

theorem Db.storedCount_filter {deleted : List ℕ} (hid : scanId ∉ deleted)
    (h : db'.findings = db.findings.filter (·.scanId ∉ deleted)) :
    db'.storedCount scanId module = db.storedCount scanId module := by
  unfold storedCount
  rw [h, List.countP_filter]
  refine List.countP_congr fun row _ => ?_
  by_cases hrow : row.scanId = scanId
  · simp [hrow, hid]
  · simp [hrow]

/-- Findings of another scan or module are not counted. -/
theorem Db.storedCount_append {id : ℕ} {name : String} {findings : List Finding}
    (hname : ∀ f ∈ findings, f.module = name) (hne : id ≠ scanId ∨ name ≠ module)
    (h : db'.findings = db.findings ++ findingRows id findings) :
    db'.storedCount scanId module = db.storedCount scanId module := by
  unfold storedCount
  rw [h, List.countP_append, Nat.add_eq_left, List.countP_eq_zero]
  intro row hrow
  obtain ⟨f, hf, rfl⟩ := List.mem_map.mp hrow
  simp only [Bool.and_eq_true, beq_iff_eq, hname f hf, not_and]
  rintro rfl
  rcases hne with hne | hne
  · exact absurd rfl hne
  · exact hne

theorem Db.storedCount_own {findings : List Finding} (hname : ∀ f ∈ findings, f.module = module)
    (h : db'.findings = db.findings ++ findingRows scanId findings) :
    db'.storedCount scanId module = db.storedCount scanId module + findings.length := by
  unfold storedCount
  have hall : (findingRows scanId findings).countP
      (fun row => row.scanId == scanId && row.finding.module == module) =
        (findingRows scanId findings).length := by
    rw [List.countP_eq_length]
    intro row hrow
    obtain ⟨f, hf, rfl⟩ := List.mem_map.mp hrow
    simp [hname f hf]
  rw [h, List.countP_append, hall]
  unfold findingRows
  rw [List.length_map]

theorem Db.storedCount_eq_zero (h : db.storedCount scanId module = 0) {row : FindingRow}
    (hrow : row ∈ db.findings) (hid : row.scanId = scanId) : row.finding.module ≠ module := by
  intro hmodule
  unfold storedCount at h
  rw [List.countP_eq_zero] at h
  exact h row hrow (by simp [hid, hmodule])

theorem Db.hasScan_deleteScans {ids : List ℕ} (h : scanId ∈ ids) :
    (db.deleteScans ids).hasScan scanId = false := by
  unfold hasScan deleteScans
  rw [List.any_eq_false]
  intro scan hscan hid
  have hkept := (List.mem_filter.mp hscan).2
  rw [eq_of_beq hid] at hkept
  simp [h] at hkept

end

section

variable {cfg : Config} {s s' : Sys} {γ γ' : ℕ → Standing} {a : SysAct}

theorem FindingsStep.same (h : s'.db.findings = s.db.findings) : FindingsStep s γ a s' γ' :=
  .kept [] (fun _ hid => absurd hid List.not_mem_nil) (by simp [h])

theorem FindingsStep.effect {o : RunnerOp} {r : Except Exn o.Answer} {db : Db}
    (he : Effect s.db o r db) (ho : ∀ scanId findings, o ≠ .insertFindings scanId findings)
    (hdb : s'.db = db) : FindingsStep s γ a s' γ' := by
  subst hdb
  generalize hdb' : s'.db = db' at he
  cases he with
  | stores scanId findings => exact absurd rfl (ho scanId findings)
  | deletes ids =>
    refine .kept ids (fun id hid => ?_) (congrArg (·.findings) hdb')
    rw [hdb']
    exact Db.hasScan_deleteScans hid
  | _ => exact .same (congrArg (·.findings) hdb')

theorem Serves.findings {registry : ModuleRegistry} {clock : ℚ} {a : ApiStep} {db db' : Db}
    (h : Serves registry clock db a db') :
    (∀ id ∈ a.deleted, db'.hasScan id = false) ∧
      db'.findings = db.findings.filter (·.scanId ∉ a.deleted) := by
  have hsame : ∀ {b : ApiStep} {db₁ : Db}, b.deleted = [] → db₁.findings = db.findings →
      (∀ id ∈ b.deleted, db₁.hasScan id = false) ∧
        db₁.findings = db.findings.filter (·.scanId ∉ b.deleted) := by
    intro b db₁ hb hfindings
    rw [hb, hfindings]
    exact ⟨fun _ hid => absurd hid List.not_mem_nil, by simp⟩
  cases h with
  | refused _ hnone => exact hsame hnone rfl
  | createsScope _ h =>
    obtain ⟨-, rfl⟩ := Db.createScope_eq_some.mp h
    exact hsame rfl rfl
  | updatesScope _ h =>
    obtain ⟨-, rfl⟩ := Db.updateScope_eq_some.mp h
    exact hsame rfl rfl
  | deletesScope h =>
    obtain ⟨-, rfl⟩ := Db.deleteScope_eq_some.mp h
    exact hsame rfl rfl
  | createsScan _ h =>
    obtain ⟨-, rfl⟩ := Db.createScan_eq_some.mp h
    exact hsame rfl rfl
  | decides | cancels => exact hsame rfl rfl
  | deletes scanId => exact ⟨fun id hid => Db.hasScan_deleteScans hid, rfl⟩

theorem Tracks.findings (ht : Tracks cfg s γ a s' γ') : FindingsStep s γ a s' γ' := by
  cases ht with
  | rests ha hclock hdb => exact .same (hdb.read (f := (·.findings)) fun _ => rfl)
  | api hserves => exact .kept _ hserves.findings.1 hserves.findings.2
  | recovers | claims => exact .same rfl
  | executes hstage ha hw hp =>
    rename_i i e scanId o k p r w
    cases o with
    | insertFindings id findings =>
      obtain ⟨rfl, -, hon, hfresh, result, hresult, rfl⟩ := ha
      have he := effect_of_serve hw
      cases r with
      | error x =>
        refine .same ?_
        show w.db.findings = s.db.findings
        generalize w.db = db at he
        cases he with
        | reads => rfl
      | ok _ =>
        have hthere : s.db.hasScan id = true := by
          generalize w.db = db at he
          cases he with
          | reads _ _ hreads => cases hreads
          | stores _ _ hthere => exact hthere
        have hstored : (Function.update γ i ((γ i).next cfg.registry
            (.insertFindings id result.findings) (.ok ())) i).stored = true := by
          rw [Function.update_self]
          rfl
        exact .stored rfl hstage hresult hfresh hstored hon hthere he.findings_of_stores
    | _ => exact .effect (effect_of_serve hw) nofun rfl
  | sweeps hstage ha hw hp =>
    refine .effect (effect_of_serve hw) (fun scanId findings ho => ?_) rfl
    subst ho
    exact ha.elim
  | beside hm he ho hp =>
    refine .effect he (fun scanId findings hnot => ?_) rfl
    subst hnot
    rcases ho with ⟨row, ho⟩ | ⟨ledger, entry, ho⟩ <;> cases ho

end

/-! ### The invariant -/

/-- What is known of the findings that are stored and of those that a module has
come to: its fingerprints are the ones it finds, none is stored until all are,
and while it is running no run of it is done. -/
structure Counted (sha256 : String → String) (prints : Prints) (s : Sys) (γ : ℕ → Standing) :
    Prop extends Evident sha256 s.db where
  steady : ∀ i scanId, s.Executes i scanId → (γ i).Steady
  known : ∀ row ∈ s.db.findings,
    row.finding.fingerprint sha256 ∈ prints.of row.scanId row.finding.module
  found : ∀ i scanId m result, s.Executes i scanId → (γ i).todo.head? = some m →
    (γ i).result = some result → (∀ f ∈ result.findings, f.module = m.name) ∧
      result.findings.map (·.fingerprint sha256) = prints.of scanId m.name
  held : ∀ i scanId m result, s.Executes i scanId → (γ i).todo.head? = some m →
    (γ i).result = some result → s.db.hasScan scanId = true →
      s.db.storedCount scanId m.name = if (γ i).stored then result.findings.length else 0
  undone : ∀ i scanId m, s.Executes i scanId → (γ i).running = true →
    (γ i).todo.head? = some m → ∀ run ∈ s.db.moduleRuns, run.scanId = scanId →
      run.module = m.name → run.status ≠ .done

theorem counted_init (sha256 : String → String) (prints : Prints) (clock : ℚ)
    (γ : ℕ → Standing) : Counted sha256 prints (.init .empty clock) γ where
  once := List.nodup_nil
  counted _ h := absurd h List.not_mem_nil
  steady := by rintro i scanId ⟨point, rest, hs⟩; cases hs
  known _ h := absurd h List.not_mem_nil
  found := by rintro i scanId m result ⟨point, rest, hs⟩; cases hs
  held := by rintro i scanId m result ⟨point, rest, hs⟩; cases hs
  undone := by rintro i scanId m ⟨point, rest, hs⟩; cases hs

section

variable {cfg : Config} {s s' : Sys} {γ γ' : ℕ → Standing} {a : SysAct}
variable {sha256 : String → String} {prints : Prints}

/-- The module whose findings are stored. -/
theorem Counted.storing (h : Counted sha256 prints s γ) {i scanId : ℕ} {result : ModuleResult}
    (he : s.Executes i scanId) (hresult : (γ i).result = some result)
    (hfresh : (γ i).stored = false) (hon : (γ i).running = true)
    (hthere : s.db.hasScan scanId = true) :
    ∃ m, (γ i).todo.head? = some m ∧ (∀ f ∈ result.findings, f.module = m.name) ∧
      result.findings.map (·.fingerprint sha256) = prints.of scanId m.name ∧
      s.db.storedCount scanId m.name = 0 := by
  obtain ⟨m, hhead⟩ := (h.steady i scanId he).first hon
  obtain ⟨hname, hprints⟩ := h.found i scanId m result he hhead hresult
  have hnone := h.held i scanId m result he hhead hresult hthere
  rw [hfresh] at hnone
  exact ⟨m, hhead, hname, hprints, hnone⟩

theorem Counted.known_step (h : Counted sha256 prints s γ) (ht : Tracks cfg s γ a s' γ') :
    ∀ row ∈ s'.db.findings,
      row.finding.fingerprint sha256 ∈ prints.of row.scanId row.finding.module := by
  intro row hrow
  cases ht.findings with
  | kept _ hgone hfindings =>
    rw [hfindings] at hrow
    exact h.known row (List.mem_of_mem_filter hrow)
  | stored ha hstage hresult hfresh hstored hon hthere hfindings =>
    obtain ⟨m, -, hname, hprints, -⟩ := h.storing ⟨_, _, hstage⟩ hresult hfresh hon hthere
    rw [hfindings] at hrow
    rcases List.mem_append.mp hrow with hrow | hrow
    · exact h.known row hrow
    · obtain ⟨f, hf, rfl⟩ := List.mem_map.mp hrow
      rw [hname f hf, ← hprints]
      exact List.mem_map_of_mem hf

theorem Counted.once_step (h : Counted sha256 prints s γ) (ht : Tracks cfg s γ a s' γ') :
    (s'.db.findings.map fun row => (row.scanId, row.finding.fingerprint sha256)).Nodup := by
  cases ht.findings with
  | kept _ hgone hfindings =>
    rw [hfindings]
    exact h.once.sublist (List.filter_sublist.map _)
  | stored ha hstage hresult hfresh hstored hon hthere hfindings =>
    rename_i i scanId e result k
    obtain ⟨m, -, hname, hprints, hnone⟩ := h.storing ⟨_, _, hstage⟩ hresult hfresh hon hthere
    rw [hfindings, List.map_append]
    refine List.nodup_append.mpr ⟨h.once, ?_, ?_⟩
    · have hnew : (findingRows scanId result.findings).map
          (fun row => (row.scanId, row.finding.fingerprint sha256)) =
            (prints.of scanId m.name).map (scanId, ·) := by
        rw [← hprints]
        unfold findingRows
        rw [List.map_map, List.map_map]
        rfl
      rw [hnew]
      exact (prints.nodup scanId m.name).map (Prod.mk_right_injective scanId)
    · -- what is stored already is another scan's or another module's
      intro key hkey key' hkey' hsame
      obtain ⟨row, hrow, rfl⟩ := List.mem_map.mp hkey
      obtain ⟨row', hrow', rfl⟩ := List.mem_map.mp hkey'
      obtain ⟨f, hf, rfl⟩ := List.mem_map.mp hrow'
      obtain ⟨hid, hprint⟩ := Prod.mk.inj hsame
      have hid : row.scanId = scanId := hid
      have hprint : row.finding.fingerprint sha256 = f.fingerprint sha256 := hprint
      have hmodule := Db.storedCount_eq_zero hnone hrow hid
      have hknown := h.known row hrow
      rw [hid, hprint] at hknown
      refine prints.disjoint scanId _ _ hmodule hknown ?_
      rw [← hprints]
      exact List.mem_map_of_mem hf

/-- A count changes when findings of that module are stored. -/
theorem Counted.storedCount_step (h : Counted sha256 prints s γ) (ht : Tracks cfg s γ a s' γ')
    {scanId : ℕ} {module : String} (hscan : s'.db.hasScan scanId = true)
    (hother : ∀ i m id findings, s.Executes i scanId →
      (s.procs i).stage.head = some (.insertFindings id findings) → (γ i).running = true →
      (γ i).todo.head? = some m → (γ i).stored = false → (γ' i).stored = true →
      m.name ≠ module) :
    s'.db.storedCount scanId module = s.db.storedCount scanId module := by
  cases ht.findings with
  | kept _ hgone hfindings =>
    refine Db.storedCount_filter (fun hid => ?_) hfindings
    rw [hgone scanId hid] at hscan
    cases hscan
  | stored ha hstage hresult hfresh hstored hon hthere hfindings =>
    rename_i i id e result k
    obtain ⟨m, hhead, hname, -⟩ := h.storing ⟨_, _, hstage⟩ hresult hfresh hon hthere
    refine Db.storedCount_append hname ?_ hfindings
    by_cases hid : id = scanId
    · subst hid
      exact Or.inr (hother i m id result.findings ⟨_, _, hstage⟩ (congrArg Stage.head hstage)
        hon hhead hfresh hstored)
    · exact Or.inl hid

theorem Counted.counted_step (h : Counted sha256 prints s γ) (hh : Holds cfg.registry s γ)
    (hi : s'.db.Integral cfg.registry) (ht : Tracks cfg s γ a s' γ') :
    ∀ run ∈ s'.db.moduleRuns, run.status = .done →
      run.findingCount = s'.db.storedCount run.scanId run.module := by
  intro run hr hdone
  have hscan : s'.db.hasScan run.scanId = true := hi.hasScan_run hr
  cases ht.run_origin hr with
  | kept h₀ =>
    rw [h.counted run h₀ hdone]
    refine (h.storedCount_step ht hscan fun i m _ _ he _ hon hhead _ _ hname => ?_).symm
    exact h.undone i run.scanId m he hon hhead run h₀ rfl hname.symm hdone
  | created hid hstatus =>
    rw [hstatus] at hdone
    cases hdone
  | interrupted ha h₀ hrunning hrow | skipped ha hstage h₀ hw hrow =>
    rw [hrow] at hdone
    cases hdone
  | written ha hstage h₀ hw hrow =>
    rename_i i e run₀ u k
    obtain ⟨-, -, m, rest, htodo, hname, hwrites⟩ := hw
    have hid : run.scanId = run₀.scanId := by rw [hrow, u.apply_scanId]
    have hmodule : run.module = run₀.module := by rw [hrow, u.apply_module]
    have hstatus : u.status = .done := by rwa [hrow, u.apply_status] at hdone
    have hcount : run.findingCount = u.findingCount := by
      rw [hrow]
      unfold ModuleUpdate.apply
      rw [hstatus]
      rfl
    unfold Standing.writes at hwrites
    rw [hstatus] at hwrites
    obtain ⟨-, result, hresult, hstored, hlength⟩ := hwrites
    have he : s.Executes i run₀.scanId := ⟨_, _, hstage⟩
    have hthere : s.db.hasScan run₀.scanId = true := hh.integral.hasScan_run h₀
    have hheld := h.held i run₀.scanId m result he (by rw [htodo]; rfl) hresult hthere
    have hall : s.db.storedCount run₀.scanId m.name = result.findings.length := by
      rcases hstored with hempty | hstored
      · rw [hheld, hempty, List.length_nil, ite_self]
      · rw [hheld, hstored]
        rfl
    rw [hid] at hscan
    rw [hcount, hlength, hid, hmodule, hname, ← hall]
    -- the executor's statement is this one
    refine (h.storedCount_step ht hscan fun j _ _ _ hj hhead _ _ _ _ => ?_).symm
    rw [hh.claims.one j i run₀.scanId hj he, hstage] at hhead
    cases hhead

/-- What an execution goes by has been found before, or is found now. -/
theorem Counted.found_step (h : Counted sha256 prints s γ) (hok : Repeats sha256 prints s a)
    (ht : Tracks cfg s γ a s' γ') (i scanId : ℕ) (m : ModuleMetadata) (result : ModuleResult)
    (he : s'.Executes i scanId) (hhead : (γ' i).todo.head? = some m)
    (hresult : (γ' i).result = some result) : (∀ f ∈ result.findings, f.module = m.name) ∧
      result.findings.map (·.fingerprint sha256) = prints.of scanId m.name := by
  cases ht.result_origin h.steady he hhead hresult with
  | kept he hhead hresult | stored he hhead hresult =>
    exact h.found i scanId m result he hhead hresult
  | returned hmem => exact hok _ hmem

theorem Counted.held_step (h : Counted sha256 prints s γ) (hh : Holds cfg.registry s γ)
    (hok : RunsAfresh s a) (hs : s.step cfg a = some s') (ht : Tracks cfg s γ a s' γ')
    (i scanId : ℕ) (m : ModuleMetadata) (result : ModuleResult) (he : s'.Executes i scanId)
    (hhead : (γ' i).todo.head? = some m) (hresult : (γ' i).result = some result)
    (hscan : s'.db.hasScan scanId = true) :
    s'.db.storedCount scanId m.name = if (γ' i).stored then result.findings.length else 0 := by
  have hthere : s.Executes i scanId → s.db.hasScan scanId = true := fun he =>
    (extends_step hs).not_hasScan (hh.claims.claimed i scanId he).1 hscan
  cases ht.result_origin h.steady he hhead hresult with
  | kept he hhead hresult hsame =>
    rw [hsame, ← h.held i scanId m result he hhead hresult (hthere he)]
    refine h.storedCount_step ht hscan fun j _ _ _ hj _ _ _ hfresh hstored => ?_
    -- its executor did not store anything
    rw [hh.claims.one j i scanId hj he] at hfresh hstored
    rw [hsame, hfresh] at hstored
    cases hstored
  | stored he hhead hresult hfresh hstored hfindings =>
    have hnone := h.held i scanId m result he hhead hresult (hthere he)
    rw [hfresh] at hnone
    have hname := (h.found i scanId m result he hhead hresult).1
    have hcount := Db.storedCount_own hname hfindings
    rw [hstored, hcount, hnone]
    exact Nat.zero_add _
  | returned hmem hfresh hfindings =>
    have hnone : s.db.storedCount scanId m.name = 0 := hok _ hmem
    rw [hfresh]
    unfold Db.storedCount at hnone ⊢
    rw [hfindings]
    exact hnone

/-- Unless its executor writes the run now, it is not done. -/
theorem Counted.undone_kept (h : Counted sha256 prints s γ) (hh : Holds cfg.registry s γ)
    (ht : Tracks cfg s γ a s' γ') {i : ℕ} {m : ModuleMetadata} {run : ModuleRunRow}
    (hr : run ∈ s'.db.moduleRuns) (hmodule : run.module = m.name)
    (he : s.Executes i run.scanId) (hon : (γ i).running = true)
    (hhead : (γ i).todo.head? = some m)
    (hown : ∀ e id name u, a = .run i (.serve e) →
      (s.procs i).stage.head ≠ some (.updateModuleRun id name u)) : run.status ≠ .done := by
  cases ht.run_origin hr with
  | kept h₀ => exact h.undone i run.scanId m he hon hhead run h₀ rfl hmodule
  | created hid =>
    have hlt := (hh.claims.claimed i run.scanId he).1
    omega
  | interrupted ha h₀ hrunning hrow | skipped ha hstage h₀ hw hrow =>
    rw [hrow]
    exact fun hdone => by cases hdone
  | written ha hstage h₀ hw hrow =>
    rename_i j e run₀ u k
    have hid : run.scanId = run₀.scanId := by rw [hrow, u.apply_scanId]
    have hj : j = i := hh.claims.one j i run₀.scanId ⟨_, _, hstage⟩ (hid ▸ he)
    subst hj
    exact absurd (congrArg Stage.head hstage) (hown e _ _ _ ha)

theorem Counted.undone_step (h : Counted sha256 prints s γ) (hh : Holds cfg.registry s γ)
    (ht : Tracks cfg s γ a s' γ') (i scanId : ℕ) (m : ModuleMetadata) (he : s'.Executes i scanId)
    (hon : (γ' i).running = true) (hhead : (γ' i).todo.head? = some m) :
    ∀ run ∈ s'.db.moduleRuns, run.scanId = scanId → run.module = m.name →
      run.status ≠ .done := by
  intro run hr hid hmodule
  subst hid
  cases ht.turn he with
  | beside ha he hγ =>
    rw [hγ] at hon hhead
    exact h.undone_kept hh ht hr hmodule he hon hhead fun e _ _ _ hown => absurd hown (ha e)
  | claims ha hc hdb hγ =>
    rw [hγ] at hon
    cases hon
  | own ha hstage hallows hw hdb hγ =>
    rename_i e o k r w
    have hadvance : Advance (γ i) run.scanId o r (γ' i) := hγ ▸ Standing.advance hallows r
    have he : s.Executes i run.scanId := ⟨_, _, hstage⟩
    have hsteady := h.steady i run.scanId he
    have hhead' : (s.procs i).stage.head = some o := congrArg Stage.head hstage
    cases hadvance with
    | rests hturns htodo hrunning =>
      refine h.undone_kept hh ht hr hmodule he (hrunning ▸ hon) (htodo ▸ hhead) ?_
      intro e' id name u _ hwrites
      rw [hhead'] at hwrites
      cases hwrites
      cases hw
      cases hturns
    | returns _ _ hopen _ _ htodo | stores hopen _ _ htodo =>
      refine h.undone_kept hh ht hr hmodule he hopen (htodo ▸ hhead) ?_
      intro e' id name u _ hwrites
      rw [hhead'] at hwrites
      cases hwrites
    | opens hfirst hstatus _ _ htodo =>
      rw [htodo, hfirst] at hhead
      cases hhead
      cases hw
      rw [hdb] at hr
      obtain ⟨run₀, h₀, ⟨-, hrow⟩ | ⟨hp, rfl⟩⟩ := mem_updateWhere.mp hr
      · rw [hrow, ModuleUpdate.apply_status, hstatus]
        exact fun hdone => by cases hdone
      · simp [hmodule] at hp
    | reads hreading hrunning =>
      rw [hrunning, hsteady.idle (by rw [hreading]; rfl)] at hon
      cases hon
    | skips _ htodo =>
      rw [htodo] at hhead
      cases hhead
    | closes _ _ _ _ hrunning =>
      rw [hrunning] at hon
      cases hon

/-- **One step.** -/
theorem counted_step (h : Counted sha256 prints s γ) (hh : Holds cfg.registry s γ)
    (hafresh : RunsAfresh s a) (hrepeats : Repeats sha256 prints s a)
    (hs : s.step cfg a = some s') (ht : Tracks cfg s γ a s' γ') : Counted sha256 prints s' γ' where
  once := h.once_step ht
  counted := h.counted_step hh (hh.integral.extends (extends_step hs)) ht
  steady := ht.steady h.steady
  known := h.known_step ht
  found := h.found_step hrepeats ht
  held := h.held_step hh hafresh hs ht
  undone := h.undone_step hh ht

end

/-- **Evidence is stored once**, in every run in which whoever recovers is alone,
modules find what they always do and none comes to a result in a scan that has
findings of it. -/
theorem stored_once (cfg : Config) (sha256 : String → String) (prints : Prints) (clock : ℚ)
    (ls : List SysAct) (s : Sys)
    (hrepeats : Meets (Sys.step cfg) (Repeats sha256 prints) (.init .empty clock) ls)
    (hm : Meets (Sys.step cfg) (fun s a => RecoversAlone s a ∧ RunsAfresh s a)
      (.init .empty clock) ls)
    (hr : exec (Sys.step cfg) (.init .empty clock) ls = some s) : Evident sha256 s.db := by
  obtain ⟨γ, -, -, hcounted⟩ := exec_tracked
    (I := fun s γ => Holds cfg.registry s γ ∧ Counted sha256 prints s γ)
    (fun _ _ _ _ _ _ hi hok hs ht => ⟨holds_step hi.1 hok.1.1 hs ht,
      counted_step hi.2 hi.1 hok.1.2 hok.2 hs ht⟩)
    ⟨holds_init cfg.registry clock _, counted_init sha256 prints clock _⟩ (hm.and hrepeats) hr
  exact hcounted.toEvident

/-! ### A crash before the module is done -/

/-- What `host_discovery` finds of the lab's target. -/
def liveHost : Finding :=
  ⟨"10.10.0.5", .liveHost, "host.live", "10.10.0.5 is alive",
    "Responded on tcp/22 accepted a connection.", "host_discovery", "alive", none,
    .object [("address", .str "10.10.0.5"), ("proved_by_port", .int 22)],
    some "tcp/22 accepted a connection", some .high, [], 0⟩

def liveAnswers : Answers := { labAnswers with result := .ok ⟨[liveHost], false, []⟩ }

/-- The digest of the one text there is. -/
def liveDigest (_ : String) : String :=
  "aa9852e14b36529aca33241a7f89fe90373715bb453f3ad843fe26984e08a108"

def livePrints : Prints where
  of _ name := if name = "host_discovery" then [liveDigest ""] else []
  nodup _ name := by
    split_ifs
    · exact List.nodup_singleton _
    · exact List.nodup_nil
  disjoint _ name name' h := by
    split_ifs with hname hname'
    · exact absurd (hname.trans hname'.symm) h
    · exact List.disjoint_nil_right _
    · exact List.disjoint_nil_left _
    · exact List.disjoint_nil_left _

/-- Runner 0 carries out so many statements, crashes, starts again and goes on. -/
def resumes (before after : ℕ) : List SysAct :=
  labRequests ++ startsAt 0 0 ++ List.replicate before (.run 0 (.serve liveAnswers)) ++
    .run 0 .crash :: startsAt 0 0 ++ List.replicate after (.run 0 (.serve liveAnswers))

instance (sha256 : String → String) (prints : Prints) (s : Sys) (a : SysAct) :
    Decidable (Repeats sha256 prints s a) :=
  inferInstanceAs (Decidable (∀ ret ∈ s.returns a, _ ∧ _))

instance (s : Sys) (a : SysAct) : Decidable (RunsAfresh s a) :=
  inferInstanceAs (Decidable (∀ ret ∈ s.returns a, _))

/-- The module has not returned yet when the runner crashes. -/
theorem stored_once_lab : Evident liveDigest
    ((exec (Sys.step labConfig) (.init .empty 0) (resumes 11 29)).get (by decide +kernel)).db :=
  have halone : Meets (Sys.step labConfig) RecoversAlone (.init .empty 0) (resumes 11 29) :=
    recoversAlone_of_by (i := 0) (by decide) fun _ _ => rfl
  stored_once labConfig liveDigest livePrints 0 (resumes 11 29) _ (by decide +kernel)
    (halone.and (by decide +kernel)) (Option.some_get _).symm

/-- Its finding is stored when the runner crashes, and then stored again. -/
theorem not_stored_once : ¬ ∀ (cfg : Config) (sha256 : String → String) (prints : Prints) (i : ℕ)
    (clock : ℚ) (ls : List SysAct) (s : Sys), (∀ a ∈ ls, a.by i = true) →
    Meets (Sys.step cfg) (Repeats sha256 prints) (.init .empty clock) ls →
    exec (Sys.step cfg) (.init .empty clock) ls = some s → Evident sha256 s.db := by
  intro h
  have hevident := h labConfig liveDigest livePrints 0 0 (resumes 13 14) _ (by decide)
    (by decide +kernel)
    (Option.some_get (x := exec (Sys.step labConfig) (.init .empty 0) (resumes 13 14))
      (by decide +kernel)).symm
  exact absurd hevident.once (by decide +kernel)

end ScanLedger
