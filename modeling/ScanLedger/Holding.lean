/-
# What an executor holds

While its one executor has not ended it, a scan is running; once it has, the
scan is terminal. No one else writes the scan or its module runs meanwhile.
This holds as long as whoever recovers finds no running scan that is still
executed.

Key definitions: `Holds`.
Key theorems: `holds_step`, `Tracks.terminalBut`.
-/
import ScanLedger.Integrity

namespace ScanLedger

open Prog Run Table

structure Holds (registry : ModuleRegistry) (s : Sys) (γ : ℕ → Standing) : Prop where
  integral : s.db.Integral registry
  claims : Claims s
  running : ∀ i scanId, s.Executes i scanId → (γ i).ended = false →
    ∀ scan ∈ s.db.scans, scan.id = scanId → scan.status = .running
  ended : ∀ i scanId, s.Executes i scanId → (γ i).ended = true →
    ∀ scan ∈ s.db.scans, scan.id = scanId → scan.status.isTerminal = true

section

variable {cfg : Config} {s s' : Sys} {γ γ' : ℕ → Standing} {a : SysAct}

/-! ### Steps -/

/-- Only the status that ends the scan ends an execution. -/
theorem Standing.next_ended (registry : ModuleRegistry) (g : Standing) {o : RunnerOp}
    (r : Except Exn o.Answer) (h : ∀ id status now, o ≠ .updateScan id status now) :
    (g.next registry o r).ended = g.ended := by
  rw [next_after (·.ended) fun _ _ _ => rfl]
  cases o with
  | updateScan id status now => exact absurd rfl (h id status now)
  | updateModuleRun scanId module u =>
    cases r with
    | error x => rfl
    | ok _ => exact wrote_apart (·.ended) (fun _ _ _ _ _ => rfl) g u
  | getScan scanId =>
    rcases r with x | (_ | scan) <;> rfl
  | _ => cases r <;> rfl

/-- The scans that are executed have the status they had, and so do their
executions. -/
theorem Holds.keep (h : Holds cfg.registry s γ) (hintegral : s'.db.Integral cfg.registry)
    (hclaims : Claims s')
    (hexec : ∀ i scanId, s'.Executes i scanId →
      s.Executes i scanId ∧ (γ' i).ended = (γ i).ended)
    (hstatus : ∀ i, ∀ scan ∈ s'.db.scans, s.Executes i scan.id →
      ∃ scan₀ ∈ s.db.scans, scan₀.id = scan.id ∧ scan₀.status = scan.status) :
    Holds cfg.registry s' γ' where
  integral := hintegral
  claims := hclaims
  running i scanId he hended scan hs hid := by
    obtain ⟨he, hsame⟩ := hexec i scanId he
    subst hid
    obtain ⟨scan₀, hs₀, hid₀, hstatus₀⟩ := hstatus i scan hs he
    rw [← hstatus₀]
    exact h.running i scan.id he (hsame ▸ hended) scan₀ hs₀ hid₀
  ended i scanId he hended scan hs hid := by
    obtain ⟨he, hsame⟩ := hexec i scanId he
    subst hid
    obtain ⟨scan₀, hs₀, hid₀, hstatus₀⟩ := hstatus i scan hs he
    rw [← hstatus₀]
    exact h.ended i scan.id he (hsame ▸ hended) scan₀ hs₀ hid₀

/-- Runner `i` writes its own scan, which has the status it should have then. -/
theorem Holds.write (h : Holds cfg.registry s γ) {i scanId : ℕ} {db : Db} {p : Proc} {g : Standing}
    (hintegral : db.Integral cfg.registry) (hclaims : Claims (s.put i db p))
    (hp : ∀ id point rest, p.stage = .executing id point rest → id = scanId)
    (hother : ∀ j ≠ i, ∀ scan ∈ db.scans, s.Executes j scan.id → scan ∈ s.db.scans)
    (hown : ∀ scan ∈ db.scans, scan.id = scanId →
      if g.ended then scan.status.isTerminal = true else scan.status = .running) :
    Holds cfg.registry (s.put i db p) (Function.update γ i g) := by
  have hexec : ∀ j scanId, (s.put i db p).Executes j scanId → j ≠ i → s.Executes j scanId := by
    rintro j scanId ⟨point, rest, he⟩ hj
    rw [Sys.put_of_ne s hj] at he
    exact ⟨point, rest, he⟩
  have hmine : ∀ scan ∈ db.scans, (s.put i db p).Executes i scan.id →
      if g.ended then scan.status.isTerminal = true else scan.status = .running := by
    rintro scan hs ⟨point, rest, he⟩
    rw [Sys.put_self] at he
    exact hown scan hs (hp scan.id point rest he)
  refine ⟨hintegral, hclaims, ?_, ?_⟩
  · intro j id he hended scan hs hid
    subst hid
    by_cases hj : j = i
    · subst hj
      rw [Function.update_self] at hended
      have hrow := hmine scan hs he
      rwa [hended] at hrow
    · rw [Function.update_of_ne hj] at hended
      have he := hexec j scan.id he hj
      exact h.running j scan.id he hended scan (hother j hj scan hs he) rfl
  · intro j id he hended scan hs hid
    subst hid
    by_cases hj : j = i
    · subst hj
      rw [Function.update_self] at hended
      have hrow := hmine scan hs he
      rwa [hended] at hrow
    · rw [Function.update_of_ne hj] at hended
      have he := hexec j scan.id he hj
      exact h.ended j scan.id he hended scan (hother j hj scan hs he) rfl

/-- The claimed scan is running, and the others are as they were. -/
theorem Holds.claim (h : Holds cfg.registry s γ) {i candidate : ℕ} {p : Proc}
    (hintegral : (s.db.claim candidate i s.clock).1.Integral cfg.registry)
    (hclaims : Claims (s.put i (s.db.claim candidate i s.clock).1 p))
    (hc : (s.db.claim candidate i s.clock).2 = true)
    (hp : ∀ scanId point rest, p.stage = .executing scanId point rest → scanId = candidate) :
    Holds cfg.registry (s.put i (s.db.claim candidate i s.clock).1 p)
      (Function.update γ i .start) := by
  refine h.write hintegral hclaims hp ?_ ?_
  · intro j _ scan hs he
    rcases Db.mem_scans_claim hs with ⟨hs, -⟩ | ⟨scan₀, hs₀, -, hqueued, rfl⟩
    · exact hs
    · exact absurd hqueued ((h.claims.claimed j scan₀.id he).2 scan₀ hs₀ rfl)
  · intro scan hs hid
    rcases Db.mem_scans_claim hs with ⟨hs, hnot⟩ | ⟨scan₀, hs₀, -, hqueued, rfl⟩
    · -- the row that was met is this one
      obtain ⟨queued, hqs, hq⟩ := List.any_eq_true.mp hc
      obtain ⟨hqid, hq⟩ := Bool.and_eq_true_iff.mp hq
      have hqid : queued.id = scan.id := (eq_of_beq hqid).trans hid.symm
      rw [h.integral.eq_of_id hqs hs hqid] at hq
      exact absurd (eq_of_beq hq) (hnot hid)
    · rfl

/-- The executor ends its scan. -/
theorem Holds.end (h : Holds cfg.registry s γ) {i scanId : ℕ} {status : ScanStatus} {now : ℚ}
    {p : Proc} {g : Standing} (he : s.Executes i scanId)
    (hterminal : status.isTerminal = true) (hg : g.ended = true)
    (hintegral : (s.db.updateScan scanId status now).Integral cfg.registry)
    (hclaims : Claims (s.put i (s.db.updateScan scanId status now) p))
    (hp : ∀ id point rest, p.stage = .executing id point rest → id = scanId) :
    Holds cfg.registry (s.put i (s.db.updateScan scanId status now) p)
      (Function.update γ i g) := by
  refine h.write hintegral hclaims hp ?_ ?_
  · intro j hj scan hs hexec
    obtain ⟨scan₀, hs₀, ⟨hid, rfl⟩ | ⟨-, rfl⟩⟩ := mem_updateWhere.mp hs
    · have hid : scan₀.id = scanId := eq_of_beq hid
      exact absurd (h.claims.one j i scanId (hid ▸ hexec) he) hj
    · exact hs₀
  · intro scan hs hid
    rw [hg]
    obtain ⟨scan₀, hs₀, ⟨-, rfl⟩ | ⟨hne, rfl⟩⟩ := mem_updateWhere.mp hs
    · exact hterminal
    · exact absurd hid (beq_eq_false_iff_ne.mp hne)

/-- One runner goes on, and it has ended its scan or not as before. -/
theorem ended_update {i : ℕ} {g : Standing} (hg : g.ended = (γ i).ended) (j : ℕ) :
    (Function.update γ i g j).ended = (γ j).ended := by
  by_cases hj : j = i
  · subst hj
    rw [Function.update_self]
    exact hg
  · rw [Function.update_of_ne hj]

/-- **One step.** -/
theorem holds_step (h : Holds cfg.registry s γ) (hok : RecoversAlone s a)
    (hs : s.step cfg a = some s') (ht : Tracks cfg s γ a s' γ') : Holds cfg.registry s' γ' := by
  have hintegral := h.integral.extends (extends_step hs)
  have hclaims := claims_step h.claims hok ht
  cases ht with
  | rests ha hclock hdb hexec =>
    refine h.keep hintegral hclaims (fun i scanId he => ⟨hexec i scanId he, rfl⟩) ?_
    intro i scan hscan _
    rw [hdb.scans] at hscan
    exact ⟨scan, hscan, rfl, rfl⟩
  | api hserves =>
    refine h.keep hintegral hclaims (fun i scanId he => ⟨he, rfl⟩) ?_
    intro i scan hscan he
    rcases hserves.mem_scans hscan with hs | ⟨scan₀, hs₀, seen, -, -, rfl⟩ | ⟨request, -, hid, -⟩
    · exact ⟨scan, hs, rfl, rfl⟩
    · exact ⟨scan₀, hs₀, rfl, rfl⟩
    · have hlt := (h.claims.claimed i scan.id he).1
      omega
  | recovers hstart hp =>
    refine h.keep hintegral hclaims (fun i scanId he => ⟨he.of_put fun id point rest hexec =>
      absurd hexec (hp id point rest), rfl⟩) ?_
    intro i scan hscan he
    rcases Db.mem_scans_recover hscan with ⟨hs, -⟩ | ⟨scan₀, hs₀, hrunning, rfl⟩
    · exact ⟨scan, hs, rfl, rfl⟩
    · exact absurd hrunning (hok (by rw [hstart]; rfl) i scan₀.id he scan₀ hs₀ rfl)
  | claims hc hp => exact h.claim hintegral hclaims hc hp
  | executes hstage ha hw hp =>
    rename_i i e scanId o k p r w
    have hstays : ∀ {r : Except Exn o.Answer} {db : Db}, Effect s.db o r db → db = w.db →
        (∀ id status now, o ≠ .updateScan id status now) → Holds cfg.registry (s.put i w.db p)
        (Function.update γ i ((γ i).next cfg.registry o r)) := by
      rintro r db heffect rfl ho
      refine h.keep hintegral hclaims (fun j id he => ⟨he.of_put fun id point rest hexec => ?_,
        ended_update (Standing.next_ended cfg.registry _ _ ho) j⟩) ?_
      · rw [hp id point rest hexec]
        exact ⟨_, _, hstage⟩
      · intro j scan hscan _
        rcases heffect.mem_scans hscan with hs | ⟨scan₀, hs₀, status, now, hup, -⟩
        · exact ⟨scan, hs, rfl, rfl⟩
        · exact absurd hup (ho scan₀.id status now)
    cases o with
    | updateScan id status now =>
      cases hw
      have hterminal := Standing.updateScan_terminal ha
      obtain ⟨rfl, -, -⟩ := ha
      exact h.end ⟨_, _, hstage⟩ hterminal rfl hintegral hclaims hp
    | _ => exact hstays (effect_of_serve hw) rfl nofun
  | sweeps hstage ha hw hp =>
    rename_i i e o k p r w
    refine h.keep hintegral hclaims (fun j id he => ⟨he.of_put fun id point rest hexec =>
      absurd hexec (hp id point rest), ?_⟩) ?_
    · refine ended_update ?_ j
      rfl
    · intro j scan hscan _
      rcases (effect_of_serve hw).mem_scans hscan with hs | ⟨scan₀, hs₀, status, now, rfl, -⟩
      · exact ⟨scan, hs, rfl, rfl⟩
      · exact ha.elim
  | beside hm he ho hp =>
    refine h.keep hintegral hclaims (fun j id hexec => ⟨hexec.of_put fun id point rest hexec =>
      ⟨point, rest, hp ▸ hexec⟩, rfl⟩) ?_
    intro j scan hscan _
    rcases he.mem_scans hscan with hs | ⟨scan₀, hs₀, status, now, rfl, -⟩
    · exact ⟨scan, hs, rfl, rfl⟩
    · rcases ho with ⟨row, ho⟩ | ⟨ledger, entry, ho⟩ <;> cases ho

theorem holds_init (registry : ModuleRegistry) (clock : ℚ) (γ : ℕ → Standing) :
    Holds registry (.init .empty clock) γ where
  integral := integral_empty registry
  claims := claims_init (integral_empty registry).fresh clock
  running _ _ _ _ _ hs := absurd hs List.not_mem_nil
  ended _ _ _ _ _ hs := absurd hs List.not_mem_nil

/-- The runs of a scan that is neither new nor at its executor's hands stay
terminal but for these modules. -/
theorem Tracks.terminalBut (ht : Tracks cfg s γ a s' γ') {scanId : ℕ} {names : List String}
    (hid : scanId < s.db.nextId)
    (hfree : ∀ i e, a = .run i (.serve e) → s.Executes i scanId → (γ i).ended = true)
    (h : s.db.TerminalBut scanId names) : s'.db.TerminalBut scanId names := by
  intro run hr hscan
  subst hscan
  cases ht.run_origin hr with
  | kept hr => exact h run hr rfl
  | created hnew => omega
  | interrupted ha h₀ hrunning hrun =>
    rw [hrun]
    exact Or.inl rfl
  | written ha hstage h₀ hw hrun =>
    rename_i i e run₀ u k
    have hsame : run.scanId = run₀.scanId := by rw [hrun, u.apply_scanId]
    have hended := hfree i e ha (hsame ▸ ⟨_, _, hstage⟩)
    rw [hw.2.1] at hended
    cases hended
  | skipped ha hstage h₀ hw hrun =>
    rename_i i e run₀ reason now k
    have hsame : run.scanId = run₀.scanId := by rw [hrun]
    have hended := hfree i e ha (hsame ▸ ⟨_, _, hstage⟩)
    rw [hw.2.1] at hended
    cases hended

end

end ScanLedger
