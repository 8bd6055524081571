/-
# Cancelling a scan

`cancel_scan` reads the status and then sets the flag; the worker reads the flag
before each module and once after the last, and then ends the scan whatever the
flag is by now. A cancel that is accepted after that last check is lost, and so
is one of a scan whose target is refused at dispatch. One whose flag is set in
time is kept.

Key definitions: `CancelKept`, `CancelsInTime`, `Heeds`.
Key theorems: `heeds_step`, `flagged_step`, `cancel_kept`.
-/
import ScanLedger.Finished

namespace ScanLedger

open Prog Run Table

/-! ### The property, and its condition -/

/-- This scan is canceled, if it has ended. -/
def CancelKept (db : Db) (scanId : ℕ) : Prop :=
  ∀ scan ∈ db.scans, scan.id = scanId → scan.status.isTerminal = true → scan.status = .canceled

/-- The scan of which the last check for a cancel was made, and saw none. -/
def Stage.checkedLast : Stage → Option ℕ
  | .executing scanId (.checked 0) _ => some scanId
  | _ => none

/-- The worker is `i`. A cancel that is not refused sets the flag of a scan that
has not ended and that the worker will check once more; and a scan that ends
before its modules is not flagged. -/
def CancelsInTime (i : ℕ) (s : Sys) : SysAct → Prop
  | .api (.cancelScan seen scanId) => seen.isTerminal = false →
      CancelKept s.db scanId ∧ (s.procs i).stage.checkedLast ≠ some scanId
  | .run _ (.serve _) => ∀ scanId ∈ (s.procs i).stage.refuses,
      ∀ scan ∈ s.db.scans, scan.id = scanId → scan.cancelRequested = false
  | _ => True

/-! ### The invariant -/

/-- A flagged scan that has ended is canceled, and one that the worker has checked
for the last time is not flagged. -/
structure Heeds (i : ℕ) (s : Sys) (γ : ℕ → Standing) : Prop where
  kept : ∀ scan ∈ s.db.scans, scan.cancelRequested = true → scan.status.isTerminal = true →
    scan.status = .canceled
  checked : ∀ scanId, s.Executes i scanId → (γ i).point = .checked 0 → (γ i).ended = false →
    ∀ scan ∈ s.db.scans, scan.id = scanId → scan.cancelRequested = false

section

variable {cfg : Config} {s s' : Sys} {γ γ' : ℕ → Standing} {a : SysAct} {i : ℕ}

theorem heeds_init (i : ℕ) (clock : ℚ) (γ : ℕ → Standing) : Heeds i (.init .empty clock) γ where
  kept _ h := absurd h List.not_mem_nil
  checked _ _ _ _ _ h := absurd h List.not_mem_nil

/-- A scan is flagged by a request, or it was before. -/
theorem Tracks.flagged (ht : Tracks cfg s γ a s' γ') {scan : ScanRow} (hs : scan ∈ s'.db.scans)
    (hflag : scan.cancelRequested = true) :
    (∃ scan₀ ∈ s.db.scans, scan₀.id = scan.id ∧ scan₀.cancelRequested = true) ∨
      ∃ seen, seen.isTerminal = false ∧ a = .api (.cancelScan seen scan.id) := by
  cases ht.scan_origin hs with
  | kept hs => exact Or.inl ⟨scan, hs, rfl, hflag⟩
  | created hid hstatus hnone =>
    rw [hnone] at hflag
    cases hflag
  | flagged ha hseen h₀ h =>
    subst h
    exact Or.inr ⟨_, hseen, ha⟩
  | requeued ha hstart h₀ hrunning h =>
    subst h
    exact Or.inl ⟨_, h₀, rfl, hflag⟩
  | claimed ha h₀ hqueued h =>
    subst h
    exact Or.inl ⟨_, h₀, rfl, hflag⟩
  | ended ha hstage h₀ hw h =>
    subst h
    exact Or.inl ⟨_, h₀, rfl, hflag⟩

/-- The check for a cancel. -/
def RunnerOp.checks : RunnerOp → Bool
  | .cancelRequested _ => true
  | _ => false

/-- Only a check is the last one. -/
theorem Point.checked_of_next {point : Point} {o : RunnerOp} {r : Except Exn o.Answer}
    (ho : o.checks = false) (h : point.next o r = .checked 0) : point = .checked 0 := by
  have hmoves := point.moves_next o r
  rw [h] at hmoves
  cases hmoves with
  | stays => rfl
  | checks => cases ho

/-- The worker's own statement, which is not what ends the scan: it was checked
for the last time before, or now. -/
theorem Heeds.own (h : Heeds i s γ) (hi : s.db.Integral cfg.registry) {scanId : ℕ} {e : Answers}
    {o : RunnerOp} {k : Except Exn o.Answer → Runner ScanStatus}
    (hstage : (s.procs i).stage = .executing scanId (γ i).point (.op o k))
    (ha : (γ i).allows scanId o) {r : Except Exn o.Answer} {w : World}
    (hw : World.serve e ⟨s.db, (s.procs i).ticker⟩ o = (r, w))
    (hpoint : ((γ i).next cfg.registry o r).point = .checked 0)
    (hended : ((γ i).next cfg.registry o r).ended = false) :
    ∀ scan ∈ s.db.scans, scan.id = scanId → scan.cancelRequested = false := by
  rw [Standing.next_point] at hpoint
  have hbefore : o.checks = false → (γ i).ended = false →
      ∀ scan ∈ s.db.scans, scan.id = scanId → scan.cancelRequested = false := fun ho =>
    h.checked scanId ⟨_, _, hstage⟩ (Point.checked_of_next ho hpoint)
  cases o with
  | cancelRequested id =>
    cases hw
    obtain ⟨rfl, -, -, hready⟩ := ha
    intro scan hs hid
    have hfound : s.db.getScan id = some scan := by
      obtain ⟨found, hfound⟩ := Db.getScan_of_hasScan (List.any_eq_true.mpr
        ⟨scan, hs, beq_iff_eq.mpr hid⟩)
      have hsame : found = scan := by
        refine hi.eq_of_id (List.mem_of_find?_eq_some hfound) hs ?_
        rw [hid]
        exact eq_of_beq (List.find?_some (p := fun r : ScanRow => r.id == id) hfound)
      rw [hfound, hsame]
    have hseen : s.db.cancelRequested id = scan.cancelRequested := by
      unfold Db.cancelRequested
      rw [hfound]
    have hnext : (γ i).point.check (s.db.cancelRequested id) = .checked 0 := hpoint
    rw [hseen] at hnext
    cases hflag : scan.cancelRequested with
    | false => rfl
    | true =>
      rw [hflag] at hnext
      rcases hready with hready | hready
      all_goals
        rw [hready] at hnext
        cases hnext
  | updateScan id status now =>
    cases hw
    cases hended
  | _ =>
    rw [Standing.next_ended cfg.registry (γ i) r nofun] at hended
    exact hbefore rfl hended

/-! ### Steps -/

theorem Heeds.kept_step (h : Heeds i s γ) (hby : a.by i = true) (hok : CancelsInTime i s a)
    (ht : Tracks cfg s γ a s' γ') :
    ∀ scan ∈ s'.db.scans, scan.cancelRequested = true → scan.status.isTerminal = true →
      scan.status = .canceled := by
  intro scan hs hflag hterminal
  cases ht.scan_origin hs with
  | kept hs => exact h.kept scan hs hflag hterminal
  | created hid hstatus hnone =>
    rw [hnone] at hflag
    cases hflag
  | flagged ha hseen h₀ hrow =>
    rename_i seen scan₀
    subst hrow ha
    exact (hok hseen).1 scan₀ h₀ rfl hterminal
  | requeued ha hstart h₀ hrunning hrow =>
    subst hrow
    cases hterminal
  | claimed ha h₀ hqueued hrow =>
    subst hrow
    cases hterminal
  | ended ha hstage h₀ hw hrow =>
    rename_i j e scan₀ status now k
    subst ha hrow
    have hji : j = i := eq_of_beq hby
    subst hji
    have hnot : ∀ {P : Prop}, scan₀.cancelRequested = false → P := fun hnone => by
      rw [hnone] at hflag
      cases hflag
    have hlast : (γ j).point = .checked 0 → scan₀.cancelRequested = false := fun hpoint =>
      h.checked scan₀.id ⟨_, _, hstage⟩ hpoint hw.2.1 scan₀ h₀ rfl
    have hcloses : (γ j).closes status := hw.2.2
    unfold Standing.closes at hcloses
    split at hcloses
    · rfl
    · rcases hcloses with ⟨left, hpoint⟩ | ⟨hpoint, -⟩
      · exact hnot (hok scan₀.id (by rw [hstage, hpoint]; rfl) scan₀ h₀ rfl)
      · exact hnot (hlast hpoint)
    · exact hnot (hlast hcloses.1)
    · exact hnot (hlast hcloses.1)
    · exact hcloses.elim
    · exact hcloses.elim

theorem Heeds.checked_step (h : Heeds i s γ) (hi : s.db.Integral cfg.registry)
    (htracked : Tracked cfg s γ) (hok : CancelsInTime i s a)
    (ht : Tracks cfg s γ a s' γ') {scanId : ℕ} (he : s'.Executes i scanId)
    (hpoint : (γ' i).point = .checked 0) (hended : (γ' i).ended = false) :
    ∀ scan ∈ s'.db.scans, scan.id = scanId → scan.cancelRequested = false := by
  intro scan hs hid
  by_contra hflag
  have hflag : scan.cancelRequested = true := by simpa using hflag
  -- so it was flagged before, for otherwise the flag was not set in time
  have hbefore : s.Executes i scanId → (γ i).point = .checked 0 →
      ∃ scan₀ ∈ s.db.scans, scan₀.id = scanId ∧ scan₀.cancelRequested = true := by
    rintro ⟨point, rest, hstage⟩ hpoint
    rcases ht.flagged hs hflag with ⟨scan₀, h₀, hid₀, hflag₀⟩ | ⟨seen, hseen, rfl⟩
    · exact ⟨scan₀, h₀, hid₀.trans hid, hflag₀⟩
    · refine absurd ?_ (hok hseen).2
      have hsame := (htracked.executing i scanId point rest hstage).1
      rw [hstage, hid, ← hsame, hpoint]
      rfl
  have hbeside : s.Executes i scanId → (γ i).point = .checked 0 → (γ i).ended = false → False := by
    intro he hpoint hended
    obtain ⟨scan₀, h₀, hid₀, hflag₀⟩ := hbefore he hpoint
    rw [h.checked scanId he hpoint hended scan₀ h₀ hid₀] at hflag₀
    cases hflag₀
  cases ht.turn he with
  | beside ha he hγ =>
    rw [hγ] at hpoint hended
    exact hbeside he hpoint hended
  | claims ha hc hdb hγ =>
    rw [hγ] at hpoint
    cases hpoint
  | own ha hstage hallows hw hdb hγ =>
    rw [hγ] at hpoint hended
    rw [hdb] at hs
    have hnone := h.own hi hstage hallows hw hpoint hended
    rcases (effect_of_serve hw).mem_scans hs with h₀ | ⟨scan₀, h₀, status, now, -, rfl⟩
    · rw [hnone scan h₀ hid] at hflag
      cases hflag
    · rw [hnone scan₀ h₀ hid] at hflag
      cases hflag

/-- **One step.** -/
theorem heeds_step (h : Heeds i s γ) (hi : s.db.Integral cfg.registry)
    (htracked : Tracked cfg s γ) (hby : a.by i = true) (hok : CancelsInTime i s a)
    (ht : Tracks cfg s γ a s' γ') : Heeds i s' γ' where
  kept := h.kept_step hby hok ht
  checked _ := h.checked_step hi htracked hok ht

/-! ### Runs -/

/-- Ids below this one are given out. -/
theorem nextId_le {ls : List SysAct} (h : exec (Sys.step cfg) s ls = some s') :
    s.db.nextId ≤ s'.db.nextId :=
  exec_inv (I := fun s' => s.db.nextId ≤ s'.db.nextId)
    (fun _ _ _ hle hs => hle.trans (extends_step hs).nextId) le_rfl h

/-- The flag of a scan, once set, is never taken back. -/
theorem flagged_step {scanId : ℕ} (hid : scanId < s.db.nextId)
    (h : ∀ scan ∈ s.db.scans, scan.id = scanId → scan.cancelRequested = true)
    (ht : Tracks cfg s γ a s' γ') :
    ∀ scan ∈ s'.db.scans, scan.id = scanId → scan.cancelRequested = true := by
  intro scan hs hscan
  cases ht.scan_origin hs with
  | kept hs => exact h scan hs hscan
  | created hnew => omega
  | flagged ha hseen h₀ hrow =>
    subst hrow
    rfl
  | requeued ha hstart h₀ hrunning hrow =>
    subst hrow
    have hflag := h _ h₀ hscan
    exact hflag
  | claimed ha h₀ hqueued hrow =>
    subst hrow
    have hflag := h _ h₀ hscan
    exact hflag
  | ended ha hstage h₀ hw hrow =>
    subst hrow
    have hflag := h _ h₀ hscan
    exact hflag

end

/-- **An accepted cancel is kept**: a request reads the status of a scan, which has
not ended, and then sets its flag, with what comes in between. In every run of
one worker whose flags are set in time, the scan is canceled once it has ended. -/
theorem cancel_kept (cfg : Config) (i : ℕ) (clock : ℚ) (before between after : List SysAct)
    (s₁ s : Sys) (scan : ScanRow)
    (hread : exec (Sys.step cfg) (.init .empty clock) before = some s₁)
    (hscan : scan ∈ s₁.db.scans) (hopen : scan.status.isTerminal = false)
    (hby : ∀ a ∈ before ++ between ++ .api (.cancelScan scan.status scan.id) :: after,
      a.by i = true)
    (hm : Meets (Sys.step cfg) (CancelsInTime i) (.init .empty clock)
      (before ++ between ++ .api (.cancelScan scan.status scan.id) :: after))
    (hr : exec (Sys.step cfg) (.init .empty clock)
      (before ++ between ++ .api (.cancelScan scan.status scan.id) :: after) = some s) :
    CancelKept s.db scan.id := by
  let request : SysAct := .api (.cancelScan scan.status scan.id)
  let ok (s : Sys) (a : SysAct) : Prop := RecoversAlone s a ∧ a.by i = true ∧ CancelsInTime i s a
  have hstep : ∀ s γ a s' γ', Tracked cfg s γ → Holds cfg.registry s γ ∧ Heeds i s γ → ok s a →
      s.step cfg a = some s' → Tracks cfg s γ a s' γ' →
      Holds cfg.registry s' γ' ∧ Heeds i s' γ' :=
    fun s γ a s' γ' htracked hi hok hs ht => ⟨holds_step hi.1 hok.1 hs ht,
      heeds_step hi.2 hi.1.integral htracked hok.2.1 hok.2.2 ht⟩
  have hok : Meets (Sys.step cfg) ok (.init .empty clock) (before ++ between ++ request :: after) :=
    (recoversAlone_of_by hby fun _ _ => rfl).and ((meets_of_mem hby).and hm)
  -- up to the write of the flag
  rw [exec_append, Option.bind_eq_some_iff] at hr
  obtain ⟨s₂, hr₂, hr⟩ := hr
  obtain ⟨hok₂, hok⟩ := hok.of_append hr₂
  obtain ⟨γ₂, htracked₂, hinv₂⟩ := exec_tracked hstep
    ⟨holds_init cfg.registry clock _, heeds_init i clock _⟩ hok₂ hr₂
  have hid₂ : scan.id < s₂.db.nextId := by
    rw [exec_append, hread, Option.bind_some] at hr₂
    exact lt_of_lt_of_le ((exec_integral hread).fresh scan hscan) (nextId_le hr₂)
  -- the write
  obtain ⟨s₃, hs₃, hr⟩ := (exec_cons _).mp hr
  obtain ⟨γ₃, htracked₃, ht₃⟩ := tracked_step htracked₂ hs₃
  have hinv₃ := hstep s₂ γ₂ request s₃ γ₃ htracked₂ hinv₂ hok.1 hs₃ ht₃
  have hid₃ : scan.id < s₃.db.nextId := lt_of_lt_of_le hid₂ (extends_step hs₃).nextId
  have hflag₃ : ∀ row ∈ s₃.db.scans, row.id = scan.id → row.cancelRequested = true := by
    intro row hrow hid
    cases hs₃
    have hrow : row ∈ (s₂.db.serveApi cfg.registry s₂.clock
      (.cancelScan scan.status scan.id)).scans := hrow
    rw [Db.serveApi, hopen] at hrow
    obtain ⟨row₀, hrow₀, ⟨-, rfl⟩ | ⟨hp, rfl⟩⟩ := mem_updateWhere.mp hrow
    · rfl
    · exact absurd hid (beq_eq_false_iff_ne.mp hp)
  -- and from there on
  obtain ⟨γ, -, ⟨-, hheeds⟩, -, hflag⟩ := run_tracked (I := fun s γ =>
      (Holds cfg.registry s γ ∧ Heeds i s γ) ∧ scan.id < s.db.nextId ∧
        ∀ row ∈ s.db.scans, row.id = scan.id → row.cancelRequested = true)
    (fun s γ a s' γ' htracked hi hok hs ht => ⟨hstep s γ a s' γ' htracked hi.1 hok hs ht,
      lt_of_lt_of_le hi.2.1 (extends_step hs).nextId, flagged_step hi.2.1 hi.2.2 ht⟩)
    htracked₃ ⟨hinv₃, hid₃, hflag₃⟩ (hok.next hs₃) hr
  intro row hrow hid hterminal
  exact hheeds.kept row hrow (hflag row hrow hid) hterminal

/-! ### Too late -/

instance (db : Db) (scanId : ℕ) : Decidable (CancelKept db scanId) :=
  inferInstanceAs (Decidable (∀ scan ∈ db.scans, scan.id = scanId →
    scan.status.isTerminal = true → scan.status = .canceled))

instance (i : ℕ) (s : Sys) : ∀ a, Decidable (CancelsInTime i s a)
  | .api (.cancelScan seen scanId) => inferInstanceAs (Decidable (seen.isTerminal = false →
      CancelKept s.db scanId ∧ (s.procs i).stage.checkedLast ≠ some scanId))
  | .run _ (.serve _) => inferInstanceAs (Decidable (∀ scanId ∈ (s.procs i).stage.refuses,
      ∀ scan ∈ s.db.scans, scan.id = scanId → scan.cancelRequested = false))
  | .tick _ | .api (.createScope _) | .api (.updateScope _ _) | .api (.deleteScope _)
  | .api (.decide _ _) | .api (.createScan _) | .api (.deleteScan _) | .run _ (.acquire _)
  | .run _ .write | .run _ .release | .run _ .delete | .run _ (.beat _) | .run _ .recover
  | .run _ .look | .run _ .claim | .run _ (.tick _ _) | .run _ .tock | .run _ (.record _)
  | .run _ .crash => inferInstanceAs (Decidable True)

/-- The lab's scan, as runner 0 has claimed it. -/
def claimedScan : ScanRow :=
  { labRequest.row 1 0 with status := .running, claimedBy := some 0, startedAt := some 0 }

/-- The module runs when the status is read; the flag is set before the last check. -/
theorem cancel_kept_lab : CancelKept ((exec (Sys.step labConfig) (.init .empty 0)
    (labRequests ++ startsAt 0 0 ++ serves 10 ++ serves 4 ++
      .api (.cancelScan claimedScan.status claimedScan.id) :: serves 10)).get
        (by decide +kernel)).db claimedScan.id :=
  cancel_kept labConfig 0 0 (labRequests ++ startsAt 0 0 ++ serves 10) (serves 4) (serves 10)
    ((exec (Sys.step labConfig) (.init .empty 0) (labRequests ++ startsAt 0 0 ++ serves 10)).get
      (by decide +kernel)) _ claimedScan
    (Option.some_get _).symm (by decide +kernel) rfl (by decide +kernel) (by decide +kernel)
    (Option.some_get _).symm

/-- The last check was made when the flag is set, and the scan is completed. -/
theorem not_cancel_kept : ¬ ∀ (cfg : Config) (i : ℕ) (clock : ℚ)
    (before between after : List SysAct) (s₁ s : Sys) (scan : ScanRow),
    exec (Sys.step cfg) (.init .empty clock) before = some s₁ →
    scan ∈ s₁.db.scans → scan.status.isTerminal = false →
    (∀ a ∈ before ++ between ++ .api (.cancelScan scan.status scan.id) :: after,
      a.by i = true) →
    exec (Sys.step cfg) (.init .empty clock)
      (before ++ between ++ .api (.cancelScan scan.status scan.id) :: after) = some s →
    CancelKept s.db scan.id := by
  intro h
  let before := labRequests ++ startsAt 0 0 ++ serves 10
  let request : SysAct := .api (.cancelScan claimedScan.status claimedScan.id)
  have hkept := h labConfig 0 0 before (serves 11) (serves 2) _ _ claimedScan
    (Option.some_get (x := exec (Sys.step labConfig) (.init .empty 0) before)
      (by decide +kernel)).symm (by decide +kernel) rfl (by decide +kernel)
    (Option.some_get (x := exec (Sys.step labConfig) (.init .empty 0)
      (before ++ serves 11 ++ request :: serves 2)) (by decide +kernel)).symm
  exact absurd hkept (by decide +kernel)

end ScanLedger
