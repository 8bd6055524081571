/-
# Work budgets under concurrency

`_acquire` checks both counters before its awaits and increments them after
the last one. A task that is past the checks and has no slot yet (`pending`) is
in neither counter, so further tasks pass the checks on the old values: with a
budget of one slot and two tasks at the bucket's lock, both get a slot
(`not_within_budgets`). The budgets hold in the runs in which the checks only
let a task in while the slots granted and the tasks pending are together below
both budgets (`within_budgets`); a task that is let in beyond that can be
granted a slot beyond the budget.

Key definitions: `pendingWhere`, `admits`, `RoomLeft`.
Key theorems: `pending_step`, `within_budgets`.
-/
import ScanLedger.Governor

namespace ScanLedger
namespace Governor

open Run Tasks

variable {β : Type} {L : ValidLimits} {s s' : State β} {i : ℕ}

/-! ### The fields a step moves -/

section Fields

variable (s : State β) (i : ℕ) (t : Task β) (p : Phase)

@[simp] theorem setPhase_clock : (s.setPhase i t p).clock = s.clock := rfl
@[simp] theorem setPhase_bucket : (s.setPhase i t p).bucket = s.bucket := rfl
@[simp] theorem setPhase_globalFree : (s.setPhase i t p).globalFree = s.globalFree := rfl
@[simp] theorem setPhase_scanCount : (s.setPhase i t p).scanCount = s.scanCount := rfl
@[simp] theorem setPhase_hostCount (h : String) :
    (s.setPhase i t p).hostCount h = s.hostCount h := rfl
@[simp] theorem setPhase_hostFree (L : ValidLimits) (h : String) :
    (s.setPhase i t p).hostFree L h = s.hostFree L h := rfl
@[simp] theorem setPhase_tasks :
    (s.setPhase i t p).tasks = s.tasks.set i { t with phase := p } := rfl

@[simp] theorem bucketTurn_clock : (bucketTurn s i t).clock = s.clock := by
  unfold bucketTurn; split <;> rfl
@[simp] theorem bucketTurn_globalFree : (bucketTurn s i t).globalFree = s.globalFree := by
  unfold bucketTurn; split <;> rfl
@[simp] theorem bucketTurn_scanCount : (bucketTurn s i t).scanCount = s.scanCount := by
  unfold bucketTurn; split <;> rfl
@[simp] theorem bucketTurn_hostCount (h : String) :
    (bucketTurn s i t).hostCount h = s.hostCount h := by
  unfold bucketTurn; split <;> rfl
@[simp] theorem bucketTurn_hostFree (L : ValidLimits) (h : String) :
    (bucketTurn s i t).hostFree L h = s.hostFree L h := by
  unfold bucketTurn; split <;> rfl

/-- A turn takes a token, with the lock given back, or goes to sleep with it. -/
theorem bucketTurn_cases :
    (1 ≤ s.bucket.available s.clock ∧ bucketTurn s i t = { s with bucket :=
      ⟨s.bucket.rate, s.bucket.available s.clock - 1, s.clock, false⟩ }.setPhase i t .globalWait) ∨
    ∃ wake, bucketTurn s i t = { s with bucket :=
      ⟨s.bucket.rate, s.bucket.available s.clock, s.clock, true⟩ }.setPhase i t
        (.bucketSleep wake) := by
  unfold bucketTurn TokenBucket.turn TokenBucket.refill
  by_cases h : 1 ≤ s.bucket.available s.clock
  · left; simp [h]
  · right
    refine ⟨s.clock + (1 - s.bucket.available s.clock) / s.bucket.rate, ?_⟩
    simp [h]

@[simp] theorem enter_clock (L : ValidLimits) : (enter L s i t).clock = s.clock := rfl

theorem enter_hostCount (L : ValidLimits) (h : String) : (enter L s i t).hostCount h =
    s.hostCount h + if t.host == h then 1 else 0 := by
  show ((s.hostCounts.insert t.host (s.hostCount t.host + 1)).lookup h).getD 0 = _
  by_cases hh : h = t.host
  · subst hh; simp
  · rw [AList.lookup_insert_ne hh]
    simp [State.hostCount, Ne.symm hh]

@[simp] theorem init_hostCount (L : ValidLimits) (now : ℚ) (h : String) :
    (init L now : State β).hostCount h = 0 := rfl

end Fields

/-- Every step counts the slots it enters, in all and for each host. -/
theorem counts_step {a : Act β} (h : step L s a = some s') :
    s'.scanCount = s.scanCount + (entered s a).countP (fun _ => true) ∧
      ∀ host, s'.hostCount host =
        s.hostCount host + (entered s a).countP (fun e => e.1 == host) := by
  cases a with
  | tick d =>
    simp only [step] at h
    split_ifs at h
    cases h; exact ⟨rfl, fun _ => rfl⟩
  | spawn host body => cases h; exact ⟨rfl, fun _ => rfl⟩
  | reportError host => cases h; exact ⟨rfl, fun _ => rfl⟩
  | reportSuccess host => cases h; exact ⟨rfl, fun _ => rfl⟩
  | leave i =>
    obtain ⟨t, -, -, rfl⟩ := leave_inv h
    exact ⟨rfl, fun _ => rfl⟩
  | cancel i =>
    obtain ⟨t, -, hc⟩ := cancel_cancels h
    cases hc <;> exact ⟨rfl, fun _ => rfl⟩
  | resume i =>
    obtain ⟨t, ht, hm⟩ := resume_moves h
    simp only [entered, ht]
    cases hm with
    | refuse e hp | letIn hp | wake w hp | takeGlobal hp =>
      simp only [hp, reduceCtorEq, if_false, List.countP_nil]
      exact ⟨rfl, fun _ => rfl⟩
    | turn hp =>
      have hne : t.phase ≠ .hostWait := by
        rcases hp with ⟨hp, -⟩ | ⟨w, hp⟩ <;> simp [hp]
      simp [hne]
    | enter hp =>
      simp only [hp, if_true]
      refine ⟨rfl, fun host => ?_⟩
      rw [List.countP_singleton, enter_hostCount]

/-- The counters are what a run was granted. -/
theorem counts_run {ls : List (Act β)} (h : exec (step L) s ls = some s') :
    s'.scanCount = s.scanCount + (slots L s ls).length ∧
      ∀ host, s'.hostCount host =
        s.hostCount host + (slots L s ls).countP (fun e => e.1 == host) := by
  constructor
  · rw [← congrFun List.countP_true (slots L s ls)]
    exact emitted_countP State.scanCount _ (fun _ _ _ h => (counts_step h).1) h
  · intro host
    exact emitted_countP (fun s => s.hostCount host) _ (fun _ _ _ h => (counts_step h).2 host) h

/-! ### Pending tasks -/

/-- Past the budget checks, with no slot yet. -/
def admitted (t : Task β) : Bool :=
  match t.phase with
  | .backoff _ | .bucketLock | .bucketSleep _ | .globalWait | .hostWait => true
  | _ => false

/-- The pending tasks of the hosts `q`. -/
def State.pendingWhere (s : State β) (q : String → Bool) : ℕ :=
  s.tasks.countP fun t => admitted t && q t.host

def State.pending (s : State β) : ℕ := s.pendingWhere fun _ => true

def State.pendingOn (s : State β) (host : String) : ℕ := s.pendingWhere fun h => h == host

/-- The host of the task a step lets past the budget checks. -/
def admits (L : ValidLimits) (s : State β) : Act β → List String
  | .resume i => match s.tasks[i]? with
    | none => []
    | some t => if t.phase = .entering ∧ check L s t.host = none then [t.host] else []
  | _ => []

theorem admitted_afterCheck (s : State β) (t : Task β) (host : String) :
    admitted { t with phase := afterCheck s host } = true := by
  unfold afterCheck
  split_ifs <;> rfl

/-- A task that moves becomes pending when the checks let it in, and no longer is
when it enters its slot. -/
theorem pending_moves (q : String → Bool) {i : ℕ} {t : Task β} (ht : s.tasks[i]? = some t)
    (hm : Moves L s i t s') :
    s'.pendingWhere q + (entered s (.resume i)).countP (fun e => q e.1) ≤
      s.pendingWhere q + (admits L s (.resume i)).countP q := by
  unfold State.pendingWhere
  simp only [entered, admits, ht]
  cases hm with
  | refuse e hp hc =>
    simp only [hp, hc, reduceCtorEq, and_false, if_false, List.countP_nil, Nat.add_zero]
    exact (countP_set_eq ht (by simp [admitted, hp])).le
  | letIn hp hc =>
    have hadd := countP_set_add (y := { t with phase := afterCheck s t.host }) ht
      (fun t => admitted t && q t.host)
    rw [admitted_afterCheck] at hadd
    simp only [admitted, hp, Bool.false_and, Bool.true_and, Bool.false_eq_true, if_false,
      Nat.add_zero] at hadd
    simp only [hp, hc, reduceCtorEq, and_true, if_false, if_true, List.countP_nil,
      List.countP_singleton, Nat.add_zero, setPhase_tasks, admitted]
    exact hadd.le
  | wake w hp =>
    simp only [hp, reduceCtorEq, false_and, if_false, List.countP_nil, Nat.add_zero]
    exact (countP_set_eq ht (by simp [admitted, hp])).le
  | turn hp =>
    have hne : t.phase ≠ .hostWait ∧ t.phase ≠ .entering ∧ admitted t = true := by
      rcases hp with ⟨hp, -⟩ | ⟨w, hp⟩ <;> simp [admitted, hp]
    simp only [hne.1, hne.2.1, false_and, if_false, List.countP_nil, Nat.add_zero]
    rcases bucketTurn_cases s i t with ⟨-, he⟩ | ⟨w, he⟩ <;> rw [he] <;>
      exact (countP_set_eq ht (by rw [hne.2.2]; rfl)).le
  | takeGlobal hp hf =>
    simp only [hp, reduceCtorEq, false_and, if_false, List.countP_nil, Nat.add_zero]
    exact (countP_set_eq ht (by simp [admitted, hp])).le
  | enter hp hf =>
    have hadd := countP_set_add (y := { t with phase := .inSlot }) ht
      (fun t => admitted t && q t.host)
    simp only [admitted, hp, Bool.false_and, Bool.true_and, Bool.false_eq_true, if_false,
      Nat.add_zero] at hadd
    simp only [hp, reduceCtorEq, false_and, if_false, if_true, List.countP_nil,
      List.countP_singleton, Nat.add_zero]
    exact hadd.le

/-- Between the checks and the slot. -/
theorem pending_step (q : String → Bool) {a : Act β} (h : step L s a = some s') :
    s'.pendingWhere q + (entered s a).countP (fun e => q e.1) ≤
      s.pendingWhere q + (admits L s a).countP q := by
  cases a with
  | tick d =>
    simp only [step] at h
    split_ifs at h
    cases h; exact le_rfl
  | spawn host body =>
    cases h
    simp [State.pendingWhere, admitted, entered, admits]
  | reportError host => cases h; exact le_rfl
  | reportSuccess host => cases h; exact le_rfl
  | leave i =>
    obtain ⟨t, ht, hp, rfl⟩ := leave_inv h
    unfold State.pendingWhere
    rw [setPhase_tasks]
    have hadd := countP_set_add (y := { t with phase := .left }) ht
      (fun t => admitted t && q t.host)
    simp only [admitted, hp, Bool.false_and, Bool.false_eq_true, if_false] at hadd
    simp only [entered, admits, List.countP_nil]
    exact hadd.le
  | cancel i =>
    obtain ⟨t, ht, hc⟩ := cancel_cancels h
    have hadd := countP_set_add (y := { t with phase := .cancelled }) ht
      (fun t => admitted t && q t.host)
    simp only [admitted, Bool.false_and, Bool.false_eq_true, if_false, Nat.add_zero] at hadd
    unfold State.pendingWhere
    simp only [entered, admits, List.countP_nil, Nat.add_zero]
    cases hc <;> simp only [setPhase_tasks] <;> simp only [admitted] <;> omega
  | resume i =>
    obtain ⟨t, ht, hm⟩ := resume_moves h
    exact pending_moves q ht hm

/-! ### The budgets -/

/-- The checks let a task in only while the slots granted and the tasks pending
are together below both budgets. -/
def RoomLeft (L : ValidLimits) (s : State β) (a : Act β) : Prop :=
  ∀ host ∈ admits L s a, ((s.scanCount + s.pending : ℕ) : ℤ) < L.perScanBudget ∧
    ((s.hostCount host + s.pendingOn host : ℕ) : ℤ) < L.perHostBudget

instance (L : ValidLimits) (s : State β) (a : Act β) : Decidable (RoomLeft L s a) :=
  inferInstanceAs (Decidable (∀ host ∈ admits L s a, _ ∧ _))

/-- Slots granted and tasks pending fit in the budgets. -/
structure Fits (L : ValidLimits) (s : State β) : Prop where
  scan : ((s.scanCount + s.pending : ℕ) : ℤ) ≤ L.perScanBudget
  host : ∀ host, ((s.hostCount host + s.pendingOn host : ℕ) : ℤ) ≤ L.perHostBudget

theorem fits_init (L : ValidLimits) (now : ℚ) : Fits L (init L now : State β) where
  scan := by
    have := L.perScanBudget_pos
    simp only [init, State.pending, State.pendingWhere, List.countP_nil]
    omega
  host host := by
    have := L.perHostBudget_pos
    rw [init_hostCount]
    simp only [init, State.pendingOn, State.pendingWhere, List.countP_nil]
    omega

theorem admits_cases (L : ValidLimits) (s : State β) (a : Act β) :
    admits L s a = [] ∨ ∃ host, admits L s a = [host] := by
  unfold admits
  split
  · split
    · exact Or.inl rfl
    · split_ifs
      · exact Or.inr ⟨_, rfl⟩
      · exact Or.inl rfl
  · exact Or.inl rfl

theorem fits_step {a : Act β} (hi : Fits L s) (hr : RoomLeft L s a)
    (h : step L s a = some s') : Fits L s' := by
  obtain ⟨hscan, hhost⟩ := counts_step h
  rcases admits_cases L s a with hnil | ⟨host, hone⟩
  · constructor
    · have hp := pending_step (fun _ => true) h
      have := hi.scan
      simp only [hnil, List.countP_nil] at hp
      simp only [State.pending] at this ⊢
      omega
    · intro host
      have hp := pending_step (fun h => h == host) h
      have := hi.host host
      have hc := hhost host
      simp only [hnil, List.countP_nil] at hp
      simp only [State.pendingOn] at this ⊢
      omega
  · obtain ⟨h1, h2⟩ := hr host (by rw [hone]; exact List.mem_singleton_self _)
    constructor
    · have hp := pending_step (fun _ => true) h
      simp only [hone, List.countP_singleton, if_true] at hp
      simp only [State.pending] at h1 ⊢
      omega
    · intro host'
      have hp := pending_step (fun h => h == host') h
      have := hi.host host'
      have hc := hhost host'
      simp only [hone, List.countP_singleton] at hp
      simp only [State.pendingOn] at this h2 ⊢
      by_cases hh : host = host'
      · subst hh
        simp only [beq_self_eq_true, if_true] at hp
        omega
      · simp only [beq_iff_eq, hh, if_false] at hp
        omega

/-- **The budgets.** In every run whose checks leave room for the pending
tasks, no more slots are granted than the budgets allow. -/
theorem within_budgets (L : ValidLimits) (now : ℚ) (ls : List (Act β)) (s : State β)
    (hm : Meets (step L) (RoomLeft L) (init L now) ls)
    (hr : exec (step L) (init L now) ls = some s) :
    (((slots L (init L now) ls).length : ℕ) : ℤ) ≤ L.perScanBudget ∧
      ∀ host, (((slots L (init L now) ls).countP (fun e => e.1 == host) : ℕ) : ℤ) ≤
        L.perHostBudget := by
  have hfits := exec_inv_of_meets (fun _ _ _ => fits_step) (fits_init L now) hm hr
  obtain ⟨hscan, hhost⟩ := counts_run hr
  constructor
  · have hle := hfits.scan
    rw [show (init L now : State β).scanCount = 0 from rfl] at hscan
    omega
  · intro host
    have hle := hfits.host host
    have hc := hhost host
    rw [init_hostCount] at hc
    omega

/-! ### A budget of two slots, and three -/

/-- Two slots for the scan and for each host, one connection per second. -/
def twoSlots : ValidLimits where
  globalConcurrency := 2
  perHostConcurrency := 2
  connectionsPerSecond := 1
  connectTimeout := 1
  perHostBudget := 2
  perScanBudget := 2
  valid := by decide +kernel

/-- Task `i` takes the last token, both permits and its slot, and leaves. -/
def throughSlot (i : ℕ) : List (Act Unit) := [.resume i, .resume i, .resume i, .leave i]

/-- Two tasks for one host, one after the other. -/
def inTurn : List (Act Unit) :=
  [.spawn "10.0.0.1" (), .resume 0] ++ throughSlot 0 ++
    [.tick 1, .spawn "10.0.0.1" (), .resume 1] ++ throughSlot 1

/-- One task takes the bucket's token. Two more pass the checks: one sleeps in
the bucket, the other waits for its lock. Both are granted a slot. -/
def checkedTogether : List (Act Unit) :=
  [.spawn "10.0.0.1" (), .resume 0] ++ throughSlot 0 ++
    [.spawn "10.0.0.1" (), .spawn "10.0.0.1" (), .resume 1, .resume 1, .resume 2, .tick 1] ++
    throughSlot 1 ++ [.tick 1] ++ throughSlot 2

theorem within_budgets_inTurn :
    (((slots twoSlots (init twoSlots 0) inTurn).length : ℕ) : ℤ) ≤ 2 ∧
      ∀ host, (((slots twoSlots (init twoSlots 0) inTurn).countP (fun e => e.1 == host) : ℕ) : ℤ) ≤
        2 :=
  within_budgets twoSlots 0 inTurn _ (by decide +kernel)
    (Option.some_get (x := exec (step twoSlots) (init twoSlots 0) inTurn) (by decide +kernel)).symm

/-- Neither budget bounds the slots of every run. -/
theorem not_within_budgets : ¬ ∀ (L : ValidLimits) (now : ℚ) (ls : List (Act Unit))
    (s : State Unit), exec (step L) (init L now) ls = some s →
      (((slots L (init L now) ls).length : ℕ) : ℤ) ≤ L.perScanBudget ∧
        ∀ host, (((slots L (init L now) ls).countP (fun e => e.1 == host) : ℕ) : ℤ) ≤
          L.perHostBudget := by
  intro h
  have hrun := h twoSlots 0 checkedTogether _
    (Option.some_get (x := exec (step twoSlots) (init twoSlots 0) checkedTogether)
      (by decide +kernel)).symm
  exact absurd hrun.1 (by decide +kernel)

end Governor
end ScanLedger
