/-
# The governor's permits

The free permits of the global semaphore and the tasks that hold one add up to
`global_concurrency`, and those of each host's semaphore and the host's slots
add up to `per_host_concurrency`, in every reachable state: a permit is taken,
given back or lost in no other way than with a task's move.

Key definitions: `holdsGlobal`, `inSlotOn`, `Permits`.
Key theorems: `Permits.set`, `permits_step`, `permits_run`.
-/
import ScanLedger.Budgets

namespace ScanLedger
namespace Governor

open Run Tasks

variable {β : Type} {L : ValidLimits} {s s' : State β} {i : ℕ} {t t' : Task β}

/-- Holds a permit of the global semaphore. -/
def holdsGlobal (t : Task β) : Bool :=
  match t.phase with
  | .hostWait | .inSlot => true
  | _ => false

/-- Holds a permit of the host's semaphore. -/
def inSlotOn (host : String) (t : Task β) : Bool := t.phase == .inSlot && t.host == host

/-- Free permits and held ones add up. -/
structure Permits (L : ValidLimits) (s : State β) : Prop where
  globals : s.globalFree + s.tasks.countP holdsGlobal = L.globalPermits
  hosts : ∀ host, s.hostFree L host + s.tasks.countP (inSlotOn host) = L.hostPermits

theorem permits_init (L : ValidLimits) (now : ℚ) : Permits L (init L now : State β) :=
  ⟨rfl, fun _ => rfl⟩

theorem setHostFree_hostFree (s : State β) (host : String) (n : ℕ) (h : String) :
    (s.setHostFree host n).hostFree L h = if h = host then n else s.hostFree L h := by
  unfold State.hostFree State.setHostFree
  split_ifs with hh
  · subst hh
    simp
  · rw [AList.lookup_insert_ne hh]

/-- A task moves, and what it holds with it. -/
theorem Permits.set (hi : Permits L s) (ht : s.tasks[i]? = some t)
    (htasks : s'.tasks = s.tasks.set i t')
    (hg : s'.globalFree + (if holdsGlobal t' then 1 else 0) =
      s.globalFree + if holdsGlobal t then 1 else 0)
    (hh : ∀ host, s'.hostFree L host + (if inSlotOn host t' then 1 else 0) =
      s.hostFree L host + if inSlotOn host t then 1 else 0) : Permits L s' := by
  constructor
  · have hadd := countP_set_add (y := t') ht holdsGlobal
    have := hi.globals
    rw [htasks]
    omega
  · intro host
    have hadd := countP_set_add (y := t') ht (inSlotOn host)
    have := hi.hosts host
    have := hh host
    rw [htasks]
    omega

/-- A move between two phases without a permit. -/
theorem Permits.setPhase (hi : Permits L s) (ht : s.tasks[i]? = some t) (p : Phase)
    (htasks : s'.tasks = s.tasks.set i { t with phase := p })
    (hg : s'.globalFree = s.globalFree) (hh : ∀ host, s'.hostFree L host = s.hostFree L host)
    (h1 : holdsGlobal t = false) (h2 : holdsGlobal { t with phase := p } = false) :
    Permits L s' := by
  have hno : ∀ (t : Task β) host, holdsGlobal t = false → inSlotOn host t = false := by
    intro t host h
    unfold holdsGlobal at h
    unfold inSlotOn
    split at h <;> simp_all
  refine hi.set ht htasks ?_ fun host => ?_
  · rw [hg, h1, h2]
  · rw [hh, hno _ host h1, hno _ host h2]

/-- A cancelled acquire gives back the permit it took. -/
theorem Permits.cancel (hi : Permits L s) (ht : s.tasks[i]? = some t) (hc : Cancels s i t s') :
    Permits L s' := by
  cases hc with
  | before hp =>
    refine hi.setPhase ht .cancelled rfl rfl (fun _ => rfl) ?_ rfl
    rcases hp with hp | ⟨w, hp⟩ | hp | hp <;> simp [holdsGlobal, hp]
  | sleeping w hp =>
    exact hi.setPhase ht .cancelled rfl rfl (fun _ => rfl) (by simp [holdsGlobal, hp]) rfl
  | holding hp =>
    refine hi.set ht (setPhase_tasks _ i t .cancelled) ?_ fun host => ?_
    · simp [holdsGlobal, hp]
    · change s.hostFree L host + _ = _
      simp [inSlotOn, hp]

/-- A task that moves takes a permit from those that are free. -/
theorem Permits.move (hi : Permits L s) (ht : s.tasks[i]? = some t) (hm : Moves L s i t s') :
    Permits L s' := by
  cases hm with
  | refuse e hp hc =>
    exact hi.setPhase ht (.refused e) rfl rfl (fun _ => rfl) (by simp [holdsGlobal, hp]) rfl
  | letIn hp hc =>
    refine hi.setPhase ht (afterCheck s t.host) rfl rfl (fun _ => rfl)
      (by simp [holdsGlobal, hp]) ?_
    unfold afterCheck; split_ifs <;> rfl
  | wake w hp =>
    exact hi.setPhase ht .bucketLock rfl rfl (fun _ => rfl) (by simp [holdsGlobal, hp]) rfl
  | turn hp =>
    have hno : holdsGlobal t = false := by
      rcases hp with ⟨hp, -⟩ | ⟨w, hp⟩ <;> simp [holdsGlobal, hp]
    rcases bucketTurn_cases s i t with ⟨-, he⟩ | ⟨w, he⟩ <;> rw [he]
    · exact hi.setPhase ht .globalWait rfl rfl (fun _ => rfl) hno rfl
    · exact hi.setPhase ht (.bucketSleep w) rfl rfl (fun _ => rfl) hno rfl
  | takeGlobal hp hf =>
    refine hi.set ht (setPhase_tasks _ i t .hostWait) ?_ fun host => ?_
    · simp only [holdsGlobal, hp, if_true, setPhase_globalFree]
      simp only [Bool.false_eq_true, if_false]
      omega
    · change s.hostFree L host + _ = _
      simp [inSlotOn, hp]
  | enter hp hf =>
    refine hi.set ht rfl ?_ fun host => ?_
    · change s.globalFree + _ = _
      simp [holdsGlobal, hp]
    · change (s.setHostFree t.host (s.hostFree L t.host - 1)).hostFree L host + _ = _
      rw [setHostFree_hostFree]
      by_cases hh : host = t.host
      · subst hh
        simp only [inSlotOn, hp, if_true, beq_self_eq_true, Bool.and_self]
        simp
        omega
      · simp [inSlotOn, hp, hh, Ne.symm hh]

theorem permits_step {a : Act β} (hi : Permits L s) (h : step L s a = some s') :
    Permits L s' := by
  cases a with
  | tick d =>
    simp only [step] at h
    split_ifs at h
    cases h; exact ⟨hi.globals, hi.hosts⟩
  | spawn host body =>
    cases h
    constructor
    · have := hi.globals
      simpa [holdsGlobal] using this
    · intro h
      change s.hostFree L h + _ = _
      simpa [inSlotOn] using hi.hosts h
  | reportError host => cases h; exact ⟨hi.globals, hi.hosts⟩
  | reportSuccess host => cases h; exact ⟨hi.globals, hi.hosts⟩
  | leave i =>
    obtain ⟨t, ht, hp, rfl⟩ := leave_inv h
    refine hi.set ht (setPhase_tasks _ i t .left) ?_ fun host => ?_
    · simp [holdsGlobal, hp]
    · have hfree := setHostFree_hostFree (L := L) s t.host (s.hostFree L t.host + 1) host
      change (s.setHostFree t.host (s.hostFree L t.host + 1)).hostFree L host + _ = _
      rw [hfree]
      by_cases hh : host = t.host
      · subst hh; simp [inSlotOn, hp]
      · simp [inSlotOn, hp, hh, Ne.symm hh]
  | cancel i =>
    obtain ⟨t, ht, hc⟩ := cancel_cancels h
    exact hi.cancel ht hc
  | resume i =>
    obtain ⟨t, ht, hm⟩ := resume_moves h
    exact hi.move ht hm

/-- The permits add up in every reachable state. -/
theorem permits_run (L : ValidLimits) (now : ℚ) (ls : List (Act β)) (s : State β)
    (h : exec (step L) (init L now) ls = some s) : Permits L s :=
  exec_inv (fun _ _ _ hi hs => permits_step hi hs) (permits_init L now) h

end Governor
end ScanLedger
