/-
# Slots

Two consequences of the permits adding up. The slots there are stay within the
limits, and when all tasks have ended every permit is free again, whatever was
cancelled and wherever (`slots_conserved`). And the governor does not deadlock:
while a task has not ended, one is in its slot, and gives two permits back when
it leaves, or one can go on in `_acquire` (`no_deadlock`). A task that waits for
a host's permit has another in a slot of that host ahead of it, one that waits
for the global permit has such a task or one that waits for a host, and one
that waits for the bucket's lock has one that sleeps with it (`LockHeld`).

Key definitions: `Phase.ended`, `SlotsConserved`, `LockHeld`, `CanGoOn`.
Key theorems: `slots_conserved`, `lockHeld_run`, `no_deadlock`.
-/
import ScanLedger.Permits

namespace ScanLedger
namespace Governor

open Run Tasks

variable {β : Type} {L : ValidLimits} {s s' : State β} {i : ℕ} {t t' : Task β}

/-- Neither in the slot nor on the way to it. -/
def Phase.ended : Phase → Bool
  | .left | .refused _ | .cancelled => true
  | .entering | .backoff _ | .bucketLock | .bucketSleep _ | .globalWait | .hostWait | .inSlot =>
    false

/-! ### Conservation -/

/-- The slots are within the limits, and no permit is lost or made. -/
structure SlotsConserved (L : ValidLimits) (s : State β) : Prop where
  slots : ((s.tasks.countP (·.phase == .inSlot) : ℕ) : ℤ) ≤ L.globalConcurrency
  hostSlots : ∀ host, ((s.tasks.countP (inSlotOn host) : ℕ) : ℤ) ≤ L.perHostConcurrency
  globals : (s.globalFree : ℤ) + (s.tasks.countP holdsGlobal : ℕ) = L.globalConcurrency
  hosts : ∀ host, (s.hostFree L host : ℤ) + (s.tasks.countP (inSlotOn host) : ℕ) =
    L.perHostConcurrency
  idle : (∀ t ∈ s.tasks, t.phase.ended = true) → (s.globalFree : ℤ) = L.globalConcurrency ∧
    ∀ host, (s.hostFree L host : ℤ) = L.perHostConcurrency

theorem ValidLimits.globalPermits_eq (L : ValidLimits) :
    (L.globalPermits : ℤ) = L.globalConcurrency :=
  Int.toNat_of_nonneg L.globalConcurrency_pos.le

theorem ValidLimits.hostPermits_eq (L : ValidLimits) :
    (L.hostPermits : ℤ) = L.perHostConcurrency :=
  Int.toNat_of_nonneg L.perHostConcurrency_pos.le

theorem holdsGlobal_of_inSlot (h : (t.phase == .inSlot) = true) : holdsGlobal t = true := by
  rw [holdsGlobal, eq_of_beq h]

theorem inSlot_of_inSlotOn {host : String} (h : inSlotOn host t = true) :
    t.phase = .inSlot ∧ t.host = host := by
  obtain ⟨hp, hh⟩ := Bool.and_eq_true_iff.mp h
  exact ⟨eq_of_beq hp, eq_of_beq hh⟩

/-- A task that has ended holds no permit. -/
theorem holdsGlobal_of_ended (h : t.phase.ended = true) : holdsGlobal t = false := by
  unfold holdsGlobal
  cases hp : t.phase <;> simp_all [Phase.ended]

theorem Permits.conserved (h : Permits L s) : SlotsConserved L s := by
  have hglobals : (s.globalFree : ℤ) + (s.tasks.countP holdsGlobal : ℕ) = L.globalConcurrency := by
    rw [← L.globalPermits_eq, ← h.globals, Nat.cast_add]
  have hhosts : ∀ host, (s.hostFree L host : ℤ) + (s.tasks.countP (inSlotOn host) : ℕ) =
      L.perHostConcurrency := fun host => by
    rw [← L.hostPermits_eq, ← h.hosts host, Nat.cast_add]
  refine ⟨?_, fun host => ?_, hglobals, hhosts, fun hended => ?_⟩
  · have hle : s.tasks.countP (·.phase == .inSlot) ≤ s.tasks.countP holdsGlobal :=
      List.countP_mono_left fun t _ ht => holdsGlobal_of_inSlot ht
    omega
  · have hsum := hhosts host
    omega
  · have hnone : s.tasks.countP holdsGlobal = 0 := List.countP_eq_zero.mpr fun t ht => by
      rw [holdsGlobal_of_ended (hended t ht)]
      exact Bool.false_ne_true
    refine ⟨by omega, fun host => ?_⟩
    have hzero : s.tasks.countP (inSlotOn host) = 0 := List.countP_eq_zero.mpr fun t ht hslot => by
      have hphase := (inSlot_of_inSlotOn hslot).1
      have hend := hended t ht
      rw [hphase] at hend
      cases hend
    have hsum := hhosts host
    omega

/-- **Slots are conserved and capped** in every state that a governor's tasks
reach, whatever is cancelled. -/
theorem slots_conserved (L : ValidLimits) (now : ℚ) (ls : List (Act β)) (s : State β)
    (h : exec (step L) (init L now) ls = some s) : SlotsConserved L s :=
  (permits_run L now ls s h).conserved

/-- One task goes through its slot; the next is cancelled while it holds a global
permit and waits for its host. -/
def cancelledAtHost : List (Act Unit) :=
  [.spawn "10.0.0.1" (), .resume 0] ++ throughSlot 0 ++
    [.tick 1, .spawn "10.0.0.1" (), .resume 1, .resume 1, .resume 1, .cancel 1]

theorem slots_conserved_cancelledAtHost : SlotsConserved twoSlots
    ((exec (step twoSlots) (init twoSlots 0) cancelledAtHost).get (by decide +kernel)) :=
  slots_conserved twoSlots 0 cancelledAtHost _ (Option.some_get _).symm

/-! ### The bucket's lock -/

/-- Whoever has the lock sleeps with it. -/
def LockHeld (s : State β) : Prop :=
  s.bucket.locked = true → ∃ t ∈ s.tasks, ∃ wake, t.phase = .bucketSleep wake

/-- A task that does not sleep in the bucket moves, and leaves the lock alone. -/
theorem LockHeld.move (hi : LockHeld s) (ht : s.tasks[i]? = some t)
    (hp : ∀ wake, t.phase ≠ .bucketSleep wake) (hb : s'.bucket.locked = s.bucket.locked)
    (htasks : s'.tasks = s.tasks.set i t') : LockHeld s' := by
  intro hl
  obtain ⟨z, hz, wake, hwake⟩ := hi (hb ▸ hl)
  have hne : z ≠ t := by
    rintro rfl
    exact hp wake hwake
  rw [htasks]
  exact ⟨z, mem_set_of_ne ht hz hne, wake, hwake⟩

theorem lockHeld_step {a : Act β} (hi : LockHeld s) (h : step L s a = some s') : LockHeld s' := by
  cases a with
  | tick d =>
    simp only [step] at h
    split_ifs at h
    cases h
    exact hi
  | spawn host body =>
    cases h
    intro hl
    obtain ⟨z, hz, hwake⟩ := hi hl
    exact ⟨z, List.mem_append_left _ hz, hwake⟩
  | reportError host | reportSuccess host =>
    cases h
    exact hi
  | leave i =>
    obtain ⟨t, ht, hp, rfl⟩ := leave_inv h
    exact hi.move ht (by simp [hp]) rfl rfl
  | cancel i =>
    obtain ⟨t, ht, hc⟩ := cancel_cancels h
    cases hc with
    | before hp =>
      refine hi.move ht (fun wake hw => ?_) rfl rfl
      rcases hp with hp | ⟨w, hp⟩ | hp | hp <;> rw [hp] at hw <;> cases hw
    | sleeping w hp =>
      -- the lock is given back
      intro hl
      cases hl
    | holding hp => exact hi.move ht (by simp [hp]) rfl rfl
  | resume i =>
    obtain ⟨t, ht, hm⟩ := resume_moves h
    cases hm with
    | refuse e hp hc => exact hi.move ht (by simp [hp]) rfl rfl
    | letIn hp hc => exact hi.move ht (by simp [hp]) rfl rfl
    | wake w hp => exact hi.move ht (by simp [hp]) rfl rfl
    | takeGlobal hp hf => exact hi.move ht (by simp [hp]) rfl rfl
    | enter hp hf => exact hi.move ht (by simp [hp]) rfl rfl
    | turn hp =>
      rcases bucketTurn_cases s i t with ⟨-, he⟩ | ⟨wake, he⟩ <;> rw [he]
      · intro hl
        cases hl
      · intro _
        obtain ⟨hlt, -⟩ := List.getElem?_eq_some_iff.mp ht
        refine ⟨{ t with phase := .bucketSleep wake }, ?_, wake, rfl⟩
        rw [setPhase_tasks]
        exact List.mem_set hlt _

theorem lockHeld_run (L : ValidLimits) (now : ℚ) (ls : List (Act β)) (s : State β)
    (h : exec (step L) (init L now) ls = some s) : LockHeld s :=
  exec_inv (fun _ _ _ hi hs => lockHeld_step hi hs) (fun hl => by cases hl) h

/-! ### Progress -/

/-- A task can leave its slot, which gives both permits back, or go on to the
next await of `_acquire`. -/
inductive CanGoOn (L : ValidLimits) (s : State β) (i : ℕ) (t : Task β) : Prop
  | leaves {s' : State β} (hp : t.phase = .inSlot) (hs : step L s (.leave i) = some s')
      (hglobal : s'.globalFree = s.globalFree + 1)
      (hhost : s'.hostFree L t.host = s.hostFree L t.host + 1)
  | acquires {s' : State β} (hs : step L s (.resume i) = some s')

theorem canGoOn_of_inSlot (ht : s.tasks[i]? = some t) (hp : t.phase = .inSlot) :
    CanGoOn L s i t := by
  have hs : step L s (.leave i) = some ({ s.setHostFree t.host (s.hostFree L t.host + 1) with
      globalFree := s.globalFree + 1 }.setPhase i t .left) := by
    simp only [step, leave, ht, hp]
  refine .leaves hp hs rfl ?_
  change (s.setHostFree t.host (s.hostFree L t.host + 1)).hostFree L t.host = _
  rw [setHostFree_hostFree, if_pos rfl]

/-- Of the tasks that have not ended, those that cannot go on. -/
theorem waits_or_canGoOn (ht : s.tasks[i]? = some t) (h : t.phase.ended = false) :
    CanGoOn L s i t ∨ t.phase = .bucketLock ∧ s.bucket.locked = true ∨
      t.phase = .globalWait ∧ s.globalFree = 0 ∨ t.phase = .hostWait ∧ s.hostFree L t.host = 0 := by
  have hgo : ∀ {s'}, resume L s i = some s' → CanGoOn L s i t := fun hs => .acquires hs
  cases hp : t.phase with
  | entering =>
    left
    cases hc : check L s t.host with
    | none => exact hgo (by simp only [resume, ht, hp, hc]; rfl)
    | some e => exact hgo (by simp only [resume, ht, hp, hc]; rfl)
  | backoff w => exact Or.inl (hgo (by simp only [resume, ht, hp]; rfl))
  | bucketLock =>
    cases hl : s.bucket.locked with
    | false => exact Or.inl (hgo (by simp only [resume, ht, hp, hl]; rfl))
    | true => exact Or.inr (Or.inl ⟨rfl, rfl⟩)
  | bucketSleep w => exact Or.inl (hgo (by simp only [resume, ht, hp]; rfl))
  | globalWait =>
    by_cases hf : 0 < s.globalFree
    · exact Or.inl (hgo (by simp only [resume, ht, hp, hf, if_true]; rfl))
    · exact Or.inr (Or.inr (Or.inl ⟨rfl, Nat.eq_zero_of_not_pos hf⟩))
  | hostWait =>
    by_cases hf : 0 < s.hostFree L t.host
    · exact Or.inl (hgo (by simp only [resume, ht, hp, hf, if_true]; rfl))
    · exact Or.inr (Or.inr (Or.inr ⟨rfl, Nat.eq_zero_of_not_pos hf⟩))
  | inSlot => exact Or.inl (canGoOn_of_inSlot ht hp)
  | left | refused e | cancelled =>
    rw [hp] at h
    cases h

/-- Where a host has no permit left, a task is in a slot of it. -/
theorem Permits.exists_of_hostFree (h : Permits L s) {host : String}
    (hf : s.hostFree L host = 0) : ∃ t ∈ s.tasks, t.phase = .inSlot := by
  have hsum := h.hosts host
  have hlimit := L.hostPermits_eq
  have hpos := L.perHostConcurrency_pos
  have hcount : 0 < s.tasks.countP (inSlotOn host) := by omega
  obtain ⟨t, ht, hslot⟩ := List.countP_pos_iff.mp hcount
  exact ⟨t, ht, (inSlot_of_inSlotOn hslot).1⟩

/-- Where no global permit is left, a task holds one. -/
theorem Permits.exists_of_globalFree (h : Permits L s) (hf : s.globalFree = 0) :
    ∃ t ∈ s.tasks, t.phase = .inSlot ∨ t.phase = .hostWait := by
  have hsum := h.globals
  have hlimit := L.globalPermits_eq
  have hpos := L.globalConcurrency_pos
  have hcount : 0 < s.tasks.countP holdsGlobal := by omega
  obtain ⟨t, ht, hholds⟩ := List.countP_pos_iff.mp hcount
  unfold holdsGlobal at hholds
  split at hholds
  · rename_i hp
    exact ⟨t, ht, Or.inr hp⟩
  · rename_i hp
    exact ⟨t, ht, Or.inl hp⟩
  · cases hholds

/-- **No deadlock.** In every state that a governor's tasks reach, whatever is
cancelled, if a task has not ended then one can go on. -/
theorem no_deadlock (L : ValidLimits) (now : ℚ) (ls : List (Act β)) (s : State β)
    (h : exec (step L) (init L now) ls = some s) (hopen : ∃ t ∈ s.tasks, t.phase.ended = false) :
    ∃ i t, s.tasks[i]? = some t ∧ t.phase.ended = false ∧ CanGoOn L s i t := by
  have hpermits := permits_run L now ls s h
  have hinSlot : (∃ t ∈ s.tasks, t.phase = .inSlot) →
      ∃ i t, s.tasks[i]? = some t ∧ t.phase.ended = false ∧ CanGoOn L s i t := by
    rintro ⟨t, hmem, hp⟩
    obtain ⟨i, ht⟩ := List.getElem?_of_mem hmem
    exact ⟨i, t, ht, by rw [hp]; rfl, canGoOn_of_inSlot ht hp⟩
  -- whoever waits for a host is behind a task in a slot of it
  have hhost : (∃ t ∈ s.tasks, t.phase = .hostWait) →
      ∃ i t, s.tasks[i]? = some t ∧ t.phase.ended = false ∧ CanGoOn L s i t := by
    rintro ⟨t, hmem, hp⟩
    obtain ⟨i, ht⟩ := List.getElem?_of_mem hmem
    have hended : t.phase.ended = false := by rw [hp]; rfl
    rcases waits_or_canGoOn (L := L) ht hended with hgo | ⟨hl, -⟩ | ⟨hg, -⟩ | ⟨-, hf⟩
    · exact ⟨i, t, ht, hended, hgo⟩
    · rw [hp] at hl
      cases hl
    · rw [hp] at hg
      cases hg
    · exact hinSlot (hpermits.exists_of_hostFree hf)
  obtain ⟨t, hmem, hended⟩ := hopen
  obtain ⟨i, ht⟩ := List.getElem?_of_mem hmem
  rcases waits_or_canGoOn (L := L) ht hended with hgo | ⟨-, hl⟩ | ⟨-, hf⟩ | ⟨hp, -⟩
  · exact ⟨i, t, ht, hended, hgo⟩
  · -- the sleeper that has the lock wakes up
    obtain ⟨z, hz, wake, hp⟩ := lockHeld_run L now ls s h hl
    obtain ⟨j, hj⟩ := List.getElem?_of_mem hz
    have hresume : step L s (.resume j) = some (bucketTurn s j z) := by
      simp only [step, resume, hj, hp]
    exact ⟨j, z, hj, by rw [hp]; rfl, .acquires hresume⟩
  · obtain ⟨z, hz, hp | hp⟩ := hpermits.exists_of_globalFree hf
    · exact hinSlot ⟨z, hz, hp⟩
    · exact hhost ⟨z, hz, hp⟩
  · exact hhost ⟨t, hmem, hp⟩

/-- One host permit, and two global ones. -/
def oneSlot : ValidLimits := { twoSlots with perHostConcurrency := 1, valid := by decide +kernel }

/-- One task is in its slot, and the other holds the last global permit while it
waits for the host. -/
def behindSlot : List (Act Unit) :=
  [.spawn "10.0.0.1" (), .resume 0, .resume 0, .resume 0, .resume 0, .tick 1,
    .spawn "10.0.0.1" (), .resume 1, .resume 1, .resume 1]

theorem no_deadlock_behindSlot :
    let s := (exec (step oneSlot) (init oneSlot 0) behindSlot).get (by decide +kernel)
    ∃ i t, s.tasks[i]? = some t ∧ t.phase.ended = false ∧ CanGoOn oneSlot s i t :=
  no_deadlock oneSlot 0 behindSlot _ (Option.some_get _).symm (by decide +kernel)

end Governor
end ScanLedger
