/-
# Turns under a lock

Tasks ask for grants of a resource that is behind a lock. A task that has the
lock turns the loop: a turn grants, and the lock is given back, or it sleeps
with the lock held and turns again. A task is cancelled where it waits for the
lock, or where it sleeps, and then it gives the lock back. Time passes between
the steps as it likes.

Whoever sleeps has the lock, so there is one sleeper at most, and the resource
it finds after its sleep is the one it left (`asleep_step`). Where a turn always
grants once its own sleep is over, no task sleeps twice (`sleeps_le_one`). Where
a level of the resource pays for the grants, it is a meter of them (`meter`).

Key definitions: `LockedLoop`, `LockedLoop.step`, `LockedLoop.grants`,
`LockedLoop.sleeps`, `LockedLoop.Timely`.
Key theorems: `LockedLoop.step_moves`, `LockedLoop.exec_resource`,
`LockedLoop.sleeps_le_one`, `LockedLoop.meter`.
-/
import ScanLedger.Lib.Meter
import ScanLedger.Lib.Tasks

/-- A resource behind a lock. A turn at a time leaves the resource, and the time
until which to sleep where it grants nothing. -/
structure LockedLoop (ρ K : Type) where
  turn : ρ → K → ρ × Option K
  locked : ρ → Bool
  unlock : ρ → ρ
  locked_turn : ∀ r now, locked (turn r now).1 = (turn r now).2.isSome
  locked_unlock : ∀ r, locked (unlock r) = false

namespace LockedLoop

open Run Tasks

/-- Where a task is. -/
inductive Phase (K : Type)
  | waiting
  | sleeping (wake : K)
  | granted
  | cancelled
  deriving DecidableEq, Repr

def Phase.isSleeping {K : Type} : Phase K → Bool
  | .sleeping _ => true
  | _ => false

structure State (ρ K : Type) where
  clock : K
  resource : ρ
  tasks : List (Phase K)

inductive Act (K : Type)
  | tick (d : K)
  /-- A task asks for a grant. -/
  | call
  /-- Task `i` runs from where it waits to where it waits next. -/
  | resume (i : ℕ)
  | cancel (i : ℕ)

section

variable {ρ K : Type}

/-- Task `i` turns the loop. -/
def turnBy (L : LockedLoop ρ K) (s : State ρ K) (i : ℕ) : State ρ K :=
  match L.turn s.resource s.clock with
  | (r, none) => { s with resource := r, tasks := s.tasks.set i .granted }
  | (r, some wake) => { s with resource := r, tasks := s.tasks.set i (.sleeping wake) }

def step [Zero K] [Add K] [LE K] [DecidableLE K] (L : LockedLoop ρ K) (s : State ρ K) :
    Act K → Option (State ρ K)
  | .tick d => if 0 ≤ d then some { s with clock := s.clock + d } else none
  | .call => some { s with tasks := s.tasks ++ [.waiting] }
  | .resume i => match s.tasks[i]? with
    | some .waiting => if L.locked s.resource then none else some (L.turnBy s i)
    | some (.sleeping _) => some (L.turnBy s i)
    | _ => none
  | .cancel i => match s.tasks[i]? with
    | some .waiting => some { s with tasks := s.tasks.set i .cancelled }
    | some (.sleeping _) => some
        { s with resource := L.unlock s.resource, tasks := s.tasks.set i .cancelled }
    | _ => none

def init (r : ρ) (now : K) : State ρ K := ⟨now, r, []⟩

/-- The grant of a step: whose, and when. -/
def grants (L : LockedLoop ρ K) (s : State ρ K) : Act K → List (ℕ × K)
  | .resume i => if (L.turn s.resource s.clock).2.isNone then [(i, s.clock)] else []
  | _ => []

/-- The task that goes to sleep in a step. -/
def sleeps (L : LockedLoop ρ K) (s : State ρ K) : Act K → List ℕ
  | .resume i => if (L.turn s.resource s.clock).2.isSome then [i] else []
  | _ => []

/-- Sleeps last as long as they were asked to. -/
def Timely [LE K] (s : State ρ K) : Act K → Prop
  | .resume i => ∀ wake, s.tasks[i]? = some (.sleeping wake) → wake ≤ s.clock
  | _ => True

end

/-! ### What a step can do -/

section

variable {ρ K : Type} {L : LockedLoop ρ K} {s s' : State ρ K} {a : Act K} {i : ℕ}

/-- Task `i` has the lock, or takes it. -/
def CanTurn (L : LockedLoop ρ K) (s : State ρ K) (i : ℕ) : Prop :=
  (s.tasks[i]? = some .waiting ∧ L.locked s.resource = false) ∨
    ∃ wake, s.tasks[i]? = some (.sleeping wake)

inductive Moves [Zero K] [Add K] [LE K] (L : LockedLoop ρ K) (s : State ρ K) :
    Act K → State ρ K → Prop
  | tick {d : K} (h : 0 ≤ d) : Moves L s (.tick d) { s with clock := s.clock + d }
  | call : Moves L s .call { s with tasks := s.tasks ++ [.waiting] }
  | grant {i : ℕ} {r : ρ} (h : CanTurn L s i) (hturn : L.turn s.resource s.clock = (r, none)) :
    Moves L s (.resume i) { s with resource := r, tasks := s.tasks.set i .granted }
  | sleep {i : ℕ} {r : ρ} {wake : K} (h : CanTurn L s i)
    (hturn : L.turn s.resource s.clock = (r, some wake)) :
    Moves L s (.resume i) { s with resource := r, tasks := s.tasks.set i (.sleeping wake) }
  | giveUp {i : ℕ} (h : s.tasks[i]? = some .waiting) :
    Moves L s (.cancel i) { s with tasks := s.tasks.set i .cancelled }
  | giveBack {i : ℕ} {wake : K} (h : s.tasks[i]? = some (.sleeping wake)) :
    Moves L s (.cancel i)
      { s with resource := L.unlock s.resource, tasks := s.tasks.set i .cancelled }

theorem turnBy_moves [Zero K] [Add K] [LE K] (h : CanTurn L s i) :
    Moves L s (.resume i) (L.turnBy s i) := by
  unfold turnBy
  rcases hturn : L.turn s.resource s.clock with ⟨r, _ | wake⟩
  · exact .grant h hturn
  · exact .sleep h hturn

theorem step_moves [Zero K] [Add K] [LE K] [DecidableLE K] (h : L.step s a = some s') :
    Moves L s a s' := by
  cases a with
  | tick d =>
    simp only [step] at h
    split_ifs at h with hd
    cases h
    exact .tick hd
  | call =>
    cases h
    exact .call
  | resume i =>
    simp only [step] at h
    split at h
    · rename_i hwaiting
      split_ifs at h with hlocked
      cases h
      exact turnBy_moves (.inl ⟨hwaiting, by simpa using hlocked⟩)
    · rename_i wake hsleeping
      cases h
      exact turnBy_moves (.inr ⟨wake, hsleeping⟩)
    · cases h
  | cancel i =>
    simp only [step] at h
    split at h
    · rename_i hwaiting
      cases h
      exact .giveUp hwaiting
    · rename_i wake hsleeping
      cases h
      exact .giveBack hsleeping
    · cases h

theorem sleepers_le_one
    (hcount : s.tasks.countP Phase.isSleeping = if L.locked s.resource then 1 else 0) :
    s.tasks.countP Phase.isSleeping ≤ 1 := by
  rw [hcount]
  split_ifs <;> omega

/-- A turn is taken with no other task asleep, so one sleeper is left at most. -/
theorem CanTurn.count (h : CanTurn L s i)
    (hcount : s.tasks.countP Phase.isSleeping = if L.locked s.resource then 1 else 0)
    (p : Phase K) :
    (s.tasks.set i p).countP Phase.isSleeping = if p.isSleeping then 1 else 0 := by
  rcases h with ⟨hwaiting, hfree⟩ | ⟨wake, hsleeping⟩
  · have hadd := countP_set_add (y := p) hwaiting Phase.isSleeping
    rw [hcount, hfree] at hadd
    simpa [Phase.isSleeping] using hadd
  · have hadd := countP_set_add (y := p) hsleeping Phase.isSleeping
    have hle := sleepers_le_one hcount
    have hpos : 0 < s.tasks.countP Phase.isSleeping :=
      List.countP_pos_iff.mpr ⟨_, List.mem_of_getElem? hsleeping, rfl⟩
    have hone : Phase.isSleeping (.sleeping wake) = true := rfl
    rw [hone] at hadd
    simp only [if_true] at hadd
    omega

/-- The one who has turned is the only one who can be asleep. -/
theorem CanTurn.others (h : CanTurn L s i)
    (hcount : s.tasks.countP Phase.isSleeping = if L.locked s.resource then 1 else 0)
    {p q : Phase K} (hq : q ∈ s.tasks.set i p) : q = p ∨ q.isSleeping = false := by
  rcases h with ⟨hwaiting, hfree⟩ | ⟨wake, hsleeping⟩
  · rw [hfree, if_neg Bool.false_ne_true, List.countP_eq_zero] at hcount
    rcases mem_set hq with hp | hmem
    · exact .inl hp
    · exact .inr (by simpa using hcount q hmem)
  · exact of_mem_set (sleepers_le_one hcount) hsleeping rfl hq

end

section

variable {ρ K : Type} [Field K] [LinearOrder K] [IsStrictOrderedRing K] {L : LockedLoop ρ K}
  {I : ρ → K → Prop} {s s' : State ρ K} {a : Act K} {r : ρ} {now wake : K} {i : ℕ}

/-! ### The resource over a run -/

/-- What time, turns and given-back locks preserve of the resource. -/
structure Keeps (L : LockedLoop ρ K) (I : ρ → K → Prop) : Prop where
  pass : ∀ {r now later}, I r now → now ≤ later → I r later
  turn : ∀ {r now}, I r now → I (L.turn r now).1 now
  unlock : ∀ {r now}, I r now → I (L.unlock r) now

theorem Keeps.step (hI : Keeps L I) (h : I s.resource s.clock)
    (hs : L.step s a = some s') : I s'.resource s'.clock := by
  cases step_moves hs with
  | tick hd => exact hI.pass h (le_add_of_nonneg_right hd)
  | call => exact h
  | grant hc hturn =>
    have hkeep := hI.turn h
    rw [hturn] at hkeep
    exact hkeep
  | sleep hc hturn =>
    have hkeep := hI.turn h
    rw [hturn] at hkeep
    exact hkeep
  | giveUp hw => exact h
  | giveBack hw => exact hI.unlock h

/-- What is kept of the resource holds in every state reached. -/
theorem exec_resource (hI : Keeps L I) {ls : List (Act K)}
    (h : I s.resource s.clock) (he : exec L.step s ls = some s') : I s'.resource s'.clock :=
  exec_inv (I := fun s => I s.resource s.clock) (fun _ _ _ h hs => hI.step h hs) h he

/-! ### Sleepers -/

variable (L I) in
/-- A turn grants, once the sleep of the turn before it is over. -/
def OneSleep : Prop :=
  ∀ {r now r' wake}, I r now → L.turn r now = (r', some wake) →
    ∀ later, wake ≤ later → (L.turn r' later).2 = none

variable (L I) in
/-- Who sleeps has the lock, and will be granted what it waits for. -/
structure Asleep (s : State ρ K) : Prop where
  resource : I s.resource s.clock
  count : s.tasks.countP Phase.isSleeping = if L.locked s.resource then 1 else 0
  wakes : ∀ wake, .sleeping wake ∈ s.tasks → ∀ later, wake ≤ later →
    (L.turn s.resource later).2 = none

omit [Field K] [IsStrictOrderedRing K] in
theorem asleep_init (h : I r now) (hfree : L.locked r = false) : Asleep L I (init r now) := by
  refine ⟨h, ?_, nofun⟩
  change 0 = if L.locked r then 1 else 0
  rw [hfree, if_neg Bool.false_ne_true]

omit [Field K] [IsStrictOrderedRing K] in
/-- Whoever has turned, or has given the lock back, leaves it locked if and only if
it sleeps. -/
theorem Asleep.set (h : Asleep L I s) (hc : CanTurn L s i) {p : Phase K}
    (hr : I r s.clock) (hlocked : L.locked r = p.isSleeping)
    (hwakes : ∀ wake, p = .sleeping wake → ∀ later, wake ≤ later → (L.turn r later).2 = none) :
    Asleep L I { s with resource := r, tasks := s.tasks.set i p } := by
  refine ⟨hr, ?_, fun wake hmem => ?_⟩
  · rw [hlocked]
    exact hc.count h.count p
  · rcases hc.others h.count hmem with hnew | hother
    · exact hwakes wake hnew.symm
    · cases hother

/-- **The lock is kept** with the one sleeper, and so is the resource. -/
theorem asleep_step (hI : Keeps L I) (hone : OneSleep L I) (h : Asleep L I s)
    (hs : L.step s a = some s') : Asleep L I s' := by
  have hresource : I s'.resource s'.clock := hI.step h.resource hs
  cases step_moves hs with
  | tick hd => exact ⟨hresource, h.count, h.wakes⟩
  | call =>
    refine ⟨hresource, ?_, fun wake hmem => h.wakes wake ?_⟩
    · rw [← h.count, List.countP_append]
      rfl
    · rcases List.mem_append.mp hmem with hmem | hnew
      · exact hmem
      · cases List.mem_singleton.mp hnew
  | grant hc hturn =>
    have hlocked := L.locked_turn s.resource s.clock
    rw [hturn] at hlocked
    exact h.set hc hresource hlocked fun wake hnew => by cases hnew
  | sleep hc hturn =>
    have hlocked := L.locked_turn s.resource s.clock
    rw [hturn] at hlocked
    refine h.set hc hresource hlocked fun wake hnew => ?_
    rw [← Phase.sleeping.inj hnew]
    exact hone h.resource hturn
  | giveUp hw =>
    refine ⟨hresource, ?_, fun wake hmem => h.wakes wake ?_⟩
    · rw [← h.count]
      exact countP_set_eq hw rfl
    · rcases mem_set hmem with hnew | hmem
      · cases hnew
      · exact hmem
  | giveBack hw =>
    exact h.set (.inr ⟨_, hw⟩) hresource (L.locked_unlock s.resource) fun wake hnew => by cases hnew

omit [IsStrictOrderedRing K] in
/-- A task whose sleep is over is granted when it runs on. -/
theorem Asleep.granted (h : Asleep L I s) (hi : s.tasks[i]? = some (.sleeping wake))
    (hwake : wake ≤ s.clock) (hs : L.step s (.resume i) = some s') :
    s'.tasks[i]? = some .granted := by
  have hnone := h.wakes wake (List.mem_of_getElem? hi) s.clock hwake
  cases step_moves hs with
  | grant hc hturn =>
    change (s.tasks.set i .granted)[i]? = some .granted
    rw [List.getElem?_set_self (List.getElem?_eq_some_iff.mp hi).1]
  | sleep hc hturn =>
    rw [hturn] at hnone
    cases hnone

/-- Task `i` has not turned yet. -/
def Unturned (s : State ρ K) (i : ℕ) : Prop :=
  s.tasks[i]? = none ∨ s.tasks[i]? = some .waiting

omit [Field K] [LinearOrder K] [IsStrictOrderedRing K] in
theorem unturned_set {j : ℕ} {p : Phase K} (hp : p ≠ .waiting)
    (h : (s.tasks.set i p)[j]? = none ∨ (s.tasks.set i p)[j]? = some .waiting) :
    Unturned s j ∧ (i < s.tasks.length → j ≠ i) := by
  by_cases hij : i = j
  · subst hij
    rcases Nat.lt_or_ge i s.tasks.length with hlt | hge
    · rw [List.getElem?_set_self hlt] at h
      rcases h with h | h
      · cases h
      · exact absurd (Option.some.inj h) hp
    · exact ⟨.inl (List.getElem?_eq_none hge), fun hlt => absurd hlt (not_lt.mpr hge)⟩
  · rw [List.getElem?_set_ne hij] at h
    exact ⟨h, fun _ => Ne.symm hij⟩

variable (L I) in
/-- No task has slept twice, and none has slept before its first turn. -/
def SleptOnce (slept : List ℕ) (s : State ρ K) : Prop :=
  Asleep L I s ∧ ∀ i, slept.count i ≤ 1 ∧ (Unturned s i → slept.count i = 0)

theorem sleptOnce_step (hI : Keeps L I) (hone : OneSleep L I) (slept : List ℕ)
    (h : SleptOnce L I slept s) (hok : Timely s a) (hs : L.step s a = some s') :
    SleptOnce L I (slept ++ L.sleeps s a) s' := by
  obtain ⟨hasleep, hslept⟩ := h
  refine ⟨asleep_step hI hone hasleep hs, ?_⟩
  -- who sleeps in no step is counted as before
  have hquiet : L.sleeps s a = [] → (∀ j, Unturned s' j → Unturned s j) →
      ∀ j, (slept ++ L.sleeps s a).count j ≤ 1 ∧
        (Unturned s' j → (slept ++ L.sleeps s a).count j = 0) := by
    intro hnone hback j
    rw [hnone, List.append_nil]
    exact ⟨(hslept j).1, fun hj => (hslept j).2 (hback j hj)⟩
  cases step_moves hs with
  | tick hd => exact hquiet rfl fun j hj => hj
  | call =>
    refine hquiet rfl fun j hj => ?_
    rcases Nat.lt_or_ge j s.tasks.length with hlt | hge
    · unfold Unturned at hj
      rw [List.getElem?_append_left hlt] at hj
      exact hj
    · exact .inl (List.getElem?_eq_none hge)
  | @grant i r hc hturn =>
    refine hquiet ?_ fun j hj => (unturned_set (by simp) hj).1
    simp only [sleeps, hturn]
    rfl
  | giveUp hw => exact hquiet rfl fun j hj => (unturned_set (by simp) hj).1
  | giveBack hw => exact hquiet rfl fun j hj => (unturned_set (by simp) hj).1
  | @sleep i r wake hc hturn =>
    have hsleeps : L.sleeps s (.resume i) = [i] := by
      simp only [sleeps, hturn]
      rfl
    have hlt : i < s.tasks.length := by
      rcases hc with ⟨hw, -⟩ | ⟨wake', hw⟩ <;> exact (List.getElem?_eq_some_iff.mp hw).1
    -- a second turn would have granted
    have hfirst : slept.count i = 0 := by
      rcases hc with ⟨hw, -⟩ | ⟨wake', hw⟩
      · exact (hslept i).2 (.inr hw)
      · have hnone := hasleep.wakes wake' (List.mem_of_getElem? hw) s.clock (hok wake' hw)
        rw [hturn] at hnone
        cases hnone
    intro j
    rw [hsleeps, List.count_append]
    by_cases hij : j = i
    · subst hij
      refine ⟨by simp [hfirst], fun hj => ?_⟩
      exact absurd rfl ((unturned_set (by simp) hj).2 hlt)
    · have hother : [i].count j = 0 := by
        rw [List.count_eq_zero, List.mem_singleton]
        exact hij
      rw [hother]
      exact ⟨(hslept j).1, fun hj => (hslept j).2 (unturned_set (by simp) hj).1⟩

/-- **One sleep at most** for each task, in every run whose sleeps last as long as
they were asked to. -/
theorem sleeps_le_one (hI : Keeps L I) (hone : OneSleep L I) (h : I r now)
    (hfree : L.locked r = false) {ls : List (Act K)} (hm : Meets L.step Timely (init r now) ls)
    (he : exec L.step (init r now) ls = some s) (i : ℕ) :
    (emitted L.step L.sleeps (init r now) ls).count i ≤ 1 := by
  have hinit : SleptOnce L I [] (init r now) :=
    ⟨asleep_init h hfree, fun _ => ⟨Nat.zero_le 1, fun _ => rfl⟩⟩
  exact ((emitted_inv (fun slept _ _ _ hj hok hs => sleptOnce_step hI hone slept hj hok hs)
    hinit hm he).2 i).1

/-! ### Levels -/

variable (L I) in
/-- A level of the resource that pays for the grants: it rises at the rate `r` at
most, a grant costs 1, and it is between 0 and `cap`. -/
structure Pays (level : ρ → K → K) (rate cap : K) : Prop where
  rate_nonneg : 0 ≤ rate
  nonneg : ∀ {r now}, I r now → 0 ≤ level r now
  le_cap : ∀ {r now}, I r now → level r now ≤ cap
  pass : ∀ {r now later}, I r now → now ≤ later →
    level r later ≤ level r now + rate * (later - now)
  turn : ∀ {r now}, I r now →
    level (L.turn r now).1 now + (if (L.turn r now).2.isNone then 1 else 0) ≤ level r now
  unlock : ∀ {r now}, I r now → level (L.unlock r) now ≤ level r now

/-- **A level that pays** is a meter of the grants. -/
theorem meter {level : ρ → K → K} {rate cap : K} (hI : Keeps L I) (hp : Pays L I level rate cap) :
    Meter L.step (fun s => I s.resource s.clock) (fun _ _ => True) State.clock
      (fun s => level s.resource s.clock) L.grants Prod.snd rate cap where
  rate := hp.rate_nonneg
  inv _ _ _ h _ hs := hI.step h hs
  nonneg _ h := hp.nonneg h
  mono s a s' h _ hs := by
    cases step_moves hs with
    | tick hd => exact le_add_of_nonneg_right hd
    | call | grant | sleep | giveUp | giveBack => exact le_rfl
  stamp s a e he := by
    cases a with
    | resume i =>
      simp only [grants] at he
      split_ifs at he with hnone
      · rw [List.mem_singleton.mp he]
      · cases he
    | tick d => cases he
    | call => cases he
    | cancel i => cases he
  still s a s' hs hne := by
    cases step_moves hs with
    | tick hd => exact absurd rfl hne
    | call | grant | sleep | giveUp | giveBack => rfl
  pay s a s' h _ hs := by
    cases step_moves hs with
    | @tick d hd =>
      have hpass := hp.pass h (le_add_of_nonneg_right (a := s.clock) hd)
      simpa [grants] using hpass
    | call => simp [grants]
    | giveUp hw => simp [grants]
    | giveBack hw => simpa [grants] using hp.unlock h
    | grant hc hturn =>
      have hpay := hp.turn h
      rw [hturn] at hpay
      simpa [grants, hturn] using hpay
    | sleep hc hturn =>
      have hpay := hp.turn h
      rw [hturn] at hpay
      simpa [grants, hturn] using hpay
  full _ _ _ h _ _ _ := hp.le_cap h

end

end LockedLoop
