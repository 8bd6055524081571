/-
# The intensity governor

`app/scan/governor.py`: the limits and their hard ceiling, the token bucket,
and `IntensityGovernor._acquire` / `_release` as steps of a pool of tasks. A
task in `async with governor.slot(host)` moves from one `await` of `_acquire`
to the next (`resume`); between two awaits nothing else runs. The clock is
`time.monotonic()`, an exact rational that only grows; how long a sleep lasts
and how long a slot body runs is the scheduler's choice. `asyncio.Semaphore`
and `asyncio.Lock` are their counters: an acquire goes on when a permit is
free, and a cancelled one takes none.

What a task does with its slot is its `body`, which the governor never reads.

Key definitions: `GovernorLimits.validateAgainst`, `TokenBucket`, `State`,
`check`, `resume`, `step`.
Key theorem: `resume_moves`, all that one step of `_acquire` can do.
-/
import Mathlib.Data.Rat.Floor
import Mathlib.Data.List.AList
import Mathlib.Tactic.Linarith
import ScanLedger.Lib.Run
import ScanLedger.Lib.Tasks

namespace ScanLedger
namespace Governor

/-! ### The limits -/

/-- A limit set would exceed the hard ceiling, or is otherwise unusable. -/
inductive GovernorConfigError
  | notPositive (field : String) (value : ℚ)
  | overCeiling (field : String) (value ceiling : ℚ)
  | unknownProfile (name : String)
  deriving DecidableEq, Repr

/-- A per-host or per-scan work budget ran out. -/
structure BudgetExceeded where
  scope : String
  limit : ℤ
  deriving DecidableEq, Repr

def BudgetExceeded.message (e : BudgetExceeded) : String :=
  e.scope ++ " budget of " ++ toString e.limit ++ " exceeded"

structure GovernorLimits where
  globalConcurrency : ℤ
  perHostConcurrency : ℤ
  connectionsPerSecond : ℚ
  connectTimeout : ℚ
  perHostBudget : ℤ
  perScanBudget : ℤ
  deriving DecidableEq, Repr

namespace GovernorLimits

/-- `fields(self)`, in the order of the class. -/
def fields (l : GovernorLimits) : List (String × ℚ) :=
  [("global_concurrency", l.globalConcurrency), ("per_host_concurrency", l.perHostConcurrency),
    ("connections_per_second", l.connectionsPerSecond), ("connect_timeout", l.connectTimeout),
    ("per_host_budget", l.perHostBudget), ("per_scan_budget", l.perScanBudget)]

/-- The loop of `validate_against` over the fields and the ceiling's values. -/
def validateFields : List ((String × ℚ) × ℚ) → Except GovernorConfigError Unit
  | [] => .ok ()
  | ((name, value), ceiling) :: rest =>
    if value ≤ 0 then .error (.notPositive name value)
    else if ceiling < value then .error (.overCeiling name value ceiling)
    else validateFields rest

def validateAgainst (l ceiling : GovernorLimits) : Except GovernorConfigError Unit :=
  validateFields (l.fields.zip (ceiling.fields.map (·.2)))

end GovernorLimits

def hardCeiling : GovernorLimits where
  globalConcurrency := 200
  perHostConcurrency := 20
  connectionsPerSecond := 50
  connectTimeout := 5
  perHostBudget := 500
  perScanBudget := 5000

def intensityProfiles : List (String × GovernorLimits) :=
  [("polite", ⟨20, 4, 5, 3, 200, 2000⟩), ("normal", ⟨60, 10, 15, 3, 300, 3000⟩),
    ("thorough", ⟨150, 16, 30, 4, 500, 5000⟩)]

/-- Limits that `validate_against(HARD_CEILING)` accepts, as every governor's are. -/
structure ValidLimits extends GovernorLimits where
  valid : toGovernorLimits.validateAgainst hardCeiling = .ok ()

/-- `IntensityGovernor.__init__`: the limits of a profile, or why there is no
such governor. -/
def limitsOf (profileName : String) (profiles : List (String × GovernorLimits)) :
    Except GovernorConfigError ValidLimits :=
  match profiles.lookup profileName with
  | none => .error (.unknownProfile profileName)
  | some l => match h : l.validateAgainst hardCeiling with
    | .error e => .error e
    | .ok () => .ok ⟨l, h⟩

/-- What `validate_against` lets through is positive and at most the ceiling. -/
theorem validateFields_ok : ∀ {fs : List ((String × ℚ) × ℚ)},
    GovernorLimits.validateFields fs = .ok () → ∀ f ∈ fs, 0 < f.1.2 ∧ f.1.2 ≤ f.2
  | [], _, f, hf => by cases hf
  | ((name, value), ceiling) :: rest, h, f, hf => by
    unfold GovernorLimits.validateFields at h
    split_ifs at h with h1 h2
    rcases List.mem_cons.mp hf with rfl | hf
    · exact ⟨not_le.mp h1, not_lt.mp h2⟩
    · exact validateFields_ok h f hf

/-- Every profile the module ships passes its own check. -/
theorem intensityProfiles_valid :
    ∀ p ∈ intensityProfiles, p.2.validateAgainst hardCeiling = .ok () := by
  decide +kernel

namespace ValidLimits

variable (L : ValidLimits)

theorem field_pos {f : (String × ℚ) × ℚ}
    (hf : f ∈ L.toGovernorLimits.fields.zip (hardCeiling.fields.map (·.2))) :
    0 < f.1.2 ∧ f.1.2 ≤ f.2 :=
  validateFields_ok L.valid f hf

theorem int_field_pos {n : String} {v : ℤ} {c : ℚ}
    (h : ((n, (v : ℚ)), c) ∈ L.toGovernorLimits.fields.zip (hardCeiling.fields.map (·.2))) :
    0 < v := by
  have hv : (0 : ℚ) < v := (L.field_pos h).1
  exact_mod_cast hv

theorem globalConcurrency_pos : 0 < L.globalConcurrency :=
  L.int_field_pos (List.mem_of_getElem? (i := 0) rfl)

theorem perHostConcurrency_pos : 0 < L.perHostConcurrency :=
  L.int_field_pos (List.mem_of_getElem? (i := 1) rfl)

theorem rate_pos : 0 < L.connectionsPerSecond :=
  (L.field_pos (List.mem_of_getElem? (i := 2) rfl)).1

theorem perHostBudget_pos : 0 < L.perHostBudget :=
  L.int_field_pos (List.mem_of_getElem? (i := 4) rfl)

theorem perScanBudget_pos : 0 < L.perScanBudget :=
  L.int_field_pos (List.mem_of_getElem? (i := 5) rfl)

/-- The permits `asyncio.Semaphore(limits.global_concurrency)` starts with. -/
def globalPermits : ℕ := L.globalConcurrency.toNat

/-- The permits a host's semaphore starts with. -/
def hostPermits : ℕ := L.perHostConcurrency.toNat

end ValidLimits

/-! ### The token bucket -/

def maxBackoffSeconds : ℚ := 2
def initialBackoffSeconds : ℚ := 1 / 20

/-- `_TokenBucket`; `locked` is its `asyncio.Lock`. -/
structure TokenBucket where
  rate : ℚ
  tokens : ℚ
  updated : ℚ
  locked : Bool
  deriving DecidableEq, Repr

namespace TokenBucket

def new (rate now : ℚ) : TokenBucket := ⟨rate, rate, now, false⟩

/-- The tokens there are at `now`. -/
def available (b : TokenBucket) (now : ℚ) : ℚ :=
  min b.rate (b.tokens + (now - b.updated) * b.rate)

/-- The two assignments at the head of the loop. -/
def refill (b : TokenBucket) (now : ℚ) : TokenBucket :=
  { b with tokens := b.available now, updated := now }

/-- One turn of the loop of `acquire`: take a token and give the lock back, or
keep it and sleep until `wake`. -/
def turn (b : TokenBucket) (now : ℚ) : TokenBucket × Option ℚ :=
  let b := b.refill now
  if 1 ≤ b.tokens then ({ b with tokens := b.tokens - 1, locked := false }, none)
  else ({ b with locked := true }, some (now + (1 - b.tokens) / b.rate))

end TokenBucket

/-! ### The tasks -/

/-- Where a task is in `async with governor.slot(host)`. A sleeping task
carries the time its sleep was asked to last until. -/
inductive Phase
  | entering
  | backoff (wake : ℚ)
  | bucketLock
  | bucketSleep (wake : ℚ)
  | globalWait
  | hostWait
  | inSlot
  | left
  | refused (e : BudgetExceeded)
  | cancelled
  deriving DecidableEq, Repr

/-- A task asking for a slot on `host`. -/
structure Task (β : Type) where
  host : String
  phase : Phase
  body : β

/-- An `IntensityGovernor` and the tasks that use it. -/
structure State (β : Type) where
  clock : ℚ
  bucket : TokenBucket
  globalFree : ℕ
  hostSemaphores : AList fun _ : String => ℕ
  hostCounts : AList fun _ : String => ℕ
  scanCount : ℕ
  backoff : AList fun _ : String => ℚ
  tasks : List (Task β)

variable {β : Type}

def init (L : ValidLimits) (now : ℚ) : State β where
  clock := now
  bucket := .new L.connectionsPerSecond now
  globalFree := L.globalPermits
  hostSemaphores := ∅
  hostCounts := ∅
  scanCount := 0
  backoff := ∅
  tasks := []

namespace State

/-- `probes_made_against`. -/
def hostCount (s : State β) (host : String) : ℕ := (s.hostCounts.lookup host).getD 0

/-- The free permits of `_host_semaphore(host)`, which is made on first use. -/
def hostFree (L : ValidLimits) (s : State β) (host : String) : ℕ :=
  (s.hostSemaphores.lookup host).getD L.hostPermits

def backoffFor (s : State β) (host : String) : ℚ := (s.backoff.lookup host).getD 0

def reportError (s : State β) (host : String) : State β :=
  let current := s.backoffFor host
  let next := min maxBackoffSeconds (if current ≠ 0 then current * 2 else initialBackoffSeconds)
  { s with backoff := s.backoff.insert host next }

def reportSuccess (s : State β) (host : String) : State β :=
  { s with backoff := s.backoff.erase host }

def setPhase (s : State β) (i : ℕ) (t : Task β) (p : Phase) : State β :=
  { s with tasks := s.tasks.set i { t with phase := p } }

/-- The body of task `i` goes on; the governor does not take part. -/
def setBody (s : State β) (i : ℕ) (t : Task β) (b : β) : State β :=
  { s with tasks := s.tasks.set i { t with body := b } }

/-- `_host_semaphore(host).release()`, or the permit a granted acquire takes. -/
def setHostFree (s : State β) (host : String) (n : ℕ) : State β :=
  { s with hostSemaphores := s.hostSemaphores.insert host n }

end State

/-- The budget checks at the head of `_acquire`: the exception they raise. -/
def check (L : ValidLimits) (s : State β) (host : String) : Option BudgetExceeded :=
  if L.perScanBudget ≤ s.scanCount then some ⟨"per-scan", L.perScanBudget⟩
  else if L.perHostBudget ≤ s.hostCount host then
    some ⟨"per-host (" ++ host ++ ")", L.perHostBudget⟩
  else none

/-- Past the checks: the backoff sleep, where there is one. -/
def afterCheck (s : State β) (host : String) : Phase :=
  if s.backoffFor host ≠ 0 then .backoff (s.clock + s.backoffFor host) else .bucketLock

/-- A turn of the bucket's loop, by the task that holds its lock. -/
def bucketTurn (s : State β) (i : ℕ) (t : Task β) : State β :=
  match s.bucket.turn s.clock with
  | (b, none) => { s with bucket := b }.setPhase i t .globalWait
  | (b, some wake) => { s with bucket := b }.setPhase i t (.bucketSleep wake)

/-- A host permit is granted: the counters of `_acquire` go up with no await in
between, and the slot is entered. -/
def enter (L : ValidLimits) (s : State β) (i : ℕ) (t : Task β) : State β :=
  { s.setHostFree t.host (s.hostFree L t.host - 1) with
    scanCount := s.scanCount + 1
    hostCounts := s.hostCounts.insert t.host (s.hostCount t.host + 1) }.setPhase i t .inSlot

/-- Task `i` runs from the await it is at to the next one. -/
def resume (L : ValidLimits) (s : State β) (i : ℕ) : Option (State β) :=
  match s.tasks[i]? with
  | none => none
  | some t => match t.phase with
    | .entering => match check L s t.host with
      | some e => some (s.setPhase i t (.refused e))
      | none => some (s.setPhase i t (afterCheck s t.host))
    | .backoff _ => some (s.setPhase i t .bucketLock)
    | .bucketLock => if s.bucket.locked then none else some (bucketTurn s i t)
    | .bucketSleep _ => some (bucketTurn s i t)
    | .globalWait =>
      if 0 < s.globalFree then
        some ({ s with globalFree := s.globalFree - 1 }.setPhase i t .hostWait)
      else none
    | .hostWait => if 0 < s.hostFree L t.host then some (enter L s i t) else none
    | _ => none

/-- `CancelledError` (or any other exception) at the await task `i` is at. -/
def cancel (s : State β) (i : ℕ) : Option (State β) :=
  match s.tasks[i]? with
  | none => none
  | some t => match t.phase with
    | .entering | .backoff _ | .bucketLock | .globalWait => some (s.setPhase i t .cancelled)
    -- `async with self._lock` gives the bucket's lock back
    | .bucketSleep _ =>
      some ({ s with bucket := { s.bucket with locked := false } }.setPhase i t .cancelled)
    | .hostWait => some ({ s with globalFree := s.globalFree + 1 }.setPhase i t .cancelled)
    | _ => none

/-- The slot body ends, whichever way: `__aexit__` releases both permits. -/
def leave (L : ValidLimits) (s : State β) (i : ℕ) : Option (State β) :=
  match s.tasks[i]? with
  | none => none
  | some t => match t.phase with
    | .inSlot => some ({ s.setHostFree t.host (s.hostFree L t.host + 1) with
        globalFree := s.globalFree + 1 }.setPhase i t .left)
    | _ => none

inductive Act (β : Type)
  | tick (d : ℚ)
  | spawn (host : String) (body : β)
  | resume (i : ℕ)
  | cancel (i : ℕ)
  | leave (i : ℕ)
  | reportError (host : String)
  | reportSuccess (host : String)

def step (L : ValidLimits) (s : State β) : Act β → Option (State β)
  | .tick d => if 0 ≤ d then some { s with clock := s.clock + d } else none
  | .spawn host body => some { s with tasks := s.tasks ++ [⟨host, .entering, body⟩] }
  | .resume i => resume L s i
  | .cancel i => cancel s i
  | .leave i => leave L s i
  | .reportError host => some (s.reportError host)
  | .reportSuccess host => some (s.reportSuccess host)

/-- The slots a step enters, with the time: `(host, clock)`. -/
def entered (s : State β) : Act β → List (String × ℚ)
  | .resume i => match s.tasks[i]? with
    | none => []
    | some t => if t.phase = .hostWait then [(t.host, s.clock)] else []
  | _ => []

/-- The slots a run enters. -/
def slots (L : ValidLimits) (s : State β) (ls : List (Act β)) : List (String × ℚ) :=
  Run.emitted (step L) entered s ls

/-! ### What a step can do -/

section

variable {L : ValidLimits} {s s' : State β} {i : ℕ}

/-- The moves of task `i`, standing as `t`, through `_acquire`. -/
inductive Moves (L : ValidLimits) (s : State β) (i : ℕ) (t : Task β) : State β → Prop
  | refuse (e : BudgetExceeded) (hp : t.phase = .entering) (hc : check L s t.host = some e) :
      Moves L s i t (s.setPhase i t (.refused e))
  | letIn (hp : t.phase = .entering) (hc : check L s t.host = none) :
      Moves L s i t (s.setPhase i t (afterCheck s t.host))
  | wake (w : ℚ) (hp : t.phase = .backoff w) : Moves L s i t (s.setPhase i t .bucketLock)
  | turn (hp : (t.phase = .bucketLock ∧ s.bucket.locked = false) ∨ ∃ w, t.phase = .bucketSleep w) :
      Moves L s i t (bucketTurn s i t)
  | takeGlobal (hp : t.phase = .globalWait) (hf : 0 < s.globalFree) :
      Moves L s i t ({ s with globalFree := s.globalFree - 1 }.setPhase i t .hostWait)
  | enter (hp : t.phase = .hostWait) (hf : 0 < s.hostFree L t.host) : Moves L s i t (enter L s i t)

theorem resume_moves (h : resume L s i = some s') :
    ∃ t, s.tasks[i]? = some t ∧ Moves L s i t s' := by
  unfold resume at h
  split at h
  · cases h
  · rename_i t ht
    refine ⟨t, ht, ?_⟩
    split at h
    · rename_i hp
      split at h
      · rename_i e hc
        cases h; exact .refuse e hp hc
      · rename_i hc
        cases h; exact .letIn hp hc
    · rename_i w hp
      cases h; exact .wake w hp
    · rename_i hp
      split_ifs at h with hl
      cases h; exact .turn (Or.inl ⟨hp, by simpa using hl⟩)
    · rename_i w hp
      cases h; exact .turn (Or.inr ⟨w, hp⟩)
    · rename_i hp
      split_ifs at h with hf
      cases h; exact .takeGlobal hp hf
    · rename_i hp
      split_ifs at h with hf
      cases h; exact .enter hp hf
    · cases h

/-- The ways an await of `_acquire` ends by an exception. -/
inductive Cancels (s : State β) (i : ℕ) (t : Task β) : State β → Prop
  | before (hp : t.phase = .entering ∨ (∃ w, t.phase = .backoff w) ∨ t.phase = .bucketLock ∨
      t.phase = .globalWait) : Cancels s i t (s.setPhase i t .cancelled)
  | sleeping (w : ℚ) (hp : t.phase = .bucketSleep w) : Cancels s i t
      ({ s with bucket := { s.bucket with locked := false } }.setPhase i t .cancelled)
  | holding (hp : t.phase = .hostWait) : Cancels s i t
      ({ s with globalFree := s.globalFree + 1 }.setPhase i t .cancelled)

theorem cancel_cancels (h : cancel s i = some s') :
    ∃ t, s.tasks[i]? = some t ∧ Cancels s i t s' := by
  unfold cancel at h
  split at h
  · cases h
  · rename_i t ht
    refine ⟨t, ht, ?_⟩
    split at h
    · rename_i hp
      cases h; exact .before (Or.inl hp)
    · rename_i w hp
      cases h; exact .before (Or.inr (Or.inl ⟨w, hp⟩))
    · rename_i hp
      cases h; exact .before (Or.inr (Or.inr (Or.inl hp)))
    · rename_i hp
      cases h; exact .before (Or.inr (Or.inr (Or.inr hp)))
    · rename_i w hp
      cases h; exact .sleeping w hp
    · rename_i hp
      cases h; exact .holding hp
    · cases h

theorem leave_inv (h : leave L s i = some s') : ∃ t, s.tasks[i]? = some t ∧ t.phase = .inSlot ∧
    s' = { s.setHostFree t.host (s.hostFree L t.host + 1) with
      globalFree := s.globalFree + 1 }.setPhase i t .left := by
  unfold leave at h
  split at h
  · cases h
  · rename_i t ht
    split at h
    · rename_i hp
      cases h; exact ⟨t, ht, hp, rfl⟩
    · cases h

/-- A task is added, or one task changes its phase, or the tasks stay. -/
theorem step_tasks {a : Act β} (h : step L s a = some s') :
    (∃ host body, a = .spawn host body ∧ s'.tasks = s.tasks ++ [⟨host, .entering, body⟩]) ∨
      s'.tasks = s.tasks ∨
      ∃ i t p, s.tasks[i]? = some t ∧ s'.tasks = s.tasks.set i { t with phase := p } := by
  cases a with
  | tick d =>
    simp only [step] at h
    split_ifs at h
    cases h; exact Or.inr (Or.inl rfl)
  | spawn host body => cases h; exact Or.inl ⟨host, body, rfl, rfl⟩
  | reportError host => cases h; exact Or.inr (Or.inl rfl)
  | reportSuccess host => cases h; exact Or.inr (Or.inl rfl)
  | leave i =>
    obtain ⟨t, ht, -, rfl⟩ := leave_inv h
    exact Or.inr (Or.inr ⟨i, t, _, ht, rfl⟩)
  | cancel i =>
    obtain ⟨t, ht, hc⟩ := cancel_cancels h
    refine Or.inr (Or.inr ⟨i, t, .cancelled, ht, ?_⟩)
    cases hc <;> rfl
  | resume i =>
    obtain ⟨t, ht, hm⟩ := resume_moves h
    refine Or.inr (Or.inr ?_)
    cases hm with
    | turn hp =>
      rcases hb : s.bucket.turn s.clock with ⟨b, _ | wake⟩
      · exact ⟨i, t, .globalWait, ht, by unfold bucketTurn; rw [hb]; rfl⟩
      · exact ⟨i, t, .bucketSleep wake, ht, by unfold bucketTurn; rw [hb]; rfl⟩
    | refuse | letIn | wake | takeGlobal | enter => exact ⟨i, t, _, ht, rfl⟩

end

end Governor
end ScanLedger
