/-
# Bounded waves, step by step

`app/scan/concurrency.py` as the asynchronous generator that it is. Factories are
called, one after the other and without a pause, until a wave is full; the wave is
then drained, its coroutines starting and finishing in any order; and the consumer
takes the outcomes of the wave one by one, or stops. The coroutine of the call
number `i` comes to `outcome i`, a value or the exception that it raised.

Every run calls the factories in order and only those of waves that have begun,
yields their outcomes in order, and never has more coroutines under way than a
wave holds; a run that nobody stops gets to the end (`bounded_waves`).

Key definitions: `fillWave`, `State`, `step`, `Inv`, `effort`.
Key theorems: `fillWave_spec`, `Inv.step`, `effort_step`, `enabled`, `bounded_waves`.
-/
import Mathlib.Data.List.Range
import ScanLedger.Lib.Run
import ScanLedger.Lib.Tasks
import ScanLedger.Lib.Waves
import ScanLedger.PortScan

namespace ScanLedger
namespace BoundedWaves

/-! ### The generator -/

inductive Status
  | waiting
  | running
  | done
  deriving DecidableEq, Repr

/-- A coroutine of the wave, by the number of the call that made it. -/
structure Task where
  number : ℕ
  status : Status
  deriving DecidableEq, Repr

/-- Where the generator is: in its loop, or after it. -/
inductive Place
  | loop
  | last
  deriving DecidableEq, Repr

/-- What the loop has come to: the calls made, the wave, and what the iterable has
left. -/
structure Filled (φ : Type) where
  called : List φ
  wave : List Task
  rest : List φ
  place : Place

/-- The loop up to a full wave, or to its end. -/
def fillWave {φ : Type} (waveSize : ℕ) : List φ → List Task → List φ → Filled φ
  | called, wave, [] => ⟨called, wave, [], .last⟩
  | called, wave, factory :: rest =>
    let wave' := wave ++ [⟨called.length, .waiting⟩]
    if waveSize ≤ wave'.length then ⟨called ++ [factory], wave', rest, .loop⟩
    else fillWave waveSize (called ++ [factory]) wave' rest

inductive Phase (ω : Type)
  /-- At a `yield` or before the first step, with the outcomes of the wave that are left. -/
  | suspended (outcomes : List ω)
  /-- In `asyncio.gather`, which may have been cancelled. -/
  | draining (wave : List Task) (cancelled : Bool)
  | finished
  /-- Closed by the consumer, or ended by the cancellation. -/
  | stopped
  deriving DecidableEq

/-- Beside the generator's own state, the waves begun, the calls made and the
outcomes yielded so far. -/
structure State (φ ω : Type) where
  rest : List φ
  place : Place
  phase : Phase ω
  begun : List (List φ)
  called : List φ
  yielded : List ω

inductive Label
  /-- The consumer asks for the next outcome. -/
  | next
  /-- A coroutine of the wave takes its first step. -/
  | start (i : ℕ)
  /-- A coroutine of the wave returns or raises. -/
  | finish (i : ℕ)
  /-- All have, and the generator goes on. -/
  | land
  /-- The consumer closes the generator. -/
  | close
  /-- The consumer is cancelled while it waits. -/
  | cancel
  deriving DecidableEq, Repr

section

variable {φ ω : Type}

def init (factories : List φ) : State φ ω := ⟨factories, .loop, .suspended [], [], [], []⟩

namespace State

/-- The next wave, if there is one. -/
def refill (waveSize : ℕ) (s : State φ ω) : State φ ω :=
  match s.place with
  | .last => { s with phase := .finished }
  | .loop =>
    let filled := fillWave waveSize s.called [] s.rest
    if filled.wave.isEmpty then
      { s with rest := filled.rest, place := filled.place, phase := .finished }
    else
      { s with
        rest := filled.rest
        place := filled.place
        phase := .draining filled.wave false
        begun := s.begun ++ [filled.called.drop s.called.length]
        called := filled.called }

/-- The generator goes on with these outcomes to yield. -/
def resume (waveSize : ℕ) (s : State φ ω) : List ω → State φ ω
  | outcome :: outcomes =>
    { s with phase := .suspended outcomes, yielded := s.yielded ++ [outcome] }
  | [] => s.refill waveSize

/-- How many coroutines have started and not finished. -/
def running (s : State φ ω) : ℕ :=
  match s.phase with
  | .draining wave _ => wave.countP (·.status == .running)
  | .suspended _ | .finished | .stopped => 0

end State

def step (waveSize : ℕ) (outcome : ℕ → ω) (s : State φ ω) : Label → Option (State φ ω)
  | .next => match s.phase with
    | .suspended outcomes => some (s.resume waveSize outcomes)
    | _ => none
  | .start i => match s.phase with
    | .draining wave false => match wave[i]? with
      | some ⟨number, .waiting⟩ =>
        some { s with phase := .draining (wave.set i ⟨number, .running⟩) false }
      | _ => none
    | _ => none
  | .finish i => match s.phase with
    | .draining wave cancelled => match wave[i]? with
      | some ⟨number, .running⟩ =>
        some { s with phase := .draining (wave.set i ⟨number, .done⟩) cancelled }
      | some ⟨number, .waiting⟩ =>
        -- a coroutine that is cancelled before its first step does not start
        if cancelled then some { s with phase := .draining (wave.set i ⟨number, .done⟩) true }
        else none
      | _ => none
    | _ => none
  | .land => match s.phase with
    | .draining wave cancelled =>
      if wave.all (·.status == .done) then
        if cancelled then some { s with phase := .stopped }
        else some (s.resume waveSize (wave.map fun task => outcome task.number))
      else none
    | _ => none
  | .close => match s.phase with
    | .suspended _ => some { s with phase := .stopped }
    | _ => none
  | .cancel => match s.phase with
    | .draining wave _ => some { s with phase := .draining wave true }
    | _ => none

end

/-! ### Filling a wave -/

/-- The coroutines of these calls, none of which has started. -/
def tasksFrom (first count : ℕ) : List Task :=
  (List.range' first count).map fun number => ⟨number, .waiting⟩

theorem tasksFrom_succ (first count : ℕ) :
    tasksFrom first count ++ [⟨first + count, .waiting⟩] = tasksFrom first (count + 1) := by
  unfold tasksFrom
  rw [List.range'_concat, List.map_append, Nat.one_mul]
  rfl

theorem length_tasksFrom (first count : ℕ) : (tasksFrom first count).length = count := by
  unfold tasksFrom
  rw [List.length_map, List.length_range']

variable {φ ω : Type} {waveSize : ℕ}

/-- The loop goes on to the first of the waves to come, if there is one. -/
theorem fillWave_spec (past : List φ) : ∀ (rest wave : List φ) {filled : Filled φ},
    fillWave waveSize (past ++ wave) (tasksFrom past.length wave.length) rest = filled →
      (wave = [] ∧ rest = [] ∧ filled = ⟨past, [], [], .last⟩) ∨
      ∃ w, Waves.fill waveSize wave rest = w :: Waves.waves waveSize filled.rest ∧
        filled.called = past ++ w ∧ filled.wave = tasksFrom past.length w.length ∧
        (filled.place = .last → filled.rest = [])
  | [], wave, filled, hfilled => by
    subst hfilled
    by_cases hwave : wave = []
    · subst hwave
      refine .inl ⟨rfl, rfl, ?_⟩
      rw [fillWave, List.append_nil]
      rfl
    · refine .inr ⟨wave, ?_, rfl, rfl, fun _ => rfl⟩
      have hempty : ¬ wave.isEmpty = true := fun h => hwave (List.isEmpty_iff.mp h)
      rw [Waves.fill, if_neg hempty]
      rfl
  | factory :: rest, wave, filled, hfilled => by
    have htasks : tasksFrom past.length wave.length ++ [⟨(past ++ wave).length, .waiting⟩] =
        tasksFrom past.length (wave ++ [factory]).length := by
      rw [List.length_append, tasksFrom_succ, List.length_append]
      rfl
    rw [fillWave] at hfilled
    rw [htasks, length_tasksFrom, List.append_assoc] at hfilled
    have hlength : (wave ++ [factory]).length = wave.length + 1 := List.length_append
    by_cases hfull : waveSize ≤ wave.length + 1
    · rw [if_pos (hlength ▸ hfull)] at hfilled
      subst hfilled
      refine .inr ⟨wave ++ [factory], ?_, rfl, rfl, nofun⟩
      rw [Waves.fill, if_pos hfull]
      rfl
    · rw [if_neg (hlength ▸ hfull)] at hfilled
      rcases fillWave_spec past rest (wave ++ [factory]) hfilled with ⟨hnil, -⟩ | hspec
      · exact absurd hnil (List.append_ne_nil_of_right_ne_nil wave (List.cons_ne_nil _ _))
      · rw [Waves.fill, if_neg hfull]
        exact .inr hspec

/-! ### Invariants -/

/-- What the generator keeps: `factories` are given, and the coroutine of a call has
its outcome. -/
structure Inv (waveSize : ℕ) (outcome : ℕ → ω) (factories : List φ) (s : State φ ω) : Prop where
  waves : s.begun ++ Waves.waves waveSize s.rest = Waves.waves waveSize factories
  called : s.called = s.begun.flatten
  last : s.place = .last → s.rest = []
  yields : s.yielded <+: (List.range s.called.length).map outcome
  /-- A wave begins when the outcomes of those before it have been taken. -/
  earlier : s.begun.dropLast.flatten.length ≤ s.yielded.length
  phase : match s.phase with
    | .suspended outcomes => s.yielded ++ outcomes = (List.range s.called.length).map outcome
    | .draining wave _ => ∃ earlier w, s.begun = earlier ++ [w] ∧
        s.yielded = (List.range earlier.flatten.length).map outcome ∧
        wave.map Task.number = List.range' earlier.flatten.length w.length ∧ w ≠ [] ∧
        w.length ≤ waveSize
    | .finished => s.rest = [] ∧ s.yielded = (List.range s.called.length).map outcome
    | .stopped => True

variable {outcome : ℕ → ω} {factories : List φ} {s s' : State φ ω}

theorem inv_init : Inv waveSize outcome factories (init factories) where
  waves := rfl
  called := rfl
  last := nofun
  yields := List.prefix_refl _
  earlier := Nat.le_refl 0
  phase := rfl

theorem refill_last (h : s.place = .last) :
    s.refill waveSize = { s with phase := .finished } := by
  unfold State.refill
  rw [h]

/-- From the loop, the generator comes to its end or begins the next wave. -/
theorem refill_loop (hsize : 1 ≤ waveSize) (h : s.place = .loop) :
    (s.rest = [] ∧ s.refill waveSize = { s with rest := [], place := .last, phase := .finished }) ∨
      ∃ w rest place, Waves.waves waveSize s.rest = w :: Waves.waves waveSize rest ∧ w ≠ [] ∧
        w.length ≤ waveSize ∧ (place = .last → rest = []) ∧
        s.refill waveSize = ⟨rest, place, .draining (tasksFrom s.called.length w.length) false,
          s.begun ++ [w], s.called ++ w, s.yielded⟩ := by
  have hfill : fillWave waveSize (s.called ++ []) (tasksFrom s.called.length 0) s.rest =
      fillWave waveSize s.called [] s.rest := by
    rw [List.append_nil]
    rfl
  unfold State.refill
  rw [h]
  dsimp only
  rcases fillWave_spec s.called s.rest [] hfill with ⟨-, hrest, hfilled⟩ |
    ⟨w, hwaves, hcalled, hwave, hlast⟩
  · rw [hfilled]
    exact .inl ⟨hrest, rfl⟩
  · have hmem : w ∈ Waves.waves waveSize s.rest := by
      unfold Waves.waves
      rw [hwaves]
      exact List.mem_cons_self
    obtain ⟨hw, hlength⟩ := Waves.length_le_of_mem_waves hsize w hmem
    have hempty : ¬ (tasksFrom s.called.length w.length).isEmpty = true := by
      rw [List.isEmpty_iff, ← List.length_eq_zero_iff, length_tasksFrom]
      exact fun hzero => hw (List.length_eq_zero_iff.mp hzero)
    refine .inr ⟨w, _, _, hwaves, hw, hlength, hlast, ?_⟩
    rw [hwave, if_neg hempty, hcalled, List.drop_left]

/-- All outcomes so far have been taken, and the next wave begins. -/
theorem Inv.refill (hsize : 1 ≤ waveSize) (h : Inv waveSize outcome factories s)
    (hyielded : s.yielded = (List.range s.called.length).map outcome) :
    Inv waveSize outcome factories (s.refill waveSize) := by
  cases hplace : s.place with
  | last =>
    rw [refill_last hplace]
    exact ⟨h.waves, h.called, h.last, h.yields, h.earlier, h.last hplace, hyielded⟩
  | loop =>
    rcases refill_loop hsize hplace with ⟨hrest, hrefill⟩ |
      ⟨w, rest, place, hwaves, hw, hlength, hlast, hrefill⟩
    · have hbegun := h.waves
      rw [hrest] at hbegun
      rw [hrefill]
      exact ⟨hbegun, h.called, fun _ => rfl, h.yields, h.earlier, rfl, hyielded⟩
    · have hcalled : s.called.length = s.begun.flatten.length := congrArg List.length h.called
      have hcount : s.yielded.length = s.called.length := by
        rw [hyielded, List.length_map, List.length_range]
      rw [hrefill]
      refine ⟨?_, ?_, hlast, ?_, ?_, s.begun, w, rfl, ?_, ?_, hw, hlength⟩
      · rw [List.append_assoc, ← h.waves, hwaves]
        rfl
      · rw [h.called, List.flatten_append]
        simp
      · refine h.yields.trans (List.IsPrefix.map ?_ (f := outcome))
        rw [List.length_append, List.range_add]
        exact List.prefix_append _ _
      · rw [List.dropLast_concat, hcount, hcalled]
      · rw [← hcalled]
        exact hyielded
      · unfold tasksFrom
        rw [List.map_map, ← hcalled]
        exact List.map_id _

theorem range_append (outcome : ℕ → ω) (n m : ℕ) :
    (List.range n).map outcome ++ (List.range' n m).map outcome =
      (List.range (n + m)).map outcome := by
  have hsplit : List.range' 0 n ++ List.range' (0 + n) m = List.range' 0 (n + m) :=
    List.range'_append_1
  rw [Nat.zero_add] at hsplit
  rw [← List.map_append, List.range_eq_range', List.range_eq_range', hsplit]

/-- What the generator yields next is the next outcome. -/
theorem Inv.resume (hsize : 1 ≤ waveSize) (h : Inv waveSize outcome factories s)
    {outcomes : List ω}
    (houtcomes : s.yielded ++ outcomes = (List.range s.called.length).map outcome) :
    Inv waveSize outcome factories (s.resume waveSize outcomes) := by
  cases outcomes with
  | nil =>
    rw [List.append_nil] at houtcomes
    exact h.refill hsize houtcomes
  | cons next outcomes =>
    have hall : (s.yielded ++ [next]) ++ outcomes = (List.range s.called.length).map outcome := by
      rw [← houtcomes, List.append_assoc]
      rfl
    unfold State.resume
    refine ⟨h.waves, h.called, h.last, ?_, ?_, hall⟩
    · exact ⟨outcomes, hall⟩
    · refine h.earlier.trans ?_
      rw [List.length_append]
      exact Nat.le_add_right _ _

theorem map_number_set {wave : List Task} {i number : ℕ} {status status' : Status}
    (h : wave[i]? = some ⟨number, status⟩) :
    (wave.set i ⟨number, status'⟩).map Task.number = wave.map Task.number := by
  obtain ⟨hi, hget⟩ := List.getElem?_eq_some_iff.mp h
  have hlength : i < (wave.map Task.number).length := by rwa [List.length_map]
  have hnumber : (wave.map Task.number)[i] = number := by rw [List.getElem_map, hget]
  calc (wave.set i ⟨number, status'⟩).map Task.number
      = (wave.map Task.number).set i ((wave.map Task.number)[i]) := by rw [List.map_set, hnumber]
    _ = wave.map Task.number := List.set_getElem_self hlength

/-- A coroutine that moves has its number. -/
theorem Inv.move (h : Inv waveSize outcome factories s) {wave : List Task} {cancelled : Bool}
    (hphase : s.phase = .draining wave cancelled) {wave' : List Task} {cancelled' : Bool}
    (hnumbers : wave'.map Task.number = wave.map Task.number) :
    Inv waveSize outcome factories { s with phase := .draining wave' cancelled' } := by
  have hdrains := h.phase
  rw [hphase] at hdrains
  refine ⟨h.waves, h.called, h.last, h.yields, h.earlier, ?_⟩
  dsimp only
  rw [hnumbers]
  exact hdrains

/-- The outcomes of the wave follow those that were yielded. -/
theorem Inv.landed (h : Inv waveSize outcome factories s) {wave : List Task} {cancelled : Bool}
    (hphase : s.phase = .draining wave cancelled) :
    s.yielded ++ wave.map (fun task => outcome task.number) =
      (List.range s.called.length).map outcome := by
  have hdrains := h.phase
  rw [hphase] at hdrains
  obtain ⟨earlier, w, hbegun, hyielded, hnumbers, -, -⟩ := hdrains
  have hmap : wave.map (fun task => outcome task.number) =
      (wave.map Task.number).map outcome := by rw [List.map_map]; rfl
  have hcalled : s.called.length = earlier.flatten.length + w.length := by
    rw [h.called, hbegun, List.flatten_append, List.length_append]
    simp
  rw [hmap, hnumbers, hyielded, range_append, hcalled]

/-! ### Steps -/

/-- What a step can do. -/
inductive Moves (waveSize : ℕ) (outcome : ℕ → ω) (s : State φ ω) : Label → State φ ω → Prop
  | next {outcomes : List ω} (hphase : s.phase = .suspended outcomes) :
      Moves waveSize outcome s .next (s.resume waveSize outcomes)
  | start {wave : List Task} {i number : ℕ} (hphase : s.phase = .draining wave false)
      (htask : wave[i]? = some ⟨number, .waiting⟩) : Moves waveSize outcome s (.start i)
        { s with phase := .draining (wave.set i ⟨number, .running⟩) false }
  | finish {wave : List Task} {cancelled : Bool} {i number : ℕ} {status : Status}
      (hphase : s.phase = .draining wave cancelled) (htask : wave[i]? = some ⟨number, status⟩)
      (hstatus : status = .running ∨ (status = .waiting ∧ cancelled = true)) :
      Moves waveSize outcome s (.finish i)
        { s with phase := .draining (wave.set i ⟨number, .done⟩) cancelled }
  | land {wave : List Task} (hphase : s.phase = .draining wave false)
      (hdone : wave.all (·.status == .done) = true) : Moves waveSize outcome s .land
        (s.resume waveSize (wave.map fun task => outcome task.number))
  | abandon {wave : List Task} (hphase : s.phase = .draining wave true) :
      Moves waveSize outcome s .land { s with phase := .stopped }
  | close {outcomes : List ω} (hphase : s.phase = .suspended outcomes) :
      Moves waveSize outcome s .close { s with phase := .stopped }
  | cancel {wave : List Task} {cancelled : Bool} (hphase : s.phase = .draining wave cancelled) :
      Moves waveSize outcome s .cancel { s with phase := .draining wave true }

theorem step_moves {l : Label} (h : step waveSize outcome s l = some s') :
    Moves waveSize outcome s l s' := by
  cases l with
  | next =>
    simp only [step] at h
    split at h <;> cases h
    rename_i hphase
    exact .next hphase
  | start i =>
    simp only [step] at h
    split at h
    · rename_i hphase
      split at h <;> cases h
      rename_i htask
      exact .start hphase htask
    · cases h
  | finish i =>
    simp only [step] at h
    split at h
    · rename_i hphase
      split at h
      · rename_i htask
        cases h
        exact .finish hphase htask (.inl rfl)
      · rename_i htask
        split_ifs at h with hcancelled
        cases h
        subst hcancelled
        exact .finish hphase htask (.inr ⟨rfl, rfl⟩)
      · cases h
    · cases h
  | land =>
    simp only [step] at h
    split at h
    · rename_i hphase
      split_ifs at h with hdone hcancelled
      · cases h
        subst hcancelled
        exact .abandon hphase
      · cases h
        rw [Bool.not_eq_true] at hcancelled
        subst hcancelled
        exact .land hphase hdone
    · cases h
  | close =>
    simp only [step] at h
    split at h <;> cases h
    rename_i hphase
    exact .close hphase
  | cancel =>
    simp only [step] at h
    split at h <;> cases h
    rename_i hphase
    exact .cancel hphase

/-- **Step.** Every step keeps the invariants. -/
theorem Inv.step (hsize : 1 ≤ waveSize) {l : Label} (h : Inv waveSize outcome factories s)
    (hstep : step waveSize outcome s l = some s') : Inv waveSize outcome factories s' := by
  cases step_moves hstep with
  | next hphase =>
    have hyields := h.phase
    rw [hphase] at hyields
    exact h.resume hsize hyields
  | start hphase htask => exact h.move hphase (map_number_set htask)
  | finish hphase htask hstatus => exact h.move hphase (map_number_set htask)
  | land hphase hdone => exact h.resume hsize (h.landed hphase)
  | abandon hphase => exact ⟨h.waves, h.called, h.last, h.yields, h.earlier, trivial⟩
  | close hphase => exact ⟨h.waves, h.called, h.last, h.yields, h.earlier, trivial⟩
  | cancel hphase => exact h.move hphase rfl

theorem inv_exec (hsize : 1 ≤ waveSize) {ls : List Label}
    (hrun : Run.exec (step waveSize outcome) (init factories) ls = some s) :
    Inv waveSize outcome factories s :=
  Run.exec_inv (fun _ _ _ h hstep => Inv.step hsize h hstep) inv_init hrun

/-- No more coroutines are under way than a wave holds. -/
theorem Inv.running_le (h : Inv waveSize outcome factories s) : s.running ≤ waveSize := by
  unfold State.running
  cases hphase : s.phase with
  | draining wave cancelled =>
    have hdrains := h.phase
    rw [hphase] at hdrains
    obtain ⟨earlier, w, -, -, hnumbers, -, hlength⟩ := hdrains
    have hsame : wave.length = w.length := by
      have hboth := congrArg List.length hnumbers
      rwa [List.length_map, List.length_range'] at hboth
    exact List.countP_le_length.trans (hsame ▸ hlength)
  | _ => exact Nat.zero_le _

/-! ### Getting to the end -/

/-- The steps that a coroutine has left. -/
def Status.effort : Status → ℕ
  | .waiting => 2
  | .running => 1
  | .done => 0

/-- A bound for the steps that are left: each factory has its coroutine started,
finished and its outcome taken, and each wave is asked for. -/
def effort (s : State φ ω) : ℕ :=
  4 * s.rest.length + match s.phase with
    | .suspended outcomes => outcomes.length + 1
    | .draining wave _ => 2 * wave.countP (·.status == .waiting) +
        wave.countP (·.status == .running) + wave.length + 1
    | .finished | .stopped => 0

theorem effort_resume (hsize : 1 ≤ waveSize) (s : State φ ω) (outcomes : List ω) :
    effort (s.resume waveSize outcomes) < 4 * s.rest.length + outcomes.length + 1 := by
  cases outcomes with
  | cons next outcomes =>
    unfold State.resume effort
    dsimp only
    rw [List.length_cons]
    omega
  | nil =>
    unfold State.resume
    cases hplace : s.place with
    | last =>
      rw [refill_last hplace]
      exact Nat.lt_succ_self _
    | loop =>
      rcases refill_loop hsize hplace with ⟨hrest, hrefill⟩ |
        ⟨w, rest, place, hwaves, hw, -, -, hrefill⟩
      · rw [hrefill]
        exact Nat.succ_pos _
      · have hlength : s.rest.length = w.length + rest.length := by
          have hflatten := congrArg List.flatten hwaves
          rw [Waves.flatten_waves, List.flatten_cons, Waves.flatten_waves] at hflatten
          rw [hflatten, List.length_append]
        have hpos := List.length_pos_of_ne_nil hw
        have hwaiting := List.countP_le_length (p := (·.status == .waiting))
          (l := tasksFrom s.called.length w.length)
        have hrunning : (tasksFrom s.called.length w.length).countP (·.status == .running) = 0 := by
          rw [List.countP_eq_zero]
          intro task htask
          obtain ⟨number, -, rfl⟩ := List.mem_map.mp htask
          exact Bool.false_ne_true
        rw [length_tasksFrom] at hwaiting
        rw [hrefill, effort]
        dsimp only
        rw [hrunning, length_tasksFrom, List.length_nil]
        omega

theorem effort_set {wave : List Task} {i number : ℕ} {status : Status}
    (h : wave[i]? = some ⟨number, status⟩) (status' : Status) :
    2 * (wave.set i ⟨number, status'⟩).countP (·.status == .waiting) +
        (wave.set i ⟨number, status'⟩).countP (·.status == .running) + status.effort =
      2 * wave.countP (·.status == .waiting) + wave.countP (·.status == .running) +
        status'.effort := by
  have hwaiting := Tasks.countP_set_add (y := ⟨number, status'⟩) h (·.status == .waiting)
  have hrunning := Tasks.countP_set_add (y := ⟨number, status'⟩) h (·.status == .running)
  cases status <;> cases status' <;> simp [Status.effort] at hwaiting hrunning ⊢ <;> omega

/-- Every step but a cancellation takes effort. -/
theorem effort_step (hsize : 1 ≤ waveSize) {l : Label} (hl : l ≠ .cancel)
    (h : step waveSize outcome s l = some s') : effort s' < effort s := by
  cases step_moves h with
  | next hphase =>
    refine (effort_resume hsize s _).trans_eq ?_
    rw [effort, hphase, Nat.add_assoc]
  | start hphase htask =>
    have hset := effort_set htask .running
    rw [effort, effort, hphase]
    dsimp only [Status.effort] at hset ⊢
    rw [List.length_set]
    omega
  | @finish wave cancelled i number status hphase htask hstatus =>
    have hset := effort_set htask .done
    have hdone : Status.done.effort = 0 := rfl
    have hpos : 1 ≤ status.effort := by
      rcases hstatus with rfl | ⟨rfl, -⟩ <;> decide
    rw [effort, effort, hphase]
    dsimp only
    rw [List.length_set]
    omega
  | land hphase hdone =>
    refine (effort_resume hsize s _).trans_le ?_
    rw [effort, hphase, List.length_map]
    dsimp only
    omega
  | abandon hphase =>
    rw [effort, effort, hphase]
    dsimp only
    omega
  | close hphase =>
    rw [effort, effort, hphase]
    dsimp only
    omega
  | cancel hphase => exact absurd rfl hl

/-- What a run has taken, it had. -/
theorem length_le_effort (hsize : 1 ≤ waveSize) : ∀ {ls : List Label} {s s' : State φ ω},
    (∀ l ∈ ls, l ≠ .cancel) → Run.exec (step waveSize outcome) s ls = some s' →
    ls.length + effort s' ≤ effort s
  | [], s, s', _, hrun => by
    rw [Run.exec_nil, Option.some.injEq] at hrun
    rw [hrun, List.length_nil, Nat.zero_add]
  | l :: ls, s, s'', hls, hrun => by
    obtain ⟨s', hstep, hrun⟩ := (Run.exec_cons _).mp hrun
    obtain ⟨hl, hrest⟩ := List.forall_mem_cons.mp hls
    have hlt := effort_step hsize hl hstep
    have hle := length_le_effort hsize hrest hrun
    rw [List.length_cons]
    omega

/-- A generator that is not at its end can go on, without the consumer's giving up. -/
theorem enabled (waveSize : ℕ) (outcome : ℕ → ω) (s : State φ ω) : s.phase = .finished ∨
    s.phase = .stopped ∨
    ∃ l, l ≠ .close ∧ l ≠ .cancel ∧ (step waveSize outcome s l).isSome = true := by
  cases hphase : s.phase with
  | suspended outcomes =>
    refine .inr (.inr ⟨.next, nofun, nofun, ?_⟩)
    unfold step
    rw [hphase]
    rfl
  | draining wave cancelled =>
    refine .inr (.inr ?_)
    by_cases hdone : wave.all (·.status == .done) = true
    · refine ⟨.land, nofun, nofun, ?_⟩
      unfold step
      rw [hphase]
      dsimp only
      rw [if_pos hdone]
      cases cancelled <;> rfl
    · obtain ⟨task, htask, hnot⟩ : ∃ task ∈ wave, task.status ≠ .done := by
        simpa using hdone
      obtain ⟨i, hi⟩ := List.getElem?_of_mem htask
      obtain ⟨number, status⟩ := task
      cases status with
      | done => exact absurd rfl hnot
      | running =>
        refine ⟨.finish i, nofun, nofun, ?_⟩
        unfold step
        rw [hphase]
        dsimp only
        rw [hi]
        rfl
      | waiting =>
        cases cancelled with
        | false =>
          refine ⟨.start i, nofun, nofun, ?_⟩
          unfold step
          rw [hphase]
          dsimp only
          rw [hi]
          rfl
        | true =>
          refine ⟨.finish i, nofun, nofun, ?_⟩
          unfold step
          rw [hphase]
          dsimp only
          rw [hi]
          rfl
  | finished => exact .inl rfl
  | stopped => exact .inr (.inl rfl)

/-- The consumer has not given up. -/
def Going (s : State φ ω) : Prop :=
  s.phase ≠ .stopped ∧ ∀ wave, s.phase ≠ .draining wave true

theorem going_resume (waveSize : ℕ) (s : State φ ω) (outcomes : List ω) :
    Going (s.resume waveSize outcomes) := by
  cases outcomes with
  | cons next outcomes => exact ⟨nofun, nofun⟩
  | nil =>
    unfold State.resume State.refill
    cases s.place with
    | last => exact ⟨nofun, nofun⟩
    | loop =>
      dsimp only
      split_ifs
      · exact ⟨nofun, nofun⟩
      · exact ⟨nofun, nofun⟩

theorem Going.step {l : Label} (h : Going s) (hl : l ≠ .close ∧ l ≠ .cancel)
    (hstep : step waveSize outcome s l = some s') : Going s' := by
  cases step_moves hstep with
  | next hphase => exact going_resume waveSize s _
  | start hphase htask => exact ⟨nofun, nofun⟩
  | @finish wave cancelled i number status hphase htask hstatus =>
    cases cancelled with
    | false => exact ⟨nofun, nofun⟩
    | true => exact absurd hphase (h.2 wave)
  | land hphase hdone => exact going_resume waveSize s _
  | @abandon wave hphase => exact absurd hphase (h.2 wave)
  | close hphase => exact absurd rfl hl.1
  | cancel hphase => exact absurd rfl hl.2

/-- A run to the end yields what the modules take the waves for. -/
theorem yielded_inBoundedWaves {β : Type} (hsize : 1 ≤ waveSize) {outcome : ℕ → Except Exn β}
    {factories : List φ} {ls : List Label} {s : State φ (Except Exn β)}
    (hrun : Run.exec (step waveSize outcome) (init factories) ls = some s)
    (hend : s.phase = .finished) :
    s.yielded = inBoundedWaves outcome (List.range factories.length) waveSize := by
  have h := inv_exec hsize hrun
  have hphase := h.phase
  rw [hend] at hphase
  obtain ⟨hrest, hyielded⟩ := hphase
  have hflatten := congrArg List.flatten h.waves
  rw [List.flatten_append, Waves.flatten_waves, Waves.flatten_waves, ← h.called, hrest,
    List.append_nil] at hflatten
  rw [inBoundedWaves_eq, hyielded, hflatten]

/-- **Bounded waves lose nothing.** Whatever the order of the steps, factories are
called in order, those of the waves begun and no others, where a wave begins when
all outcomes before it have been taken; the outcomes are yielded in order; no more
coroutines are under way than a wave holds. At the end every factory was called and
every outcome yielded, and a run that is not given up gets there. -/
theorem bounded_waves (hsize : 1 ≤ waveSize) (outcome : ℕ → ω) {factories : List φ}
    {ls : List Label} {s : State φ ω}
    (hrun : Run.exec (step waveSize outcome) (init factories) ls = some s) :
    s.called ++ s.rest = factories ∧
    s.begun <+: Waves.waves waveSize factories ∧ s.called = s.begun.flatten ∧
    s.begun.dropLast.flatten.length ≤ s.yielded.length ∧
    s.yielded.length ≤ s.called.length ∧
    s.yielded = (List.range s.yielded.length).map outcome ∧
    s.running ≤ waveSize ∧
    (s.phase = .finished → s.called = factories ∧
      s.yielded = (List.range factories.length).map outcome) ∧
    ((∀ l ∈ ls, l ≠ .close ∧ l ≠ .cancel) → ls.length ≤ 4 * factories.length + 1 ∧
      (s.phase = .finished ∨
        ∃ l, l ≠ .close ∧ l ≠ .cancel ∧ (step waveSize outcome s l).isSome = true)) := by
  have h := inv_exec hsize hrun
  have hcalled : s.called ++ s.rest = factories := by
    have hflatten := congrArg List.flatten h.waves
    rwa [List.flatten_append, Waves.flatten_waves, Waves.flatten_waves, ← h.called] at hflatten
  have hlength : s.yielded.length ≤ s.called.length := by
    have hle := h.yields.length_le
    rwa [List.length_map, List.length_range] at hle
  refine ⟨hcalled, ⟨_, h.waves⟩, h.called, h.earlier, hlength, ?_, h.running_le, ?_, ?_⟩
  · have htake := List.prefix_iff_eq_take.mp h.yields
    rw [← List.map_take, List.take_range, min_eq_left hlength] at htake
    exact htake
  · intro hphase
    have hend := h.phase
    rw [hphase] at hend
    obtain ⟨hrest, hyielded⟩ := hend
    rw [hrest, List.append_nil] at hcalled
    exact ⟨hcalled, hcalled ▸ hyielded⟩
  · intro hls
    have hinit : Going (init factories : State φ ω) := by
      unfold init
      exact ⟨nofun, nofun⟩
    have hgoing : Going s := Run.exec_inv_of_meets (I := Going)
      (fun _ _ _ hg hl hstep => hg.step hl hstep) hinit (Run.meets_of_mem hls) hrun
    have heffort := length_le_effort hsize (fun l hl => (hls l hl).2) hrun
    have hall : effort (init factories : State φ ω) = 4 * factories.length + 1 := rfl
    refine ⟨by omega, ?_⟩
    rcases enabled waveSize outcome s with hend | hstop | hstep
    · exact .inl hend
    · exact absurd hstop hgoing.1
    · exact .inr hstep

/-- Two waves of one, to the end. -/
def twoWaves : List Label :=
  [.next, .start 0, .finish 0, .land, .next, .start 0, .finish 0, .land, .next]

theorem bounded_waves_two : ∃ s : State Unit ℕ,
    Run.exec (step 1 id) (init [(), ()]) twoWaves = some s ∧ s.called ++ s.rest = [(), ()] := by
  have hrun : (Run.exec (step 1 id) (init [(), ()] : State Unit ℕ) twoWaves).isSome = true := rfl
  obtain ⟨s, hs⟩ := Option.isSome_iff_exists.mp hrun
  exact ⟨s, hs, (bounded_waves (le_refl 1) id hs).1⟩

end BoundedWaves
end ScanLedger
