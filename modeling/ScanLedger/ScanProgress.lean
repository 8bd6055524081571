/-
# The progress view

The effect of `ScanProgress` (`frontend/src/components/ScanProgress.tsx`) for one
scan. `refresh` asks the server and waits; a timer and the events of a stream
call it again, so several requests may be on their way at once. The server
answers a request with what it knows then, and the answer arrives, or fails, at
any later time. A terminal answer stops the timer and the stream and reports the
end, all of it once (`exec_watch`). The answers still on their way are stored all
the same: what the view shows never goes back if and only if none of them was
given before the scan ended (`progress_forward`).

Key definitions: `View`, `View.received`, `State`, `Act`, `step`, `InOrder`,
`View.Forward`.
Key theorems: `step_cases`, `step_watch`, `requests_stopped`, `progress_forward`.
-/
import ScanLedger.Lib.Run

namespace ScanLedger.ScanProgress

open Run

/-- `TERMINAL`. -/
def terminal : List String := ["completed", "completed_with_warnings", "failed", "canceled"]

/-- The payload of a `footprint` event. -/
structure Footprint where
  hostsProbed : ℕ
  portsTouched : ℕ
  deriving DecidableEq, Repr

variable {δ : Type*} (status : δ → String)

/-- `δ` is `ScanDetail`. -/
def isTerminal (detail : δ) : Bool := terminal.contains (status detail)

/-! ### The effect -/

/-- The variables of the effect, and what it has done: the details it has given
to `setScan`, in order, and its calls of `onFinished`. -/
structure View (δ : Type*) where
  active : Bool
  finished : Bool
  timer : Bool
  /-- The stream is open. -/
  source : Bool
  streaming : Bool
  footprint : Footprint
  stored : List δ
  onFinished : ℕ
  deriving DecidableEq, Repr

namespace View

/-- The effect, once it has run. -/
def mounted : View δ := ⟨true, false, true, true, false, ⟨0, 0⟩, [], 0⟩

def stopWatching (v : View δ) : View δ :=
  { v with timer := false, source := false, streaming := false }

/-- `refresh`, from its `await` on. -/
def received (v : View δ) (detail : δ) : View δ :=
  if !v.active then v
  else
    let v := { v with stored := v.stored ++ [detail] }
    if isTerminal status detail && !v.finished then
      let v := stopWatching { v with finished := true }
      { v with onFinished := v.onFinished + 1 }
    else v

/-- What the effect returns. -/
def cleanup (v : View δ) : View δ := stopWatching { v with active := false }

end View

/-! ### The requests -/

inductive Request (δ : Type*)
  | sent
  /-- The server has read the scan. -/
  | answered (detail : δ)
  | arrived (detail : δ)
  | failed
  deriving DecidableEq, Repr

/-- An answer that shows the end of the scan has arrived. -/
def Request.ended : Request δ → Bool
  | .arrived detail => isTerminal status detail
  | .sent | .answered _ | .failed => false

/-- The view, the scan as the server has it, and all requests, in the order in
which they were sent. -/
structure State (δ : Type*) where
  view : View δ
  server : δ
  requests : List (Request δ)
  deriving DecidableEq, Repr

inductive Act (δ : Type*)
  /-- The scan changes on the server. -/
  | change (detail : δ)
  | poll
  /-- A `module_status` or `scan_status` event. -/
  | event
  | footprint (payload : Footprint)
  | opened
  | dropped
  /-- The server reads the scan for request `i`. -/
  | answer (i : ℕ)
  | arrive (i : ℕ)
  | fail (i : ℕ)
  | unmount
  deriving DecidableEq, Repr

namespace State

/-- `refresh`, up to its `await`. -/
def refresh (s : State δ) : State δ := { s with requests := s.requests ++ [.sent] }

/-- Request `i` goes on. -/
def put (s : State δ) (i : ℕ) (request : Request δ) : State δ :=
  { s with requests := s.requests.set i request }

/-- The effect begins with a call of `refresh`. -/
def init (server : δ) : State δ := refresh ⟨.mounted, server, []⟩

end State

/-- A scan that has ended stays so on the server. A listener of the stream is
called while it is open, the timer's function while it is set. -/
def step (s : State δ) : Act δ → Option (State δ)
  | .change detail =>
    if isTerminal status s.server && !isTerminal status detail then none
    else some { s with server := detail }
  | .poll => if s.view.timer then some s.refresh else none
  | .event => if s.view.source then some s.refresh else none
  | .footprint payload =>
    if s.view.source then some { s with view := { s.view with footprint := payload } } else none
  | .opened =>
    if s.view.source then some { s with view := { s.view with streaming := true } } else none
  | .dropped =>
    if s.view.source then some { s with view := { s.view with streaming := false } } else none
  | .answer i => match s.requests[i]? with
    | some .sent => some (s.put i (.answered s.server))
    | _ => none
  | .arrive i => match s.requests[i]? with
    | some (.answered detail) =>
      some { s.put i (.arrived detail) with view := s.view.received status detail }
    | _ => none
  | .fail i => match s.requests[i]? with
    | some .sent | some (.answered _) => some (s.put i .failed)
    | _ => none
  | .unmount => if s.view.active then some { s with view := s.view.cleanup } else none

/-! ### What is asked -/

namespace View

/-- A terminal detail is followed by terminal ones only. -/
def Ordered (v : View δ) : Prop :=
  v.stored.Pairwise fun d d' => isTerminal status d = true → isTerminal status d' = true

/-- Nothing asks for the scan any more. -/
structure Stopped (v : View δ) : Prop where
  timer : v.timer = false
  source : v.source = false

/-- The view never goes back, and a terminal detail in it ends the watch. -/
structure Forward (v : View δ) : Prop where
  ordered : v.Ordered status
  once : (∃ d ∈ v.stored, isTerminal status d = true) → v.onFinished = 1
  stopped : (∃ d ∈ v.stored, isTerminal status d = true) → v.Stopped

end View

/-- Of the answers that arrive while the view is there, none that the server gave
before the scan ended comes after one that it gave later. -/
def InOrder (s : State δ) : Act δ → Prop
  | .arrive i => match s.requests[i]? with
    | some (.answered detail) => s.view.active = true → s.requests.any (·.ended status) = true →
      isTerminal status detail = true
    | _ => True
  | _ => True

/-! ### Steps -/

variable {status} {s s' : State δ}

/-- What the steps do that no answer comes with. -/
structure Quiet (status : δ → String) (s s' : State δ) : Prop where
  stored : s'.view.stored = s.view.stored
  finished : s'.view.finished = s.view.finished
  onFinished : s'.view.onFinished = s.view.onFinished
  active : s'.view.active = true → s.view.active = true
  timer : s'.view.timer = true → s.view.timer = true
  source : s'.view.source = true → s.view.source = true
  ended : s'.requests.any (·.ended status) = s.requests.any (·.ended status)
  /-- Requests are sent by the timer and the stream. -/
  length : s.view.Stopped → s'.requests.length = s.requests.length

theorem Quiet.stopped (hq : Quiet status s s') (h : s.view.Stopped) : s'.view.Stopped := by
  constructor
  · by_contra hon
    simpa [h.timer] using hq.timer (by simpa using hon)
  · by_contra hon
    simpa [h.source] using hq.source (by simpa using hon)

theorem any_ended_set {rs : List (Request δ)} {i : ℕ} {r : Request δ} (hr : rs[i]? = some r)
    (hopen : r.ended status = false) (r' : Request δ) :
    (rs.set i r').any (·.ended status) = (rs.any (·.ended status) || r'.ended status) := by
  induction rs generalizing i with
  | nil => simp at hr
  | cons q rs ih =>
    cases i with
    | zero =>
      obtain rfl : q = r := by simpa using hr
      simp [hopen, Bool.or_comm]
    | succ i =>
      have hi := ih (by simpa using hr)
      simp [hi, Bool.or_assoc]

theorem quiet_put {i : ℕ} {r r' : Request δ} (hr : s.requests[i]? = some r)
    (hopen : r.ended status = false) (hopen' : r'.ended status = false) :
    Quiet status s (s.put i r') := by
  refine ⟨rfl, rfl, rfl, id, id, id, ?_, fun _ => ?_⟩
  · change (s.requests.set i r').any _ = _
    rw [any_ended_set hr hopen, hopen', Bool.or_false]
  · exact List.length_set

theorem quiet_refresh (h : s.view.timer = true ∨ s.view.source = true) :
    Quiet status s s.refresh := by
  refine ⟨rfl, rfl, rfl, id, id, id, ?_, fun hs => ?_⟩
  · simp [State.refresh, Request.ended]
  · simp [hs.timer, hs.source] at h

theorem quiet_view {v : View δ} (hstored : v.stored = s.view.stored)
    (hfinished : v.finished = s.view.finished) (hcalls : v.onFinished = s.view.onFinished)
    (hactive : v.active = true → s.view.active = true)
    (htimer : v.timer = true → s.view.timer = true)
    (hsource : v.source = true → s.view.source = true) : Quiet status s { s with view := v } :=
  ⟨hstored, hfinished, hcalls, hactive, htimer, hsource, rfl, fun _ => rfl⟩

/-- **What a step can do**: an answer arrives, or the view goes on as it was. -/
theorem step_cases {a : Act δ} (h : step status s a = some s') :
    (∃ i detail, a = .arrive i ∧ s.requests[i]? = some (.answered detail) ∧
      s' = { s.put i (.arrived detail) with view := s.view.received status detail }) ∨
    ((∀ i, a ≠ .arrive i) ∧ Quiet status s s') := by
  cases a with
  | change detail =>
    simp only [step] at h
    split at h <;> cases h
    exact .inr ⟨by simp, ⟨rfl, rfl, rfl, id, id, id, rfl, fun _ => rfl⟩⟩
  | poll =>
    simp only [step] at h
    split at h <;> cases h
    rename_i htimer
    exact .inr ⟨by simp, quiet_refresh (.inl htimer)⟩
  | event =>
    simp only [step] at h
    split at h <;> cases h
    rename_i hsource
    exact .inr ⟨by simp, quiet_refresh (.inr hsource)⟩
  | footprint payload =>
    simp only [step] at h
    split at h <;> cases h
    exact .inr ⟨by simp, quiet_view rfl rfl rfl id id id⟩
  | opened =>
    simp only [step] at h
    split at h <;> cases h
    exact .inr ⟨by simp, quiet_view rfl rfl rfl id id id⟩
  | dropped =>
    simp only [step] at h
    split at h <;> cases h
    exact .inr ⟨by simp, quiet_view rfl rfl rfl id id id⟩
  | answer i =>
    simp only [step] at h
    split at h <;> cases h
    rename_i hi
    exact .inr ⟨by simp, quiet_put hi rfl rfl⟩
  | arrive i =>
    simp only [step] at h
    split at h <;> cases h
    rename_i detail hi
    exact .inl ⟨i, detail, rfl, hi, rfl⟩
  | fail i =>
    simp only [step] at h
    split at h <;> cases h
    · rename_i hi
      exact .inr ⟨by simp, quiet_put hi rfl rfl⟩
    · rename_i hi
      exact .inr ⟨by simp, quiet_put hi rfl rfl⟩
  | unmount =>
    simp only [step] at h
    split at h <;> cases h
    refine .inr ⟨by simp, quiet_view rfl rfl rfl ?_ ?_ ?_⟩ <;>
      simp [View.cleanup, View.stopWatching]

/-! ### Every run -/

/-- What holds in any order of the answers: the flag tells whether a terminal
detail is stored, it is set once, and nothing is watched from then on. -/
structure Watch (status : δ → String) (s : State δ) : Prop where
  finished : s.view.finished = s.view.stored.any (isTerminal status)
  onFinished : s.view.onFinished = s.view.finished.toNat
  stopped : s.view.finished = true → s.view.Stopped
  ended : s.view.active = true →
    s.requests.any (·.ended status) = s.view.stored.any (isTerminal status)

theorem View.received_of_inactive {v : View δ} (h : v.active = false) (detail : δ) :
    v.received status detail = v := by
  simp [received, h]

/-- **What `refresh` does** with an answer: nothing once the effect is over, the end
of the watch at the first terminal one, and to store it else. -/
theorem View.received_cases (status : δ → String) (v : View δ) (detail : δ) :
    (v.active = false ∧ v.received status detail = v) ∨
    (v.active = true ∧ v.finished = false ∧ isTerminal status detail = true ∧
      v.received status detail = ⟨true, true, false, false, false, v.footprint,
        v.stored ++ [detail], v.onFinished + 1⟩) ∨
    (v.active = true ∧ (isTerminal status detail = true → v.finished = true) ∧
      v.received status detail = { v with stored := v.stored ++ [detail] }) := by
  by_cases hactive : v.active = true
  · by_cases hfirst : (isTerminal status detail && !v.finished) = true
    · have hfirst' : isTerminal status detail = true ∧ v.finished = false := by simpa using hfirst
      exact .inr (.inl ⟨hactive, hfirst'.2, hfirst'.1,
        by simp [received, stopWatching, hactive, hfirst']⟩)
    · refine .inr (.inr ⟨hactive, fun ht => ?_, by simp [received, hactive, hfirst]⟩)
      simpa [ht] using hfirst
  · have hgone : v.active = false := by simpa using hactive
    exact .inl ⟨hgone, received_of_inactive hgone detail⟩

theorem watch_init (server : δ) : Watch status (.init server) :=
  ⟨rfl, rfl, by simp [State.init, State.refresh, View.mounted], fun _ => rfl⟩

theorem watch_of_quiet (hw : Watch status s) (hq : Quiet status s s') : Watch status s' := by
  refine ⟨?_, ?_, fun hfin => hq.stopped (hw.stopped (hq.finished ▸ hfin)), fun hactive => ?_⟩
  · rw [hq.finished, hq.stored, hw.finished]
  · rw [hq.onFinished, hq.finished, hw.onFinished]
  · rw [hq.ended, hq.stored, hw.ended (hq.active hactive)]

/-- An answer keeps this, whenever it arrives. -/
theorem watch_arrive {i : ℕ} {detail : δ} (hw : Watch status s)
    (hi : s.requests[i]? = some (.answered detail)) :
    Watch status { s.put i (.arrived detail) with view := s.view.received status detail } := by
  have hended : (s.requests.set i (.arrived detail)).any (·.ended status) =
      (s.requests.any (·.ended status) || isTerminal status detail) := any_ended_set hi rfl _
  obtain ⟨hgone, hv⟩ | ⟨hactive, hnot, ht, hv⟩ | ⟨hactive, hmore, hv⟩ :=
    s.view.received_cases status detail
  · rw [hv]
    exact ⟨hw.finished, hw.onFinished, hw.stopped, fun h => by simp [hgone] at h⟩
  · have hcalls : s.view.onFinished = 0 := by rw [hw.onFinished, hnot]; rfl
    rw [hv, hcalls]
    refine ⟨?_, rfl, fun _ => ⟨rfl, rfl⟩, fun _ => ?_⟩
    · simp [ht]
    · simp [State.put, hended, ht]
  · -- the flag stays as it is: a terminal answer finds it set
    have hkept : (s.view.finished || isTerminal status detail) = s.view.finished := by
      cases ht : isTerminal status detail with
      | false => exact Bool.or_false _
      | true => rw [hmore ht, Bool.or_true]
    rw [hv]
    refine ⟨?_, hw.onFinished, fun hfin => ?_, fun _ => ?_⟩
    · simp [← hw.finished, hkept]
    · exact ⟨(hw.stopped hfin).timer, (hw.stopped hfin).source⟩
    · simp [State.put, hended, hw.ended hactive]

theorem step_watch (hw : Watch status s) {a : Act δ} (h : step status s a = some s') :
    Watch status s' := by
  obtain ⟨i, detail, rfl, hi, rfl⟩ | ⟨-, hq⟩ := step_cases h
  · exact watch_arrive hw hi
  · exact watch_of_quiet hw hq

/-- **The end is reported once**, and nothing is watched from then on, in every
run. -/
theorem exec_watch {server : δ} {ls : List (Act δ)}
    (h : exec (step status) (.init server) ls = some s) : Watch status s :=
  exec_inv (fun _ _ _ hw hs => step_watch hw hs) (watch_init server) h

theorem View.stored_received {v : View δ} (h : v.active = true) (detail : δ) :
    (v.received status detail).stored = v.stored ++ [detail] := by
  obtain ⟨hgone, -⟩ | ⟨-, -, -, hv⟩ | ⟨-, -, hv⟩ := v.received_cases status detail
  · simp [h] at hgone
  · rw [hv]
  · rw [hv]

theorem View.stopped_received {v : View δ} (h : v.Stopped) (detail : δ) :
    (v.received status detail).Stopped := by
  obtain ⟨-, hv⟩ | ⟨-, -, -, hv⟩ | ⟨-, -, hv⟩ := v.received_cases status detail
  all_goals rw [hv]
  · exact h
  · exact ⟨rfl, rfl⟩
  · exact ⟨h.timer, h.source⟩

theorem step_stopped (hs : s.view.Stopped) {a : Act δ} (h : step status s a = some s') :
    s'.view.Stopped ∧ s'.requests.length = s.requests.length := by
  obtain ⟨i, detail, rfl, hi, rfl⟩ | ⟨-, hq⟩ := step_cases h
  · exact ⟨View.stopped_received hs detail, List.length_set⟩
  · exact ⟨hq.stopped hs, hq.length hs⟩

/-- Once the watch has stopped, no request is sent again: no later answer
corrects what is shown. -/
theorem requests_stopped (hs : s.view.Stopped) {ls : List (Act δ)}
    (h : exec (step status) s ls = some s') : s'.requests.length = s.requests.length :=
  (exec_inv (I := fun u => u.view.Stopped ∧ u.requests.length = s.requests.length)
    (fun _ _ _ hu hstep => by
      obtain ⟨hstopped, hlength⟩ := step_stopped hu.1 hstep
      exact ⟨hstopped, hlength.trans hu.2⟩) ⟨hs, rfl⟩ h).2

/-! ### The order of the answers -/

theorem View.ordered_append {v v' : View δ} {detail : δ}
    (h : v'.stored = v.stored ++ [detail]) : v'.Ordered status ↔ v.Ordered status ∧
      (v.stored.any (isTerminal status) = true → isTerminal status detail = true) := by
  simp only [View.Ordered, h, List.pairwise_append, List.pairwise_singleton, true_and,
    List.mem_singleton, forall_eq, List.any_eq_true]
  exact and_congr_right fun _ => ⟨fun h ⟨d, hd, ht⟩ => h d hd ht, fun h d hd ht => h ⟨d, hd, ht⟩⟩

theorem forward_iff (hw : Watch status s) : s.view.Forward status ↔ s.view.Ordered status := by
  refine ⟨View.Forward.ordered, fun h => ?_⟩
  have hfin (hd : ∃ d ∈ s.view.stored, isTerminal status d = true) : s.view.finished = true := by
    rw [hw.finished]
    exact List.any_eq_true.mpr hd
  refine ⟨h, fun hd => ?_, fun hd => hw.stopped (hfin hd)⟩
  rw [hw.onFinished, hfin hd]
  rfl

/-- **The step.** An answer keeps the order, with the view there, if and only if it
comes in order. -/
theorem ordered_arrive (hw : Watch status s) (ho : s.view.Ordered status) {i : ℕ} {detail : δ}
    (hi : s.requests[i]? = some (.answered detail)) :
    (s.view.received status detail).Ordered status ↔ InOrder status s (.arrive i) := by
  simp only [InOrder, hi]
  cases hactive : s.view.active with
  | false =>
    rw [View.received_of_inactive hactive]
    exact iff_of_true ho fun h => absurd h Bool.false_ne_true
  | true =>
    rw [View.ordered_append (View.stored_received hactive detail), hw.ended hactive]
    exact (and_iff_right ho).trans ⟨fun h _ => h, fun h => h rfl⟩

/-- **The view goes forward** in all states of a run if and only if no answer that
was given before the scan ended arrives after one that was given later, while the
view is there. -/
theorem progress_forward (status : δ → String) (server : δ) (ls : List (Act δ)) (s : State δ)
    (h : exec (step status) (.init server) ls = some s) :
    (∀ ms s', ms <+: ls → exec (step status) (.init server) ms = some s' →
      s'.view.Forward status) ↔ Meets (step status) (InOrder status) (.init server) ls := by
  refine forall_exec_iff_meets (I := fun u => Watch status u ∧ u.view.Ordered status) ?_ ?_ ?_
    ⟨watch_init server, List.Pairwise.nil⟩ h
  · rintro u a u' ⟨hw, ho⟩ hok hstep
    refine ⟨step_watch hw hstep, ?_⟩
    obtain ⟨i, detail, rfl, hi, rfl⟩ | ⟨-, hq⟩ := step_cases hstep
    · exact (ordered_arrive hw ho hi).mpr hok
    · rw [View.Ordered, hq.stored]
      exact ho
  · rintro u a u' ⟨hw, ho⟩ hnot hstep hforward
    obtain ⟨i, detail, rfl, hi, rfl⟩ | ⟨hother, -⟩ := step_cases hstep
    · exact hnot ((ordered_arrive hw ho hi).mp hforward.ordered)
    · cases a with
      | arrive i => exact hother i rfl
      | _ => exact hnot trivial
  · rintro u ⟨hw, ho⟩
    exact (forward_iff hw).mpr ho

/-- A scan that ends between two requests, with the first answer the last to
arrive. -/
def lateAnswer : List (Act String) :=
  [.answer 0, .poll, .change "completed", .answer 1, .arrive 1, .arrive 0]

theorem progress_backward : ∃ s, exec (step id) (.init "running") lateAnswer = some s ∧
    s.view.stored = ["completed", "running"] ∧ s.view.timer = false ∧
      ¬ s.view.Forward id := by
  refine ⟨_, rfl, rfl, rfl, fun h => ?_⟩
  have hlast := (List.pairwise_cons.mp h.ordered).1 "running" (by decide)
  exact absurd (hlast (by decide)) (by decide)

/-- The same scan, with its answers in order. -/
theorem progress_forward_completed : ∃ s, exec (step id) (.init "running")
      [.answer 0, .poll, .change "completed", .answer 1, .arrive 0, .arrive 1] = some s ∧
    ((∀ ms s', ms <+: [.answer 0, .poll, .change "completed", .answer 1, .arrive 0, .arrive 1] →
      exec (step id) (.init "running") ms = some s' → s'.view.Forward id) ↔
        Meets (step id) (InOrder id) (.init "running")
          [.answer 0, .poll, .change "completed", .answer 1, .arrive 0, .arrive 1]) :=
  ⟨_, rfl, progress_forward id "running" _ _ rfl⟩

end ScanLedger.ScanProgress
