/-
# Publisher

`EventPublisher` of one scan (`app/scan/events.py`) with the streams that read
from it (`scan_events` in `app/api/scans.py`), a step for each point at which a
call or a stream may be suspended. A call of `publish` reads the next sequence,
inserts its row, commits, and puts the event into the queue of each stream. One
transaction writes at a time, and another reads what is committed. A stream
subscribes, asks for the events it has missed and yields them, and then yields
what is in its queue.

Key definitions: `PublishCall`, `EventStream`, `Feed`, `FeedAct`, `Feed.step`.
Key theorems: `Feed.step_moves`, `run_publish`.
-/
import ScanLedger.Runner

namespace ScanLedger

open Prog

/-! ### Calls and streams -/

/-- Where a call of `publish` stands. -/
inductive PublishCall
  | called (module : Option String) (event : Event)
  /-- `_next_sequence` has answered. -/
  | numbered (row : ScanEventRow)
  /-- The row is inserted and not committed. -/
  | inserted (row : ScanEventRow)
  /-- It is committed and not broadcast. -/
  | committed (row : ScanEventRow)
  | returned (row : ScanEventRow)
  | raised (x : Exn)
  deriving DecidableEq

/-- The call's transaction has written. -/
def PublishCall.writes : PublishCall → Bool
  | .inserted _ => true
  | .called _ _ | .numbered _ | .committed _ | .returned _ | .raised _ => false

def PublishCall.isOver : PublishCall → Bool
  | .returned _ | .raised _ => true
  | .called _ _ | .numbered _ | .inserted _ | .committed _ => false

/-- A stream: the events it is still to replay, once it has asked for them, its
queue, and what it has sent. -/
structure EventStream where
  lastEventId : ℤ
  missed : Option (List ScanEventRow)
  queue : List ScanEventRow
  sent : List ScanEventRow
  deriving DecidableEq

/-- `events_since`. -/
def Db.eventsSince (db : Db) (scanId : ℕ) (after : ℤ) : List ScanEventRow :=
  (db.events.filter fun row => row.scanId == scanId && decide (after < row.sequence)).insertionSort
    fun row row' => row.sequence ≤ row'.sequence

structure Feed where
  db : Db
  calls : List PublishCall
  streams : List EventStream

/-! ### Steps -/

inductive FeedAct
  /-- `publish` is called. -/
  | call (module : Option String) (event : Event)
  | number (j : ℕ)
  | insert (j : ℕ)
  | commit (j : ℕ)
  | broadcast (j : ℕ)
  /-- A client connects with this Last-Event-ID. -/
  | subscribe (lastEventId : ℤ)
  | query (c : ℕ)
  /-- The next event is sent. -/
  | send (c : ℕ)
  | disconnect (c : ℕ)

namespace Feed

/-- PublishCall `j` goes on. -/
def put (s : Feed) (j : ℕ) (call : PublishCall) : Feed := { s with calls := s.calls.set j call }

/-- Stream `c` goes on. -/
def stream (s : Feed) (c : ℕ) (st : EventStream) : Feed := { s with streams := s.streams.set c st }

def step (scanId : ℕ) (s : Feed) : FeedAct → Option Feed
  | .call module event => some { s with calls := s.calls ++ [.called module event] }
  | .number j => match s.calls[j]? with
    | some (.called module event) =>
      some (s.put j (.numbered ⟨scanId, s.db.nextSequence scanId, module, event⟩))
    | _ => none
  | .insert j => match s.calls[j]? with
    | some (.numbered row) =>
      if s.calls.any (·.writes) then none
      else match s.db.insertEvent row with
        | none => some (s.put j (.raised (.failure .integrity)))
        | some _ => some (s.put j (.inserted row))
    | _ => none
  | .commit j => match s.calls[j]? with
    | some (.inserted row) => (s.db.insertEvent row).map fun db =>
      { s.put j (.committed row) with db }
    | _ => none
  | .broadcast j => match s.calls[j]? with
    | some (.committed row) => some { s.put j (.returned row) with
      streams := s.streams.map fun st => { st with queue := st.queue ++ [row] } }
    | _ => none
  | .subscribe lastEventId =>
    some { s with streams := s.streams ++ [⟨lastEventId, none, [], []⟩] }
  | .query c => match s.streams[c]? with
    | some ⟨after, none, queue, sent⟩ =>
      some (s.stream c ⟨after, some (s.db.eventsSince scanId after), queue, sent⟩)
    | _ => none
  | .send c => match s.streams[c]? with
    | some ⟨after, some (row :: missed), queue, sent⟩ =>
      some (s.stream c ⟨after, some missed, queue, sent ++ [row]⟩)
    | some ⟨after, some [], row :: queue, sent⟩ =>
      some (s.stream c ⟨after, some [], queue, sent ++ [row]⟩)
    | _ => none
  | .disconnect c => some { s with streams := s.streams.eraseIdx c }

end Feed

/-- What the steps come to. -/
inductive FeedMoves (scanId : ℕ) (s : Feed) : FeedAct → Feed → Prop
  | calls (module : Option String) (event : Event) : FeedMoves scanId s (.call module event)
      { s with calls := s.calls ++ [.called module event] }
  | numbers {j : ℕ} {module : Option String} {event : Event}
      (hj : s.calls[j]? = some (.called module event)) : FeedMoves scanId s (.number j)
        (s.put j (.numbered ⟨scanId, s.db.nextSequence scanId, module, event⟩))
  | inserts {j : ℕ} {row : ScanEventRow} (hj : s.calls[j]? = some (.numbered row))
      (hfree : ∀ c ∈ s.calls, c.writes = false) {db : Db} (hdb : s.db.insertEvent row = some db) :
      FeedMoves scanId s (.insert j) (s.put j (.inserted row))
  | fails {j : ℕ} {row : ScanEventRow} (hj : s.calls[j]? = some (.numbered row))
      (hdb : s.db.insertEvent row = none) :
      FeedMoves scanId s (.insert j) (s.put j (.raised (.failure .integrity)))
  | commits {j : ℕ} {row : ScanEventRow} (hj : s.calls[j]? = some (.inserted row)) {db : Db}
      (hdb : s.db.insertEvent row = some db) :
      FeedMoves scanId s (.commit j) { s.put j (.committed row) with db }
  | broadcasts {j : ℕ} {row : ScanEventRow} (hj : s.calls[j]? = some (.committed row)) :
      FeedMoves scanId s (.broadcast j) { s.put j (.returned row) with
        streams := s.streams.map fun st => { st with queue := st.queue ++ [row] } }
  | subscribes (lastEventId : ℤ) : FeedMoves scanId s (.subscribe lastEventId)
      { s with streams := s.streams ++ [⟨lastEventId, none, [], []⟩] }
  | queries {c : ℕ} {after : ℤ} {queue sent : List ScanEventRow}
      (hc : s.streams[c]? = some ⟨after, none, queue, sent⟩) : FeedMoves scanId s (.query c)
        (s.stream c ⟨after, some (s.db.eventsSince scanId after), queue, sent⟩)
  | replays {c : ℕ} {after : ℤ} {row : ScanEventRow} {missed queue sent : List ScanEventRow}
      (hc : s.streams[c]? = some ⟨after, some (row :: missed), queue, sent⟩) :
      FeedMoves scanId s (.send c) (s.stream c ⟨after, some missed, queue, sent ++ [row]⟩)
  | sends {c : ℕ} {after : ℤ} {row : ScanEventRow} {queue sent : List ScanEventRow}
      (hc : s.streams[c]? = some ⟨after, some [], row :: queue, sent⟩) :
      FeedMoves scanId s (.send c) (s.stream c ⟨after, some [], queue, sent ++ [row]⟩)
  | disconnects (c : ℕ) :
      FeedMoves scanId s (.disconnect c) { s with streams := s.streams.eraseIdx c }

theorem Feed.step_moves {scanId : ℕ} {s s' : Feed} {a : FeedAct}
    (h : s.step scanId a = some s') : FeedMoves scanId s a s' := by
  cases a with
  | call module event =>
    cases h
    exact .calls module event
  | number j =>
    simp only [Feed.step] at h
    split at h <;> cases h
    rename_i hj
    exact .numbers hj
  | insert j =>
    simp only [Feed.step] at h
    split at h
    · rename_i row hj
      split_ifs at h with hfree
      rw [List.any_eq_true] at hfree
      have hfree : ∀ c ∈ s.calls, c.writes = false := fun c hc => by
        by_contra hw
        exact hfree ⟨c, hc, by simpa using hw⟩
      split at h <;> cases h
      · rename_i hdb
        exact .fails hj hdb
      · rename_i db hdb
        exact .inserts hj hfree hdb
    · cases h
  | commit j =>
    simp only [Feed.step] at h
    split at h
    · rename_i row hj
      obtain ⟨db, hdb, rfl⟩ := Option.map_eq_some_iff.mp h
      exact .commits hj hdb
    · cases h
  | broadcast j =>
    simp only [Feed.step] at h
    split at h <;> cases h
    rename_i row hj
    exact .broadcasts hj
  | subscribe lastEventId =>
    cases h
    exact .subscribes lastEventId
  | query c =>
    simp only [Feed.step] at h
    split at h <;> cases h
    rename_i hc
    exact .queries hc
  | send c =>
    simp only [Feed.step] at h
    split at h <;> cases h
    · rename_i hc
      exact .replays hc
    · rename_i hc
      exact .sends hc
  | disconnect c =>
    cases h
    exact .disconnects c

/-- A call that nothing comes between stores what the runner's `publish` stores. -/
theorem run_publish (e : Answers) (w : World) {scanId : ℕ} (h : w.db.hasScan scanId = true)
    (event : Event) (module : Option String) :
    (publish scanId event module).run (World.serve e) w = (.ok (), { w with
      db := { w.db with
        events := w.db.events ++ [⟨scanId, w.db.nextSequence scanId, module, event⟩] } }) := by
  have hinsert := World.serve_insertEvent (e := e) h module event
  have hnext : w.serve e (.nextSequence scanId) = (.ok (w.db.nextSequence scanId), w) := rfl
  unfold publish ask
  simp only [bind_eq, run_bind, run_perform, hnext, hinsert]

end ScanLedger
