/-
# Sequences

`publish` reads the highest sequence in one step and inserts the next in
another: two calls that read before either commits read the same, and the later
insert breaks the constraint and raises. A run of calls is free of such races,
with the events numbered from 1 on without a gap, if and only if every row is
inserted while its number is still the next one.

Key definitions: `RaceFree`, `InsertsNext`, `Numbering`.
Key theorems: `numbering_step`, `sequences_raceFree`.
-/
import ScanLedger.Lib.Run
import ScanLedger.Lib.Tasks
import ScanLedger.Completion
import ScanLedger.Publisher

namespace ScanLedger

open Run Table Tasks

/-! ### The property, and its condition -/

/-- The events of a scan are numbered from 1 on, in their order. -/
def Db.Numbered (db : Db) (scanId : ℕ) : Prop :=
  db.sequences scanId = List.range' 1 (db.sequences scanId).length

/-- A call goes on. -/
def FeedAct.resumes : FeedAct → Bool
  | .number _ | .insert _ | .commit _ | .broadcast _ => true
  | .call _ _ | .subscribe _ | .query _ | .send _ | .disconnect _ => false

/-- No call has raised, the events are numbered without a gap, and while a call
has not returned one can go on. -/
structure RaceFree (scanId : ℕ) (s : Feed) : Prop where
  safe : ∀ c ∈ s.calls, ∀ x, c ≠ .raised x
  numbered : s.db.Numbered scanId
  goesOn : (∃ c ∈ s.calls, c.isOver = false) →
    ∃ a : FeedAct, a.resumes = true ∧ (s.step scanId a).isSome = true

/-- The row that the call inserts next. -/
def PublishCall.unwritten : PublishCall → Option ScanEventRow
  | .numbered row => some row
  | .called _ _ | .inserted _ | .committed _ | .returned _ | .raised _ => none

/-- A row is inserted while its number is still the next one. -/
def InsertsNext (scanId : ℕ) (s : Feed) : FeedAct → Prop
  | .insert j => ∀ row ∈ s.calls[j]?.bind PublishCall.unwritten,
      row.sequence = s.db.nextSequence scanId
  | _ => True

/-! ### The invariant -/

/-- Every number that was read was the next one at some time, and that of the
transaction that writes still is. -/
structure Numbering (scanId : ℕ) (s : Feed) : Prop where
  there : s.db.hasScan scanId = true
  numbered : s.db.Numbered scanId
  safe : ∀ c ∈ s.calls, ∀ x, c ≠ .raised x
  one : s.calls.countP (·.writes) ≤ 1
  read : ∀ row, .numbered row ∈ s.calls → row.scanId = scanId ∧ 1 ≤ row.sequence ∧
    row.sequence ≤ s.db.nextSequence scanId
  next : ∀ row, .inserted row ∈ s.calls → row.scanId = scanId ∧
    row.sequence = s.db.nextSequence scanId

section

variable {scanId : ℕ} {s s' : Feed} {a : FeedAct} {db db' : Db} {row : ScanEventRow}

theorem numbering_start (hthere : db.hasScan scanId = true) (hnumbered : db.Numbered scanId) :
    Numbering scanId ⟨db, [], []⟩ where
  there := hthere
  numbered := hnumbered
  safe _ h := absurd h List.not_mem_nil
  one := Nat.zero_le 1
  read _ h := absurd h List.not_mem_nil
  next _ h := absurd h List.not_mem_nil

theorem Db.Numbered.next (h : db.Numbered scanId) :
    db.nextSequence scanId = (db.sequences scanId).length + 1 := by
  unfold nextSequence
  rw [h, nextNumber_range, ← h]

/-- An event with the next number is stored, and the events stay numbered. -/
theorem Db.Numbered.insert (h : db.Numbered scanId) (hid : row.scanId = scanId)
    (hnext : row.sequence = db.nextSequence scanId) (hdb : db.insertEvent row = some db') :
    db'.hasScan scanId = true ∧ db'.Numbered scanId ∧
      db'.nextSequence scanId = db.nextSequence scanId + 1 := by
  obtain ⟨⟨hthere, -⟩, rfl⟩ := Db.insertEvent_eq_some.mp hdb
  have hsequences : Db.sequences { db with events := db.events ++ [row] } scanId =
      db.sequences scanId ++ [(db.sequences scanId).length + 1] := by
    rw [← h.next, ← hnext]
    unfold sequences
    rw [List.filter_append, List.map_append, List.filter_singleton, hid, beq_self_eq_true]
    rfl
  have hnumbered : Db.Numbered { db with events := db.events ++ [row] } scanId := by
    unfold Numbered
    rw [hsequences, List.length_append, List.length_singleton, List.range'_concat, ← h]
    simp [Nat.add_comm]
  refine ⟨hid ▸ hthere, hnumbered, ?_⟩
  rw [hnumbered.next, hsequences, h.next, List.length_append, List.length_singleton]

/-- A number that is not the next any more is taken. -/
theorem Numbering.taken (h : Numbering scanId s) (hrow : .numbered row ∈ s.calls)
    (hne : row.sequence ≠ s.db.nextSequence scanId) : s.db.insertEvent row = none := by
  obtain ⟨hid, hpos, hle⟩ := h.read row hrow
  have hnext := h.numbered.next
  have htaken : row.sequence ∈ s.db.sequences row.scanId := by
    rw [hid, h.numbered, List.mem_range'_1]
    omega
  exact if_neg fun hok => hok.2 htaken

theorem Numbering.inserts (h : Numbering scanId s) (hid : row.scanId = scanId)
    (hnext : row.sequence = s.db.nextSequence scanId) : (s.db.insertEvent row).isSome = true := by
  have hfree : row.sequence ∉ s.db.sequences row.scanId := by
    rw [hid, hnext]
    exact nextNumber_notMem _
  unfold Db.insertEvent
  rw [if_pos ⟨hid ▸ h.there, hfree⟩]
  rfl

/-! ### Steps -/

/-- A call goes on with nothing committed. -/
theorem Numbering.put (h : Numbering scanId s) {j : ℕ} {c c' : PublishCall}
    (hj : s.calls[j]? = some c) (hsafe : ∀ x, c' ≠ .raised x)
    (hone : c'.writes = true → s.calls.countP (·.writes) = 0)
    (hread : ∀ row, c' = .numbered row → row.scanId = scanId ∧ 1 ≤ row.sequence ∧
      row.sequence ≤ s.db.nextSequence scanId)
    (hnext : ∀ row, c' = .inserted row → row.scanId = scanId ∧
      row.sequence = s.db.nextSequence scanId) : Numbering scanId (s.put j c') where
  there := h.there
  numbered := h.numbered
  safe d hd x := by
    rcases mem_set hd with rfl | hd
    · exact hsafe x
    · exact h.safe d hd x
  one := by
    have hcount := countP_set_add (y := c') hj (·.writes)
    have hle := h.one
    show (s.calls.set j c').countP (·.writes) ≤ 1
    by_cases hw : c'.writes = true
    · have hnone := hone hw
      rw [if_pos hw] at hcount
      omega
    · rw [if_neg hw] at hcount
      omega
  read row hrow := by
    rcases mem_set hrow with heq | hrow
    · exact hread row heq.symm
    · exact h.read row hrow
  next row hrow := by
    rcases mem_set hrow with heq | hrow
    · exact hnext row heq.symm
    · exact h.next row hrow

/-- The transaction that writes commits. -/
theorem Numbering.commit (h : Numbering scanId s) {j : ℕ} (hj : s.calls[j]? = some (.inserted row))
    (hdb : s.db.insertEvent row = some db) :
    Numbering scanId { s.put j (.committed row) with db } := by
  obtain ⟨hid, hnext⟩ := h.next row (List.mem_of_getElem? hj)
  obtain ⟨hthere, hnumbered, hsucc⟩ := h.numbered.insert hid hnext hdb
  have hnone : (s.calls.set j (.committed row)).countP (·.writes) = 0 := by
    have hcount : (s.calls.set j (.committed row)).countP (·.writes) + 1 =
        s.calls.countP (·.writes) + 0 := countP_set_add hj (·.writes)
    have hle := h.one
    omega
  refine ⟨hthere, hnumbered, fun d hd x => ?_, ?_, fun row' hrow => ?_, fun row' hrow => ?_⟩
  · rcases mem_set hd with rfl | hd
    · exact nofun
    · exact h.safe d hd x
  · show (s.calls.set j (.committed row)).countP (·.writes) ≤ 1
    rw [hnone]
    exact Nat.zero_le 1
  · rcases mem_set hrow with heq | hrow
    · cases heq
    · obtain ⟨hid', hpos, hle⟩ := h.read row' hrow
      refine ⟨hid', hpos, ?_⟩
      show row'.sequence ≤ db.nextSequence scanId
      omega
  · -- no other had written
    rw [List.countP_eq_zero] at hnone
    exact absurd rfl (hnone _ hrow)

/-- **One step.** -/
theorem numbering_step (h : Numbering scanId s) (hok : InsertsNext scanId s a)
    (hs : s.step scanId a = some s') : Numbering scanId s' := by
  cases Feed.step_moves hs with
  | calls module event =>
    refine ⟨h.there, h.numbered, fun c hc => ?_, ?_, fun row hrow => ?_, fun row hrow => ?_⟩
    · rcases List.mem_append.mp hc with hc | hc
      · exact h.safe c hc
      · rw [List.mem_singleton.mp hc]
        exact nofun
    · show (s.calls ++ [PublishCall.called module event]).countP PublishCall.writes ≤ 1
      rw [List.countP_append]
      exact h.one
    · rcases List.mem_append.mp hrow with hrow | hrow
      · exact h.read row hrow
      · cases List.mem_singleton.mp hrow
    · rcases List.mem_append.mp hrow with hrow | hrow
      · exact h.next row hrow
      · cases List.mem_singleton.mp hrow
  | numbers hj =>
    refine h.put hj nofun nofun (fun row heq => ?_) nofun
    cases heq
    have hpos : 1 ≤ s.db.nextSequence scanId := by
      rw [h.numbered.next]
      omega
    exact ⟨rfl, hpos, le_rfl⟩
  | inserts hj hfree hdb =>
    have hnone : s.calls.countP (·.writes) = 0 := by
      rw [List.countP_eq_zero]
      exact fun c hc => by simp [hfree c hc]
    refine h.put hj nofun (fun _ => hnone) nofun fun row heq => ?_
    cases heq
    exact ⟨(h.read _ (List.mem_of_getElem? hj)).1, hok _ (by rw [hj]; rfl)⟩
  | fails hj hdb =>
    have hinserts := h.inserts (h.read _ (List.mem_of_getElem? hj)).1
      (hok _ (by rw [hj]; rfl))
    rw [hdb] at hinserts
    cases hinserts
  | commits hj hdb => exact h.commit hj hdb
  | broadcasts hj =>
    rename_i j row
    have hput : Numbering scanId (s.put j (.returned row)) := h.put hj nofun nofun nofun nofun
    exact ⟨hput.there, hput.numbered, hput.safe, hput.one, hput.read, hput.next⟩
  | subscribes | queries | replays | sends | disconnects =>
    exact ⟨h.there, h.numbered, h.safe, h.one, h.read, h.next⟩

/-- A call that has raised has. -/
theorem raised_step {x : Exn} (h : .raised x ∈ s.calls) (hs : s.step scanId a = some s') :
    .raised x ∈ s'.calls := by
  cases Feed.step_moves hs with
  | calls => exact List.mem_append_left _ h
  | numbers hj | inserts hj | fails hj | commits hj | broadcasts hj =>
    exact mem_set_of_ne hj h nofun
  | subscribes | queries | replays | sends | disconnects => exact h

/-- A number that was overtaken raises. -/
theorem Numbering.raises (h : Numbering scanId s) (hok : ¬ InsertsNext scanId s a)
    (hs : s.step scanId a = some s') : ∃ x, .raised x ∈ s'.calls := by
  cases Feed.step_moves hs with
  | inserts hj hfree hdb =>
    refine absurd (fun row hrow => ?_) hok
    rw [hj] at hrow
    cases hrow
    by_contra hne
    rw [h.taken (List.mem_of_getElem? hj) hne] at hdb
    cases hdb
  | fails hj hdb =>
    obtain ⟨hlt, -⟩ := List.getElem?_eq_some_iff.mp hj
    exact ⟨_, List.mem_set hlt _⟩
  | calls | numbers | commits | broadcasts | subscribes | queries | replays | sends
  | disconnects => exact absurd trivial hok

/-- While a call has not returned, it can go on, or the one that writes can. -/
theorem Numbering.goesOn (h : Numbering scanId s) (hopen : ∃ c ∈ s.calls, c.isOver = false) :
    ∃ a : FeedAct, a.resumes = true ∧ (s.step scanId a).isSome = true := by
  by_cases hw : ∃ row, .inserted row ∈ s.calls
  · obtain ⟨row, hrow⟩ := hw
    obtain ⟨j, hj⟩ := List.getElem?_of_mem hrow
    obtain ⟨hid, hnext⟩ := h.next row hrow
    refine ⟨.commit j, rfl, ?_⟩
    simp only [Feed.step, hj, Option.isSome_map]
    exact h.inserts hid hnext
  · have hfree : ¬ s.calls.any (·.writes) = true := fun hany => by
      obtain ⟨c, hc, hwrites⟩ := List.any_eq_true.mp hany
      cases c with
      | inserted row => exact hw ⟨row, hc⟩
      | called | numbered | committed | returned | raised => cases hwrites
    obtain ⟨c, hc, hover⟩ := hopen
    obtain ⟨j, hj⟩ := List.getElem?_of_mem hc
    cases c with
    | called module event => exact ⟨.number j, rfl, by simp only [Feed.step, hj]; rfl⟩
    | numbered row =>
      refine ⟨.insert j, rfl, ?_⟩
      simp only [Feed.step, hj]
      rw [if_neg hfree]
      cases s.db.insertEvent row <;> rfl
    | inserted row => exact absurd ⟨row, hc⟩ hw
    | committed row => exact ⟨.broadcast j, rfl, by simp only [Feed.step, hj]; rfl⟩
    | returned | raised => cases hover

theorem Numbering.raceFree (h : Numbering scanId s) : RaceFree scanId s :=
  ⟨h.safe, h.numbered, h.goesOn⟩

end

/-- **Races.** A run of calls is free of races if and only if it inserts every
row while its number is the next one. -/
theorem sequences_raceFree (scanId : ℕ) (db : Db) (hthere : db.hasScan scanId = true)
    (hnumbered : db.Numbered scanId) (ls : List FeedAct) (s : Feed)
    (hr : exec (Feed.step scanId) ⟨db, [], []⟩ ls = some s) :
    RaceFree scanId s ↔ Meets (Feed.step scanId) (InsertsNext scanId) ⟨db, [], []⟩ ls :=
  exec_iff_meets (B := fun s => ∃ x, .raised x ∈ s.calls)
    (fun _ _ _ h hok hs => numbering_step h hok hs)
    (fun _ _ _ h hok hs => h.raises hok hs) (fun _ _ _ ⟨x, h⟩ hs => ⟨x, raised_step h hs⟩)
    (fun _ h => h.raceFree) (fun _ ⟨x, h⟩ hfree => hfree.safe _ h x rfl)
    (numbering_start hthere hnumbered) hr

/-! ### Two calls at once -/

instance (scanId : ℕ) (s : Feed) : ∀ a, Decidable (InsertsNext scanId s a)
  | .insert j => inferInstanceAs (Decidable (∀ row ∈ s.calls[j]?.bind PublishCall.unwritten, _))
  | .call _ _ | .number _ | .commit _ | .broadcast _ | .subscribe _ | .query _ | .send _
  | .disconnect _ => inferInstanceAs (Decidable True)

/-- The runner's event and the ticker's. -/
def twoCalls : List FeedAct := [.call none .scanRunning, .call none (.footprint 1 1)]

/-- The ticker reads when the runner has committed. -/
theorem sequences_raceFree_lab : RaceFree 1 ((exec (Feed.step 1) ⟨labDb, [], []⟩
    (twoCalls ++ [.number 0, .insert 0, .commit 0, .number 1, .broadcast 0, .insert 1, .commit 1,
      .broadcast 1])).get (by decide +kernel)) :=
  (sequences_raceFree 1 labDb (by decide +kernel) rfl _ _ (Option.some_get _).symm).mpr
    (by decide +kernel)

/-- Both read before either commits, and the second insert raises. -/
theorem not_sequences_raceFree : ¬ ∀ (scanId : ℕ) (db : Db) (ls : List FeedAct) (s : Feed),
    db.hasScan scanId = true → db.Numbered scanId →
    exec (Feed.step scanId) ⟨db, [], []⟩ ls = some s → RaceFree scanId s := by
  intro h
  let ls : List FeedAct := twoCalls ++ [.number 0, .number 1, .insert 0, .commit 0, .insert 1]
  have hfree := h 1 labDb ls _ (by decide +kernel) rfl
    (Option.some_get (x := exec (Feed.step 1) ⟨labDb, [], []⟩ ls) (by decide +kernel)).symm
  exact hfree.safe (.raised (.failure .integrity)) (by decide +kernel) _ rfl

end ScanLedger
