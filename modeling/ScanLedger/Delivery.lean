/-
# Delivery

A stream subscribes before it asks for what it has missed, so that nothing is
lost in between; but an event that is committed by the query and broadcast after
the subscription reaches it twice, once in the replay and once in the queue.
Where no such event is after its Last-Event-ID, a stream sends every event after
that once and in order, given that the calls of `publish` are made in turn.

Key definitions: `Delivered`, `InTurn`, `ReplaysAlone`, `Following`, `Orderly`.
Key theorems: `orderly_step`, `delivered_once`.
-/
import ScanLedger.Sequences

namespace ScanLedger

open Run Table Tasks

/-! ### The property, and its conditions -/

/-- The event is stored, and it is not about to be broadcast. -/
def Feed.Published (scanId : ℕ) (s : Feed) (row : ScanEventRow) : Prop :=
  row ∈ s.db.events ∧ row.scanId = scanId ∧ .committed row ∉ s.calls

/-- The stream sends in increasing order, and once it has nothing left to send,
it has sent each event after its Last-Event-ID once. -/
structure Delivered (scanId : ℕ) (s : Feed) (st : EventStream) : Prop where
  increasing : st.sent.Pairwise fun row row' => row.sequence < row'.sequence
  complete : st.missed = some [] → st.queue = [] → ∀ row, s.Published scanId row →
    st.lastEventId < row.sequence → st.sent.count row = 1

/-- `publish` is called when all calls before have ended. -/
def InTurn (s : Feed) : FeedAct → Prop
  | .call _ _ => ∀ c ∈ s.calls, c.isOver = true
  | _ => True

/-- The event that the call broadcasts next. -/
def PublishCall.unsent : PublishCall → Option ScanEventRow
  | .committed row => some row
  | .called _ _ | .numbered _ | .inserted _ | .returned _ | .raised _ => none

/-- A stream asks for what it has missed when none of that is in its queue or
about to be. -/
def ReplaysAlone (s : Feed) : FeedAct → Prop
  | .query c => ∀ st ∈ s.streams[c]?, (∀ row ∈ st.queue, row.sequence ≤ st.lastEventId) ∧
      ∀ call ∈ s.calls, ∀ row ∈ call.unsent, row.sequence ≤ st.lastEventId
  | _ => True

/-! ### The invariant -/

/-- What a stream has sent, and what it will send of what it has. -/
def EventStream.all (st : EventStream) : List ScanEventRow :=
  st.sent ++ st.missed.getD [] ++ st.queue

/-- A stream has events that are published, in order: all of those after the
first it has before its query, and all after its Last-Event-ID from then on. -/
structure Following (scanId : ℕ) (s : Feed) (st : EventStream) : Prop where
  increasing : st.all.Pairwise fun row row' => row.sequence < row'.sequence
  published : ∀ row ∈ st.all, s.Published scanId row
  before : st.missed = none → st.sent = [] ∧ ∀ row ∈ st.queue, ∀ row', s.Published scanId row' →
    row.sequence < row'.sequence → row' ∈ st.queue
  after : st.missed ≠ none → ∀ row, s.Published scanId row →
    st.lastEventId < row.sequence → row ∈ st.all

/-- With calls in turn, at most one is not over, and its event comes last. -/
structure Orderly (scanId : ℕ) (s : Feed) : Prop where
  distinct : (s.db.sequences scanId).Nodup
  one : s.calls.countP (!·.isOver) ≤ 1
  read : ∀ row, .numbered row ∈ s.calls ∨ .inserted row ∈ s.calls → row.scanId = scanId ∧
    ∀ n ∈ s.db.sequences scanId, n < row.sequence
  unsent : ∀ row, .committed row ∈ s.calls → row ∈ s.db.events ∧ row.scanId = scanId ∧
    ∀ row' ∈ s.db.events, row'.scanId = scanId → row' = row ∨ row'.sequence < row.sequence
  follow : ∀ st ∈ s.streams, Following scanId s st

section

variable {scanId : ℕ} {s s' : Feed} {a : FeedAct} {db : Db} {row : ScanEventRow}

theorem orderly_start (h : (db.sequences scanId).Nodup) :
    Orderly scanId ⟨db, [], []⟩ where
  distinct := h
  one := Nat.zero_le 1
  read _ h := by rcases h with h | h <;> exact absurd h List.not_mem_nil
  unsent _ h := absurd h List.not_mem_nil
  follow _ h := absurd h List.not_mem_nil

theorem Following.delivered {st : EventStream} (h : Following scanId s st) :
    Delivered scanId s st where
  increasing := by
    have hall := h.increasing
    unfold EventStream.all at hall
    exact (List.pairwise_append.mp (List.pairwise_append.mp hall).1).1
  complete hmissed hqueue row hrow hafter := by
    have hmem := h.after (by rw [hmissed]; exact nofun) row hrow hafter
    have hall : st.all = st.sent := by
      unfold EventStream.all
      rw [hmissed, hqueue, Option.getD_some, List.append_nil, List.append_nil]
    have hnodup : st.sent.Nodup := by
      have hincreasing := h.increasing
      rw [hall] at hincreasing
      exact hincreasing.imp fun hlt heq => by rw [heq] at hlt; exact lt_irrefl _ hlt
    rw [hall] at hmem
    exact List.count_eq_one_of_mem hnodup hmem

/-- A stream that has the same, with the same published, follows still. -/
theorem Following.same {st st' : EventStream} (h : Following scanId s st)
    (hpub : ∀ row, s'.Published scanId row ↔ s.Published scanId row) (hall : st'.all = st.all)
    (hafter : st'.lastEventId = st.lastEventId) (hmissed : st'.missed = none ↔ st.missed = none)
    (hqueue : st.missed = none → st' = st) : Following scanId s' st' where
  increasing := hall ▸ h.increasing
  published row hrow := (hpub row).mpr (h.published row (hall ▸ hrow))
  before hnone := by
    have hnone := hmissed.mp hnone
    rw [hqueue hnone]
    obtain ⟨hsent, hclosed⟩ := h.before hnone
    exact ⟨hsent, fun row hrow row' hrow' => hclosed row hrow row' ((hpub row').mp hrow')⟩
  after hsome row hrow hlt := by
    rw [hall]
    rw [hafter] at hlt
    exact h.after (fun hnone => hsome (hmissed.mpr hnone)) row ((hpub row).mp hrow) hlt

/-- The event that was committed comes to the queue. -/
theorem Following.receive {st : EventStream} (h : Following scanId s st)
    (hrow : row ∈ s.db.events) (hid : row.scanId = scanId)
    (hlast : ∀ row' ∈ s.db.events, row'.scanId = scanId →
      row' = row ∨ row'.sequence < row.sequence)
    (hunsent : .committed row ∈ s.calls)
    (hpub : ∀ row', s'.Published scanId row' ↔ s.Published scanId row' ∨ row' = row) :
    Following scanId s' { st with queue := st.queue ++ [row] } := by
  have hbefore : ∀ row', s.Published scanId row' → row'.sequence < row.sequence := by
    rintro row' ⟨hmem, hid', hnot⟩
    rcases hlast row' hmem hid' with rfl | hlt
    · exact absurd hunsent hnot
    · exact hlt
  have hall : EventStream.all { st with queue := st.queue ++ [row] } = st.all ++ [row] := by
    unfold EventStream.all
    simp only [List.append_assoc]
  refine ⟨?_, fun row' hmem => ?_, fun hnone => ?_, fun hsome row' hrow' hlt => ?_⟩
  · rw [hall, List.pairwise_append]
    refine ⟨h.increasing, List.pairwise_singleton _ _, fun row' hmem last hlast => ?_⟩
    rw [List.mem_singleton.mp hlast]
    exact hbefore row' (h.published row' hmem)
  · rw [hall] at hmem
    rcases List.mem_append.mp hmem with hmem | hmem
    · exact (hpub row').mpr (Or.inl (h.published row' hmem))
    · exact (hpub row').mpr (Or.inr (List.mem_singleton.mp hmem))
  · obtain ⟨hsent, hclosed⟩ := h.before hnone
    refine ⟨hsent, fun q hq row' hrow' hlt => ?_⟩
    rcases (hpub row').mp hrow' with hrow' | rfl
    · rcases List.mem_append.mp hq with hq | hq
      · exact List.mem_append_left _ (hclosed q hq row' hrow' hlt)
      · rw [List.mem_singleton.mp hq] at hlt
        exact absurd hlt (not_lt_of_gt (hbefore row' hrow'))
    · exact List.mem_append_right _ (List.mem_singleton_self _)
  · rw [hall]
    rcases (hpub row').mp hrow' with hrow' | rfl
    · exact List.mem_append_left _ (h.after hsome row' hrow' hlt)
    · exact List.mem_append_right _ (List.mem_singleton_self _)

/-- What a stream has missed, in order. -/
theorem Db.eventsSince_of_distinct (h : (db.sequences scanId).Nodup) (after : ℤ) :
    (db.eventsSince scanId after).Pairwise (fun row row' => row.sequence < row'.sequence) ∧
      ∀ row, row ∈ db.eventsSince scanId after ↔
        row ∈ db.events ∧ row.scanId = scanId ∧ after < row.sequence := by
  have hperm := List.perm_insertionSort
    (fun row row' : ScanEventRow => row.sequence ≤ row'.sequence)
    (db.events.filter fun row => row.scanId == scanId && decide (after < row.sequence))
  have hsorted := List.pairwise_insertionSort
    (fun row row' : ScanEventRow => row.sequence ≤ row'.sequence)
    (db.events.filter fun row => row.scanId == scanId && decide (after < row.sequence))
  have hrows : (db.events.filter (·.scanId == scanId)).Pairwise
      fun row row' => row.sequence ≠ row'.sequence := List.pairwise_map.mp h
  have hfilter : (db.events.filter fun row =>
      row.scanId == scanId && decide (after < row.sequence)).Pairwise
        fun row row' => row.sequence ≠ row'.sequence := by
    have hsub := hrows.filter fun row : ScanEventRow => decide (after < row.sequence)
    rwa [List.filter_filter, List.filter_congr fun row _ => Bool.and_comm _ _] at hsub
  unfold eventsSince
  refine ⟨?_, fun row => ?_⟩
  · have hdistinct := hperm.symm.pairwise hfilter fun hne => Ne.symm hne
    exact (hsorted.and hdistinct).imp fun ⟨hle, hne⟩ => lt_of_le_of_ne hle hne
  · rw [hperm.mem_iff, List.mem_filter, Bool.and_eq_true, beq_iff_eq, decide_eq_true_iff]

/-- The stream asks for what it has missed. -/
theorem Following.query {after : ℤ} {queue sent : List ScanEventRow}
    (h : Following scanId s ⟨after, none, queue, sent⟩)
    (hdistinct : (s.db.sequences scanId).Nodup)
    (hqueue : ∀ row ∈ queue, row.sequence ≤ after)
    (hunsent : ∀ row, .committed row ∈ s.calls → row.sequence ≤ after) (hdb : s'.db = s.db)
    (hcalls : s'.calls = s.calls) :
    Following scanId s' ⟨after, some (s.db.eventsSince scanId after), queue, sent⟩ := by
  obtain ⟨hincreasing, hmem⟩ := Db.eventsSince_of_distinct hdistinct after
  obtain ⟨hsent, hclosed⟩ := h.before rfl
  have hsent : sent = [] := hsent
  subst hsent
  have hpub : ∀ row, s'.Published scanId row ↔ s.Published scanId row := fun row => by
    unfold Feed.Published
    rw [hdb, hcalls]
  have hmissed : ∀ row ∈ s.db.eventsSince scanId after, s.Published scanId row := fun row hrow => by
    obtain ⟨hevent, hid, hlt⟩ := (hmem row).mp hrow
    refine ⟨hevent, hid, fun hcommitted => ?_⟩
    have hle := hunsent row hcommitted
    omega
  refine ⟨?_, fun row hrow => ?_, nofun, fun _ row hrow hlt => ?_⟩
  · refine List.pairwise_append.mpr ⟨hincreasing, h.increasing, fun row hrow row' hrow' => ?_⟩
    -- there is none to replay where there is one in the queue
    obtain ⟨-, -, hlt⟩ := (hmem row).mp hrow
    have hle' := hqueue row' hrow'
    have hqueued := hclosed row' hrow' row (hmissed row hrow) (by omega)
    have hle := hqueue row hqueued
    omega
  · rcases List.mem_append.mp hrow with hrow | hrow
    · exact (hpub row).mpr (hmissed row hrow)
    · exact (hpub row).mpr (h.published row hrow)
  · obtain ⟨hevent, hid, -⟩ := (hpub row).mp hrow
    exact List.mem_append_left _ ((hmem row).mpr ⟨hevent, hid, hlt⟩)

/-! ### Steps -/

theorem Feed.published_congr (hdb : s'.db = s.db) (hcalls : s'.calls = s.calls) :
    ∀ row, s'.Published scanId row ↔ s.Published scanId row := fun row => by
  unfold Feed.Published
  rw [hdb, hcalls]

/-- With calls in turn, one that is not over is the only one. -/
theorem Orderly.only (h : Orderly scanId s) {j : ℕ} {c : PublishCall} (c' : PublishCall)
    (hj : s.calls[j]? = some c) (hc : c.isOver = false) :
    ∀ d ∈ s.calls.set j c', d = c' ∨ d.isOver = true := by
  intro d hd
  rcases of_mem_set h.one hj (by rw [hc]; rfl) hd with heq | hover
  · exact Or.inl heq
  · exact Or.inr (by simpa using hover)

/-- A call goes on with nothing committed or broadcast. -/
theorem Orderly.put (h : Orderly scanId s) {j : ℕ} {c c' : PublishCall}
    (hj : s.calls[j]? = some c) (hc : c.isOver = false) (hold : c.unsent = none)
    (hnew : c'.unsent = none)
    (hread : ∀ row, c' = .numbered row ∨ c' = .inserted row → row.scanId = scanId ∧
      ∀ n ∈ s.db.sequences scanId, n < row.sequence) : Orderly scanId (s.put j c') := by
  have hunsent : ∀ row, .committed row ∈ s.calls.set j c' ↔ .committed row ∈ s.calls := by
    intro row
    refine ⟨fun hmem => ?_, fun hmem => mem_set_of_ne hj hmem ?_⟩
    · rcases mem_set hmem with rfl | hmem
      · cases hnew
      · exact hmem
    · rintro rfl
      cases hold
  have hpub : ∀ row, (s.put j c').Published scanId row ↔ s.Published scanId row := fun row =>
    and_congr_right fun _ => and_congr_right fun _ => not_congr (hunsent row)
  refine ⟨h.distinct, ?_, fun row hrow => ?_, fun row hrow => h.unsent row ((hunsent row).mp hrow),
    fun st hst => (h.follow st hst).same hpub rfl rfl Iff.rfl fun _ => rfl⟩
  · have hcount := countP_set_add (y := c') hj (!·.isOver)
    have hle := h.one
    show (s.calls.set j c').countP (!·.isOver) ≤ 1
    rw [hc] at hcount
    have hbound : (if (!c'.isOver) = true then 1 else 0) ≤ 1 := by split_ifs <;> omega
    simp only [Bool.not_false, if_true] at hcount
    omega
  · rcases hrow with hrow | hrow
    · rcases mem_set hrow with heq | hrow
      · exact hread row (Or.inl heq.symm)
      · exact h.read row (Or.inl hrow)
    · rcases mem_set hrow with heq | hrow
      · exact hread row (Or.inr heq.symm)
      · exact h.read row (Or.inr hrow)

theorem Orderly.commit (h : Orderly scanId s) {j : ℕ} (hj : s.calls[j]? = some (.inserted row))
    (hdb : s.db.insertEvent row = some db) :
    Orderly scanId { s.put j (.committed row) with db } := by
  obtain ⟨-, rfl⟩ := Db.insertEvent_eq_some.mp hdb
  obtain ⟨hid, hlast⟩ := h.read row (Or.inr (List.mem_of_getElem? hj))
  have honly := h.only (.committed row) hj rfl
  have hsequence : ∀ row' ∈ s.db.events, row'.scanId = scanId → row'.sequence < row.sequence :=
    fun row' hmem hid' => hlast _ (List.mem_map_of_mem (List.mem_filter.mpr ⟨hmem, by simp [hid']⟩))
  have hunsent : ∀ row', .committed row' ∈ s.calls.set j (.committed row) → row' = row := by
    intro row' hmem
    rcases honly _ hmem with heq | hover
    · cases heq
      rfl
    · cases hover
  have hpub : ∀ row', Feed.Published scanId { s.put j (.committed row) with
      db := { s.db with events := s.db.events ++ [row] } } row' ↔ s.Published scanId row' := by
    intro row'
    refine ⟨fun ⟨hmem, hid', hnot⟩ => ?_, fun ⟨hmem, hid', hnot⟩ => ?_⟩
    · rcases List.mem_append.mp hmem with hmem | hmem
      · exact ⟨hmem, hid', fun hcommitted => hnot (mem_set_of_ne hj hcommitted nofun)⟩
      · rw [List.mem_singleton.mp hmem] at hnot
        exact absurd (List.mem_set (List.getElem?_eq_some_iff.mp hj).1 _) hnot
    · refine ⟨List.mem_append_left _ hmem, hid', fun hcommitted => ?_⟩
      have hlt := hsequence row' hmem hid'
      rw [hunsent row' hcommitted] at hlt
      exact lt_irrefl _ hlt
  refine ⟨?_, ?_, fun row' hrow => ?_, fun row' hrow => ?_, fun st hst => ?_⟩
  · have hsequences : Db.sequences { s.db with events := s.db.events ++ [row] } scanId =
        s.db.sequences scanId ++ [row.sequence] := by
      unfold Db.sequences
      rw [List.filter_append, List.map_append, List.filter_singleton, hid, beq_self_eq_true]
      rfl
    rw [hsequences, ← List.concat_eq_append, List.nodup_concat]
    exact ⟨fun hmem => lt_irrefl _ (hlast _ hmem), h.distinct⟩
  · have hcount := countP_set_eq (y := .committed row) hj (p := (!·.isOver)) rfl
    show (s.calls.set j (.committed row)).countP (!·.isOver) ≤ 1
    rw [hcount]
    exact h.one
  · rcases hrow with hrow | hrow
    · rcases honly _ hrow with heq | hover
      · cases heq
      · cases hover
    · rcases honly _ hrow with heq | hover
      · cases heq
      · cases hover
  · rw [hunsent row' hrow]
    refine ⟨List.mem_append_right _ (List.mem_singleton_self _), hid, fun other hmem hid' => ?_⟩
    rcases List.mem_append.mp hmem with hmem | hmem
    · exact Or.inr (hsequence other hmem hid')
    · exact Or.inl (List.mem_singleton.mp hmem)
  · exact (h.follow st hst).same hpub rfl rfl Iff.rfl fun _ => rfl

theorem Orderly.broadcast (h : Orderly scanId s) {j : ℕ}
    (hj : s.calls[j]? = some (.committed row)) :
    Orderly scanId { s.put j (.returned row) with
      streams := s.streams.map fun st => { st with queue := st.queue ++ [row] } } := by
  have hmem := List.mem_of_getElem? hj
  obtain ⟨hrow, hid, hlast⟩ := h.unsent row hmem
  have honly := h.only (.returned row) hj rfl
  have hunsent : ∀ row', .committed row' ∉ s.calls.set j (.returned row) := by
    intro row' hmem
    rcases honly _ hmem with heq | hover
    · cases heq
    · cases hover
  refine ⟨h.distinct, ?_, fun row' hrow' => ?_, fun row' hrow' => absurd hrow' (hunsent row'),
    fun st' hst' => ?_⟩
  · have hcount := countP_set_add (y := .returned row) hj (!·.isOver)
    have hle := h.one
    have hlt : (s.calls.set j (.returned row)).countP (!·.isOver) + 1 =
      s.calls.countP (!·.isOver) + 0 := hcount
    show (s.calls.set j (.returned row)).countP (!·.isOver) ≤ 1
    omega
  · rcases hrow' with hrow' | hrow'
    · rcases honly _ hrow' with heq | hover
      · cases heq
      · cases hover
    · rcases honly _ hrow' with heq | hover
      · cases heq
      · cases hover
  · obtain ⟨st, hst, rfl⟩ := List.mem_map.mp hst'
    refine (h.follow st hst).receive hrow hid hlast hmem fun row' => ?_
    refine ⟨fun ⟨hevent, hid', _⟩ => ?_, ?_⟩
    · by_cases heq : row' = row
      · exact Or.inr heq
      · refine Or.inl ⟨hevent, hid', fun hcommitted => ?_⟩
        exact hunsent row' (mem_set_of_ne hj hcommitted fun hsame => heq (by cases hsame; rfl))
    · rintro (⟨hevent, hid', -⟩ | rfl)
      · exact ⟨hevent, hid', hunsent row'⟩
      · exact ⟨hrow, hid, hunsent row'⟩

/-- A stream goes on, and the others stay. -/
theorem Orderly.stream (h : Orderly scanId s) {c : ℕ} {st : EventStream}
    (hst : Following scanId (s.stream c st) st) : Orderly scanId (s.stream c st) := by
  refine ⟨h.distinct, h.one, h.read, h.unsent, fun st' hst' => ?_⟩
  rcases mem_set hst' with rfl | hst'
  · exact hst
  · exact (h.follow st' hst').same (Feed.published_congr rfl rfl) rfl rfl Iff.rfl fun _ => rfl

/-- **One step.** -/
theorem orderly_step (h : Orderly scanId s) (hturn : InTurn s a) (hok : ReplaysAlone s a)
    (hs : s.step scanId a = some s') : Orderly scanId s' := by
  cases Feed.step_moves hs with
  | calls module event =>
    have hover : s.calls.countP (!·.isOver) = 0 := by
      rw [List.countP_eq_zero]
      exact fun c hc => by simp [hturn c hc]
    have hin : ∀ {c : PublishCall}, c ≠ .called module event →
        c ∈ s.calls ++ [.called module event] → c ∈ s.calls := fun hne hc => by
      rcases List.mem_append.mp hc with hc | hc
      · exact hc
      · exact absurd (List.mem_singleton.mp hc) hne
    refine ⟨h.distinct, ?_, fun row hrow => ?_, fun row hrow => h.unsent row (hin nofun hrow),
      fun st hst => (h.follow st hst).same (fun row => ?_) rfl rfl Iff.rfl fun _ => rfl⟩
    · show (s.calls ++ [PublishCall.called module event]).countP (!·.isOver) ≤ 1
      rw [List.countP_append, hover]
      exact le_rfl
    · exact h.read row (hrow.imp (hin nofun) (hin nofun))
    · exact and_congr_right fun _ => and_congr_right fun _ =>
        not_congr ⟨hin nofun, fun hmem => List.mem_append_left _ hmem⟩
  | numbers hj =>
    refine h.put hj rfl rfl rfl fun row heq => ?_
    rcases heq with heq | heq
    · cases heq
      exact ⟨rfl, fun n hn => lt_nextNumber hn⟩
    · cases heq
  | inserts hj hfree hdb =>
    refine h.put hj rfl rfl rfl fun row heq => ?_
    rcases heq with heq | heq
    · cases heq
    · cases heq
      exact h.read _ (Or.inl (List.mem_of_getElem? hj))
  | fails hj hdb =>
    refine h.put hj rfl rfl rfl fun row heq => ?_
    rcases heq with heq | heq <;> cases heq
  | commits hj hdb => exact h.commit hj hdb
  | broadcasts hj => exact h.broadcast hj
  | subscribes lastEventId =>
    refine ⟨h.distinct, h.one, h.read, h.unsent, fun st hst => ?_⟩
    rcases List.mem_append.mp hst with hst | hst
    · exact (h.follow st hst).same (Feed.published_congr rfl rfl) rfl rfl Iff.rfl fun _ => rfl
    · rw [List.mem_singleton.mp hst]
      exact ⟨List.Pairwise.nil, fun _ hrow => absurd hrow List.not_mem_nil,
        fun _ => ⟨rfl, fun _ hrow => absurd hrow List.not_mem_nil⟩, fun hsome => absurd rfl hsome⟩
  | queries hc =>
    obtain ⟨hqueue, hunsent⟩ := hok _ hc
    exact h.stream ((h.follow _ (List.mem_of_getElem? hc)).query h.distinct hqueue
      (fun row hcommitted => hunsent _ hcommitted row rfl) rfl rfl)
  | replays hc =>
    refine h.stream ((h.follow _ (List.mem_of_getElem? hc)).same (Feed.published_congr rfl rfl) ?_
      rfl ⟨nofun, nofun⟩ nofun)
    unfold EventStream.all
    simp
  | sends hc =>
    refine h.stream ((h.follow _ (List.mem_of_getElem? hc)).same (Feed.published_congr rfl rfl) ?_
      rfl ⟨nofun, nofun⟩ nofun)
    unfold EventStream.all
    simp
  | disconnects c =>
    refine ⟨h.distinct, h.one, h.read, h.unsent, fun st hst => ?_⟩
    exact (h.follow st (List.mem_of_mem_eraseIdx hst)).same (Feed.published_congr rfl rfl) rfl rfl
      Iff.rfl fun _ => rfl

end

/-- **Exactly once.** In every run in which the calls of `publish` are made in
turn, and a stream asks for what it has missed when none of it is in its queue or
about to be, each stream sends every event after its Last-Event-ID once, in order. -/
theorem delivered_once (scanId : ℕ) (db : Db) (h : (db.sequences scanId).Nodup)
    (ls : List FeedAct) (s : Feed)
    (hturn : Meets (Feed.step scanId) InTurn ⟨db, [], []⟩ ls)
    (hm : Meets (Feed.step scanId) ReplaysAlone ⟨db, [], []⟩ ls)
    (hr : exec (Feed.step scanId) ⟨db, [], []⟩ ls = some s) :
    ∀ st ∈ s.streams, Delivered scanId s st := by
  have horderly : Orderly scanId s := exec_inv_of_meets
    (fun _ _ _ h hok hs => orderly_step h hok.1 hok.2 hs) (orderly_start h) (hturn.and hm) hr
  exact fun st hst => (horderly.follow st hst).delivered

/-! ### A stream that comes as an event goes out -/

instance (s : Feed) : ∀ a, Decidable (InTurn s a)
  | .call _ _ => inferInstanceAs (Decidable (∀ c ∈ s.calls, c.isOver = true))
  | .number _ | .insert _ | .commit _ | .broadcast _ | .subscribe _ | .query _ | .send _
  | .disconnect _ => inferInstanceAs (Decidable True)

instance (s : Feed) : ∀ a, Decidable (ReplaysAlone s a)
  | .query c => inferInstanceAs (Decidable (∀ st ∈ s.streams[c]?, _))
  | .call _ _ | .number _ | .insert _ | .commit _ | .broadcast _ | .subscribe _ | .send _
  | .disconnect _ => inferInstanceAs (Decidable True)

/-- The stream asks before the first event is committed, and again after a second
when it has reconnected. -/
def reconnects : List FeedAct := [.call none .scanRunning, .number 0, .subscribe 0, .insert 0,
  .query 0, .commit 0, .broadcast 0, .send 0, .disconnect 0, .call none (.footprint 1 1), .number 1,
  .insert 1, .commit 1, .broadcast 1, .subscribe 1, .query 0, .send 0]

def reconnected : Feed :=
  (exec (Feed.step 1) ⟨labDb, [], []⟩ reconnects).get (by decide +kernel)

theorem delivered_once_lab :
    Delivered 1 reconnected (reconnected.streams.get ⟨0, by decide +kernel⟩) :=
  delivered_once 1 labDb (by decide +kernel) reconnects _ (by decide +kernel) (by decide +kernel)
    (Option.some_get _).symm _ (List.get_mem _ _)

/-- The stream asks when the event is committed and not broadcast, and sends it
from the replay and from the queue. -/
theorem not_delivered_once : ¬ ∀ (scanId : ℕ) (db : Db) (ls : List FeedAct) (s : Feed),
    (db.sequences scanId).Nodup → Meets (Feed.step scanId) InTurn ⟨db, [], []⟩ ls →
    exec (Feed.step scanId) ⟨db, [], []⟩ ls = some s →
    ∀ st ∈ s.streams, Delivered scanId s st := by
  intro h
  let ls : List FeedAct := [.call none .scanRunning, .number 0, .insert 0, .commit 0,
    .subscribe 0, .query 0, .broadcast 0, .send 0, .send 0]
  let row : ScanEventRow := ⟨1, 1, none, .scanRunning⟩
  have hdelivered := h 1 labDb ls _ (by decide +kernel) (by decide +kernel)
    (Option.some_get (x := exec (Feed.step 1) ⟨labDb, [], []⟩ ls) (by decide +kernel)).symm
    ⟨0, some [], [], [row, row]⟩ (by decide +kernel)
  have hincreasing := hdelivered.increasing
  revert hincreasing
  decide +kernel

end ScanLedger
