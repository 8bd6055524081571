/-
# Resuming a stream

The page of a scan reads its events with an `EventSource`, which connects again with the id
of the last message it has got whenever its connection is cut. A connection subscribes,
replays what is stored after that id and goes on with what is broadcast, while the scan
publishes events and other clients come and go.

With the calls of `publish` made in turn, and no event about to go out as a stream asks for
what it has missed, the client has at any time got the first of the published events once
each and in order, however often and wherever it was cut; and all of them where it has read
all that its last connection has (`resumed_once`).

Key definitions: `lastEventIdHeader`, `Visit`, `Reader`, `Reader.visit`, `Feed.published`, `Trails`.
Key theorems: `published_step`, `trails_step`, `EventStream.sent_starts`, `gathered_visit`,
`resumed_once`.
-/
import ScanLedger.Delivery
import ScanLedger.Wire

namespace ScanLedger

open Sse (Client Message)
open Run Table Tasks

/-! ### The client -/

/-- `Last-Event-ID`, which a client that has no id leaves out. No stream sends an id that is
no number. -/
def lastEventIdHeader (id : List Char) : Option ℤ :=
  if id = [] then some 0
  else if id.all Char.isDigit then some (readInt 10 id) else none

/-- Where the stream at `i` is after the step, if it is still there. -/
def FeedAct.follow (i : ℕ) : FeedAct → Option ℕ
  | .disconnect c => if c = i then none else some (if c < i then i - 1 else i)
  | .call _ _ | .number _ | .insert _ | .commit _ | .broadcast _ | .subscribe _ | .query _
  | .send _ => some i

def follow : ℕ → List FeedAct → Option ℕ
  | i, [] => some i
  | i, a :: ls => (a.follow i).bind fun i' => follow i' ls

/-- A connection: what happens until it is made and from then on until it is cut, what it
yields by then, and what of that the client reads. -/
structure Visit where
  before : List FeedAct
  during : List FeedAct
  chunks : List Chunk
  text : List Char

structure Reader where
  feed : Feed
  id : List Char
  messages : List Message
  /-- All that the last connection had is read. -/
  caughtUp : Bool

/-- A client that has not connected. -/
def Reader.start (feed : Feed) : Reader := ⟨feed, [], [], false⟩

/-- The client connects, reads, and is cut off. -/
def Reader.visit (scanId : ℕ) (r : Reader) (v : Visit) : Option Reader := do
  let after ← lastEventIdHeader r.id
  let s ← exec (Feed.step scanId) r.feed v.before
  let s' ← exec (Feed.step scanId) s (.subscribe after :: v.during)
  let i ← follow s.streams.length v.during
  let st ← s'.streams[i]?
  if v.chunks.filterMap Chunk.row = st.sent ∧ v.text <+: chunksText v.chunks then
    let client := (Client.start r.id).feedAll v.text
    some ⟨s', client.lastEventId r.id, r.messages ++ client.messages,
      decide (st.missed = some [] ∧ st.queue = [] ∧ v.text = chunksText v.chunks)⟩
  else none

/-- Calls are made in turn, and no event that a stream has missed is about to go out as it asks. -/
def OneAtATime (s : Feed) (a : FeedAct) : Prop := InTurn s a ∧ ReplaysAlone s a

/-- Nothing disturbs the visit. -/
def Smooth (scanId : ℕ) (r : Reader) (v : Visit) : Prop :=
  ∀ after ∈ lastEventIdHeader r.id,
    Meets (Feed.step scanId) OneAtATime r.feed (v.before ++ .subscribe after :: v.during)

/-- The events that are stored and not about to be broadcast, in order. -/
def Feed.published (scanId : ℕ) (s : Feed) : List ScanEventRow :=
  (s.db.eventsSince scanId 0).filter fun row => decide (.committed row ∉ s.calls)

/-! ### Increasing lists -/

section

variable {α : Type} {f : α → ℕ}

/-- Of two increasing lists the one is the start of the other if it is the part of it below
some bound. -/
theorem prefix_of_increasing : ∀ {xs ys : List α}, xs.Pairwise (fun x y => f x < f y) →
    ys.Pairwise (fun x y => f x < f y) → (∀ x ∈ xs, x ∈ ys) →
    (∀ x ∈ xs, ∀ y ∈ ys, f y < f x → y ∈ xs) → xs <+: ys
  | [], ys, _, _, _, _ => List.nil_prefix
  | x :: xs, [], _, _, hsub, _ => absurd (hsub x List.mem_cons_self) List.not_mem_nil
  | x :: xs, y :: ys, hxs, hys, hsub, hbelow => by
    obtain ⟨hx, hxs'⟩ := List.pairwise_cons.mp hxs
    obtain ⟨hy, hys'⟩ := List.pairwise_cons.mp hys
    have hxy : x = y := by
      rcases List.mem_cons.mp (hsub x List.mem_cons_self) with heq | hmem
      · exact heq
      · have hlt := hy x hmem
        have hy' := hbelow x List.mem_cons_self y List.mem_cons_self hlt
        rcases List.mem_cons.mp hy' with heq | hin
        · exact heq.symm
        · exact absurd (hx y hin) (lt_asymm hlt)
    subst hxy
    refine List.cons_prefix_cons.mpr ⟨rfl, prefix_of_increasing hxs' hys' (fun x' hx' => ?_)
      fun x' hx' y' hy' hlt => ?_⟩
    · rcases List.mem_cons.mp (hsub x' (List.mem_cons_of_mem x hx')) with rfl | hmem
      · exact absurd (hx x' hx') (lt_irrefl _)
      · exact hmem
    · rcases List.mem_cons.mp (hbelow x' (List.mem_cons_of_mem x hx') y'
        (List.mem_cons_of_mem x hy') hlt) with rfl | hmem
      · exact absurd (hy y' hy') (lt_irrefl _)
      · exact hmem

/-- `f` of the last, or 0. -/
def lastOf (f : α → ℕ) (xs : List α) : ℕ := (xs.getLast?.map f).getD 0

/-- What comes after the start of an increasing list. -/
theorem filter_lastOf {xs ys : List α} (h : (xs ++ ys).Pairwise fun x y => f x < f y)
    (hpos : ∀ y ∈ ys, 0 < f y) :
    (xs ++ ys).filter (fun y => decide (lastOf f xs < f y)) = ys := by
  obtain ⟨hxs, -, hlt⟩ := List.pairwise_append.mp h
  rcases List.eq_nil_or_concat' xs with rfl | ⟨init, last, rfl⟩
  · exact List.filter_eq_self.mpr fun y hy => decide_eq_true (hpos y hy)
  · have hlast : lastOf f (init ++ [last]) = f last := by
      unfold lastOf
      rw [List.getLast?_concat]
      rfl
    rw [hlast, List.filter_append, List.filter_eq_nil_iff.mpr fun x hx => ?_, List.nil_append]
    · exact List.filter_eq_self.mpr fun y hy =>
        decide_eq_true (hlt last (List.mem_append_right _ (List.mem_singleton_self last)) y hy)
    · rcases List.mem_append.mp hx with hx | hx
      · have hbelow := (List.pairwise_append.mp hxs).2.2 x hx last (List.mem_singleton_self last)
        simpa using hbelow.le
      · rw [List.mem_singleton.mp hx]
        simp

end

/-! ### What is published -/

section

variable {scanId : ℕ} {s s' : Feed} {a : FeedAct}

/-- Every event of the scan has a positive number, or will have. -/
structure Positive (scanId : ℕ) (s : Feed) : Prop where
  stored : ∀ row ∈ s.db.events, row.scanId = scanId → 0 < row.sequence
  read : ∀ row, .numbered row ∈ s.calls ∨ .inserted row ∈ s.calls → 0 < row.sequence

theorem mem_published (h : (s.db.sequences scanId).Nodup) (hpos : Positive scanId s)
    (row : ScanEventRow) : row ∈ s.published scanId ↔ s.Published scanId row := by
  have hmem := (Db.eventsSince_of_distinct h 0).2 row
  unfold Feed.published Feed.Published
  rw [List.mem_filter, hmem, decide_eq_true_iff]
  refine ⟨fun ⟨⟨hrow, hid, _⟩, hnot⟩ => ⟨hrow, hid, hnot⟩, fun ⟨hrow, hid, hnot⟩ => ?_⟩
  exact ⟨⟨hrow, hid, by exact_mod_cast hpos.stored row hrow hid⟩, hnot⟩

theorem increasing_published (h : (s.db.sequences scanId).Nodup) :
    (s.published scanId).Pairwise fun row row' => row.sequence < row'.sequence :=
  (Db.eventsSince_of_distinct h 0).1.filter _

/-- A call that goes on, with its event as far on its way as before. -/
theorem published_put {j : ℕ} {c c' : PublishCall} (hj : s.calls[j]? = some c)
    (hold : c.unsent = none) (hnew : c'.unsent = none) (row : ScanEventRow) :
    (s.put j c').Published scanId row ↔ s.Published scanId row := by
  refine and_congr_right fun _ => and_congr_right fun _ => not_congr ?_
  refine ⟨fun hmem => ?_, fun hmem => ?_⟩
  · rcases mem_set hmem with rfl | hmem
    · cases hnew
    · exact hmem
  · refine mem_set_of_ne hj hmem ?_
    rintro rfl
    cases hold

/-- A step publishes one event at most, and that comes after all before. -/
theorem published_step (h : Orderly scanId s) (hs : s.step scanId a = some s') :
    ∃ new : Option ScanEventRow,
      (∀ row, s'.Published scanId row ↔ s.Published scanId row ∨ new = some row) ∧
      ∀ row ∈ new, ∀ row', s.Published scanId row' → row'.sequence < row.sequence := by
  -- where nothing is published
  have hsame : (∀ row, s'.Published scanId row ↔ s.Published scanId row) →
      ∃ new : Option ScanEventRow,
        (∀ row, s'.Published scanId row ↔ s.Published scanId row ∨ new = some row) ∧
        ∀ row ∈ new, ∀ row', s.Published scanId row' → row'.sequence < row.sequence := fun hiff =>
    ⟨none, fun row => (hiff row).trans ⟨Or.inl, fun hor => hor.resolve_right nofun⟩, nofun⟩
  cases Feed.step_moves hs with
  | calls module event =>
    refine hsame fun row => and_congr_right fun _ => and_congr_right fun _ => not_congr ?_
    refine ⟨fun hmem => ?_, fun hmem => List.mem_append_left _ hmem⟩
    rcases List.mem_append.mp hmem with hmem | hmem
    · exact hmem
    · cases List.mem_singleton.mp hmem
  | numbers hj => exact hsame (published_put hj rfl rfl)
  | inserts hj => exact hsame (published_put hj rfl rfl)
  | fails hj => exact hsame (published_put hj rfl rfl)
  | commits hj hdb =>
    rename_i j row db
    obtain ⟨-, rfl⟩ := Db.insertEvent_eq_some.mp hdb
    have hnew := (h.read row (Or.inr (List.mem_of_getElem? hj)))
    have honly := h.only (.committed row) hj rfl
    refine hsame fun row' => ⟨fun ⟨hmem, hid, hnot⟩ => ?_, fun ⟨hmem, hid, hnot⟩ => ?_⟩
    · rcases List.mem_append.mp hmem with hmem | hmem
      · exact ⟨hmem, hid, fun hcommitted => hnot (mem_set_of_ne hj hcommitted nofun)⟩
      · rw [List.mem_singleton.mp hmem] at hnot
        exact absurd (List.mem_set (List.getElem?_eq_some_iff.mp hj).1 _) hnot
    · refine ⟨List.mem_append_left _ hmem, hid, fun hcommitted => ?_⟩
      rcases honly _ hcommitted with heq | hover
      · cases heq
        have hlt := hnew.2 row.sequence (List.mem_map_of_mem
          (List.mem_filter.mpr ⟨hmem, by simp [hid]⟩))
        exact lt_irrefl _ hlt
      · cases hover
  | broadcasts hj =>
    rename_i j row
    have hmem := List.mem_of_getElem? hj
    obtain ⟨hrow, hid, hlast⟩ := h.unsent row hmem
    have honly := h.only (.returned row) hj rfl
    have hnone : ∀ row', .committed row' ∉ s.calls.set j (.returned row) := by
      intro row' hmem'
      rcases honly _ hmem' with heq | hover
      · cases heq
      · cases hover
    refine ⟨some row, fun row' => ⟨fun ⟨hevent, hid', _⟩ => ?_, ?_⟩,
      fun last hlast' row' hrow' => ?_⟩
    · by_cases heq : row' = row
      · exact Or.inr (by rw [heq])
      · refine Or.inl ⟨hevent, hid', fun hcommitted => hnone row' ?_⟩
        exact mem_set_of_ne hj hcommitted fun hc => heq (by cases hc; rfl)
    · rintro (⟨hevent, hid', -⟩ | heq)
      · exact ⟨hevent, hid', hnone row'⟩
      · cases heq
        exact ⟨hrow, hid, hnone row⟩
    · cases hlast'
      rcases hlast row' hrow'.1 hrow'.2.1 with rfl | hlt
      · exact absurd hmem hrow'.2.2
      · exact hlt
  | subscribes => exact hsame (Feed.published_congr rfl rfl)
  | queries => exact hsame (Feed.published_congr rfl rfl)
  | replays => exact hsame (Feed.published_congr rfl rfl)
  | sends => exact hsame (Feed.published_congr rfl rfl)
  | disconnects => exact hsame (Feed.published_congr rfl rfl)

theorem positive_step (h : Positive scanId s) (hs : s.step scanId a = some s') :
    Positive scanId s' := by
  have hput : ∀ {j : ℕ} {c c' : PublishCall}, s.calls[j]? = some c →
      (∀ row, c' = .numbered row ∨ c' = .inserted row → 0 < row.sequence) →
      ∀ row, .numbered row ∈ s.calls.set j c' ∨ .inserted row ∈ s.calls.set j c' →
        0 < row.sequence := by
    intro j c c' hj hc' row hrow
    rcases hrow with hrow | hrow
    · rcases mem_set hrow with heq | hmem
      · exact hc' row (Or.inl heq.symm)
      · exact h.read row (Or.inl hmem)
    · rcases mem_set hrow with heq | hmem
      · exact hc' row (Or.inr heq.symm)
      · exact h.read row (Or.inr hmem)
  cases Feed.step_moves hs with
  | calls module event =>
    refine ⟨h.stored, fun row hrow => h.read row (hrow.imp (fun hmem => ?_) fun hmem => ?_)⟩
    · rcases List.mem_append.mp hmem with hmem | hmem
      · exact hmem
      · cases List.mem_singleton.mp hmem
    · rcases List.mem_append.mp hmem with hmem | hmem
      · exact hmem
      · cases List.mem_singleton.mp hmem
  | numbers hj =>
    refine ⟨h.stored, hput hj fun row heq => ?_⟩
    rcases heq with heq | heq
    · cases heq
      exact nextNumber_pos _
    · cases heq
  | inserts hj =>
    refine ⟨h.stored, hput hj fun row heq => ?_⟩
    rcases heq with heq | heq
    · cases heq
    · cases heq
      exact h.read _ (Or.inl (List.mem_of_getElem? hj))
  | fails hj => exact ⟨h.stored, hput hj fun row heq => by rcases heq with heq | heq <;> cases heq⟩
  | commits hj hdb =>
    obtain ⟨-, rfl⟩ := Db.insertEvent_eq_some.mp hdb
    refine ⟨fun row hrow hid => ?_,
      hput hj fun row heq => by rcases heq with heq | heq <;> cases heq⟩
    rcases List.mem_append.mp hrow with hrow | hrow
    · exact h.stored row hrow hid
    · rw [List.mem_singleton.mp hrow]
      exact h.read _ (Or.inr (List.mem_of_getElem? hj))
  | broadcasts hj =>
    exact ⟨h.stored, hput hj fun row heq => by rcases heq with heq | heq <;> cases heq⟩
  | subscribes => exact ⟨h.stored, h.read⟩
  | queries => exact ⟨h.stored, h.read⟩
  | replays => exact ⟨h.stored, h.read⟩
  | sends => exact ⟨h.stored, h.read⟩
  | disconnects => exact ⟨h.stored, h.read⟩

/-- What was published is the start of what is. -/
theorem published_grows (h : Orderly scanId s) (hpos : Positive scanId s)
    (h' : Orderly scanId s') (hs : s.step scanId a = some s') :
    s.published scanId <+: s'.published scanId := by
  obtain ⟨new, hiff, hlast⟩ := published_step h hs
  have hmem := mem_published h.distinct hpos
  have hmem' := mem_published h'.distinct (positive_step hpos hs)
  refine prefix_of_increasing (f := ScanEventRow.sequence) (increasing_published h.distinct)
    (increasing_published h'.distinct)
    (fun row hrow => (hmem' row).mpr ((hiff row).mpr (Or.inl ((hmem row).mp hrow))))
    fun row hrow row' hrow' hlt => ?_
  rcases (hiff row').mp ((hmem' row').mp hrow') with hrow' | hnew
  · exact (hmem row').mpr hrow'
  · exact absurd (hlast row' hnew row ((hmem row).mp hrow)) (lt_asymm hlt)

/-! ### A stream that is followed -/

/-- The client knows of this event, or of none. -/
def Known (scanId : ℕ) (s : Feed) (after : ℤ) : Prop :=
  after = 0 ∨ ∃ row, s.Published scanId row ∧ (row.sequence : ℤ) = after

/-- The stream at `i` has been asked for the events after this one, and has no other. -/
def Trails (s : Feed) (after : ℤ) (i : ℕ) : Prop :=
  ∃ st, s.streams[i]? = some st ∧ st.lastEventId = after ∧ ∀ row ∈ st.all, after < row.sequence

theorem known_step {after : ℤ} (hknown : Known scanId s after) (h : Orderly scanId s)
    (hs : s.step scanId a = some s') : Known scanId s' after := by
  obtain ⟨new, hiff, -⟩ := published_step h hs
  exact hknown.imp_right fun ⟨row, hrow, hafter⟩ => ⟨row, (hiff row).mpr (Or.inl hrow), hafter⟩

/-- An event that is about to be broadcast comes after every one that is known. -/
theorem Known.lt_unsent {after : ℤ} (hknown : Known scanId s after) (h : Orderly scanId s)
    (hpos : Positive scanId s) {row : ScanEventRow} (hrow : .committed row ∈ s.calls) :
    after < row.sequence := by
  obtain ⟨hmem, hid, hlast⟩ := h.unsent row hrow
  rcases hknown with rfl | ⟨row', ⟨hmem', hid', hnot⟩, rfl⟩
  · exact_mod_cast hpos.stored row hmem hid
  · rcases hlast row' hmem' hid' with rfl | hlt
    · exact absurd hrow hnot
    · exact_mod_cast hlt

theorem Trails.set {after : ℤ} {i c : ℕ} {st st' : EventStream} (h : Trails s after i)
    (hc : s.streams[c]? = some st) (hlast : st'.lastEventId = st.lastEventId)
    (hall : (∀ row ∈ st.all, st.lastEventId < row.sequence) →
      ∀ row ∈ st'.all, st.lastEventId < row.sequence) : Trails (s.stream c st') after i := by
  obtain ⟨st₀, hi, hafter, hrows⟩ := h
  by_cases hci : c = i
  · subst hci
    rw [hi] at hc
    cases hc
    rw [← hafter] at hrows
    refine ⟨st', ?_, hlast.trans hafter, fun row hrow => hafter ▸ hall hrows row hrow⟩
    exact List.getElem?_set_self (List.getElem?_eq_some_iff.mp hi).1
  · exact ⟨st₀, (List.getElem?_set_ne hci).trans hi, hafter, hrows⟩

/-- **One step**, as long as the stream is there. -/
theorem trails_step {after : ℤ} {i i' : ℕ} (htrail : Trails s after i)
    (hknown : Known scanId s after) (h : Orderly scanId s) (hpos : Positive scanId s)
    (hs : s.step scanId a = some s') (hi : a.follow i = some i') : Trails s' after i' := by
  cases Feed.step_moves hs with
  | calls | numbers | inserts | fails | commits =>
    cases hi
    exact htrail
  | broadcasts hj =>
    cases hi
    rename_i j last
    obtain ⟨st, hst, hafter, hrows⟩ := htrail
    refine ⟨{ st with queue := st.queue ++ [last] }, ?_, hafter, fun row hrow => ?_⟩
    · show (s.streams.map fun st => { st with queue := st.queue ++ [last] })[i]? = _
      rw [List.getElem?_map, hst, Option.map_some]
    unfold EventStream.all at hrow hrows
    rw [← List.append_assoc] at hrow
    rcases List.mem_append.mp hrow with hrow | hrow
    · exact hrows row hrow
    · rw [List.mem_singleton.mp hrow]
      exact hknown.lt_unsent h hpos (List.mem_of_getElem? hj)
  | subscribes lastEventId =>
    cases hi
    obtain ⟨st, hst, hrest⟩ := htrail
    exact ⟨st, (List.getElem?_append_left (List.getElem?_eq_some_iff.mp hst).1).trans hst, hrest⟩
  | queries hc =>
    cases hi
    refine htrail.set hc rfl fun hrows row hrow => ?_
    unfold EventStream.all at hrow hrows
    simp only [Option.getD_some, Option.getD_none, List.append_nil, List.mem_append] at hrow hrows
    rcases hrow with (hrow | hrow) | hrow
    · exact hrows row (Or.inl hrow)
    · exact ((Db.eventsSince_of_distinct h.distinct _).2 row).mp hrow |>.2.2
    · exact hrows row (Or.inr hrow)
  | replays hc =>
    cases hi
    refine htrail.set hc rfl fun hrows row hrow => hrows row ?_
    unfold EventStream.all at hrow ⊢
    simpa using hrow
  | sends hc =>
    cases hi
    refine htrail.set hc rfl fun hrows row hrow => hrows row ?_
    unfold EventStream.all at hrow ⊢
    simpa using hrow
  | disconnects c =>
    obtain ⟨st, hst, hrest⟩ := htrail
    refine ⟨st, ?_, hrest⟩
    simp only [FeedAct.follow] at hi
    split_ifs at hi with hci hlt
    · cases hi
      rw [List.getElem?_eraseIdx, if_neg (by omega), Nat.sub_add_cancel (by omega), hst]
    · cases hi
      rw [List.getElem?_eraseIdx, if_pos (by omega), hst]

/-! ### A run -/

/-- The client has got the first events, or none. -/
structure Watched (scanId : ℕ) (got : List ScanEventRow) (s : Feed) : Prop where
  orderly : Orderly scanId s
  positive : Positive scanId s
  got : got <+: s.published scanId

theorem watched_step {got : List ScanEventRow} (h : Watched scanId got s) (hok : OneAtATime s a)
    (hs : s.step scanId a = some s') : Watched scanId got s' where
  orderly := orderly_step h.orderly hok.1 hok.2 hs
  positive := positive_step h.positive hs
  got := h.got.trans (published_grows h.orderly h.positive
    (orderly_step h.orderly hok.1 hok.2 hs) hs)

theorem watched_run {got : List ScanEventRow} {ls : List FeedAct} (h : Watched scanId got s)
    (hm : Meets (Feed.step scanId) OneAtATime s ls)
    (hr : exec (Feed.step scanId) s ls = some s') : Watched scanId got s' :=
  exec_inv_of_meets (fun _ _ _ h hok hs => watched_step h hok hs) h hm hr

theorem Watched.known {got : List ScanEventRow} (h : Watched scanId got s) :
    Known scanId s (lastOf ScanEventRow.sequence got) := by
  rcases List.eq_nil_or_concat' got with rfl | ⟨init, last, rfl⟩
  · exact Or.inl rfl
  · refine Or.inr ⟨last, (mem_published h.orderly.distinct h.positive last).mp
      (h.got.subset (List.mem_append_right _ (List.mem_singleton_self last))), ?_⟩
    unfold lastOf
    rw [List.getLast?_concat]
    rfl

theorem trails_run {got : List ScanEventRow} {i' : ℕ} : ∀ {ls : List FeedAct} {s : Feed} {i : ℕ},
    Trails s (lastOf ScanEventRow.sequence got) i → Watched scanId got s →
    Meets (Feed.step scanId) OneAtATime s ls → exec (Feed.step scanId) s ls = some s' →
    follow i ls = some i' → Trails s' (lastOf ScanEventRow.sequence got) i'
  | [], s, i, htrail, _, _, hr, hi => by
    cases hr
    cases hi
    exact htrail
  | a :: ls, s, i, htrail, h, hm, hr, hi => by
    obtain ⟨s₁, hs, hr⟩ := (exec_cons (Feed.step scanId)).mp hr
    obtain ⟨i₁, hi₁, hi⟩ := Option.bind_eq_some_iff.mp hi
    exact trails_run (trails_step htrail h.known h.orderly h.positive hs hi₁)
      (watched_step h hm.1 hs) (hm.next hs) hr hi

/-- A stream that has only events after one has sent the first of those that are published,
and all of them when it has nothing left. -/
theorem EventStream.sent_starts {st : EventStream} {after : ℕ} (h : Orderly scanId s)
    (hpos : Positive scanId s) (hst : st ∈ s.streams) (hafter : st.lastEventId = after)
    (hrows : ∀ row ∈ st.all, (after : ℤ) < row.sequence) :
    st.sent <+: (s.published scanId).filter (fun row => decide (after < row.sequence)) ∧
      (st.missed = some [] → st.queue = [] →
        st.sent = (s.published scanId).filter (fun row => decide (after < row.sequence))) := by
  have hfollow := h.follow st hst
  have hincreasing : st.sent.Pairwise fun row row' => row.sequence < row'.sequence :=
    hfollow.delivered.increasing
  have hpublished := (increasing_published h.distinct).filter
    fun row : ScanEventRow => decide (after < row.sequence)
  have hsent : ∀ row ∈ st.sent, row ∈ st.all := fun row hrow =>
    List.mem_append_left _ (List.mem_append_left _ hrow)
  have hmem : ∀ row ∈ st.all,
      row ∈ (s.published scanId).filter fun row => decide (after < row.sequence) := fun row hrow =>
    List.mem_filter.mpr ⟨(mem_published h.distinct hpos row).mpr (hfollow.published row hrow),
      decide_eq_true (by exact_mod_cast hrows row hrow)⟩
  have hall : st.missed ≠ none → ∀ row ∈ (s.published scanId).filter
      (fun row => decide (after < row.sequence)), row ∈ st.all := fun hsome row hrow => by
    obtain ⟨hrow, hlt⟩ := List.mem_filter.mp hrow
    refine hfollow.after hsome row ((mem_published h.distinct hpos row).mp hrow) ?_
    rw [hafter]
    exact_mod_cast of_decide_eq_true hlt
  refine ⟨prefix_of_increasing hincreasing hpublished (fun row hrow => hmem row (hsent row hrow))
    fun row hrow row' hrow' hlt => ?_, fun hmissed hqueue => ?_⟩
  · have hsome : st.missed ≠ none := fun hnone => by
      rw [(hfollow.before hnone).1] at hrow
      cases hrow
    have hmem' := hall hsome row' hrow'
    have hordered := hfollow.increasing
    unfold EventStream.all at hmem' hordered
    rw [List.append_assoc] at hmem' hordered
    rcases List.mem_append.mp hmem' with hin | hlater
    · exact hin
    · exact absurd ((List.pairwise_append.mp hordered).2.2 row hrow row' hlater) (lt_asymm hlt)
  · have heq : st.all = st.sent := by
      unfold EventStream.all
      rw [hmissed, hqueue, Option.getD_some, List.append_nil, List.append_nil]
    have hsome : st.missed ≠ none := by rw [hmissed]; exact nofun
    have hback := prefix_of_increasing (f := ScanEventRow.sequence) hpublished hincreasing
      (fun row hrow => heq ▸ hall hsome row hrow)
      fun _ _ row' hrow' _ => hmem row' (hsent row' hrow')
    have hforth := prefix_of_increasing (f := ScanEventRow.sequence) hincreasing hpublished
      (fun row hrow => hmem row (hsent row hrow))
      fun _ _ row' hrow' _ => heq ▸ hall hsome row' hrow'
    exact hforth.eq_of_length_le hback.length_le

/-! ### Visits -/

/-- The client asks for what comes after the last event it has got. -/
theorem lastEventIdHeader_idAfter (got : List ScanEventRow) :
    lastEventIdHeader (idAfter [] got) = some (lastOf ScanEventRow.sequence got : ℤ) := by
  rcases List.eq_nil_or_concat' got with rfl | ⟨init, last, rfl⟩
  · rfl
  · have hid : idAfter [] (init ++ [last]) = Nat.toDigits 10 last.sequence := by
      unfold idAfter
      rw [List.getLast?_concat, Option.map_some, Option.getD_some, Nat.toString_eq_ofList_toDigits,
        String.toList_ofList]
    have hlast : lastOf ScanEventRow.sequence (init ++ [last]) = last.sequence := by
      unfold lastOf
      rw [List.getLast?_concat]
      rfl
    have hdigits : (Nat.toDigits 10 last.sequence).all Char.isDigit = true :=
      List.all_eq_true.mpr fun c hc => Nat.isDigit_of_mem_toDigits (by norm_num) (by norm_num) hc
    unfold lastEventIdHeader
    rw [hid, if_neg Nat.toDigits_ne_nil, if_pos hdigits, readInt_toDigits (by norm_num)
      (by norm_num), hlast]

theorem idAfter_append (first : List Char) (got more : List ScanEventRow) :
    idAfter (idAfter first got) more = idAfter first (got ++ more) := by
  unfold idAfter
  rw [List.getLast?_append]
  cases more.getLast? <;> rfl

/-- What the client has: the first events that are published. -/
def Gathered (scanId : ℕ) (r : Reader) : Prop :=
  ∃ got, Watched scanId got r.feed ∧ r.id = idAfter [] got ∧
    r.messages = got.map ScanEventRow.message ∧
    (r.caughtUp = true → got = r.feed.published scanId)

variable {r r' : Reader} {v : Visit}

/-- What a visit comes to. -/
theorem Reader.visit_eq_some (h : r.visit scanId v = some r') {after : ℤ}
    (hafter : lastEventIdHeader r.id = some after) : ∃ s s' i st,
      exec (Feed.step scanId) r.feed v.before = some s ∧
      exec (Feed.step scanId) s (.subscribe after :: v.during) = some s' ∧
      follow s.streams.length v.during = some i ∧ s'.streams[i]? = some st ∧
      v.chunks.filterMap Chunk.row = st.sent ∧ v.text <+: chunksText v.chunks ∧
      r' = ⟨s', ((Client.start r.id).feedAll v.text).lastEventId r.id,
        r.messages ++ ((Client.start r.id).feedAll v.text).messages,
        decide (st.missed = some [] ∧ st.queue = [] ∧ v.text = chunksText v.chunks)⟩ := by
  unfold Reader.visit at h
  simp only [hafter, Option.bind_eq_bind, Option.bind_some, Option.bind_eq_some_iff] at h
  obtain ⟨s, hs, s', hs', i, hi, st, hst, h⟩ := h
  split_ifs at h with hcond
  exact ⟨s, s', i, st, hs, hs', hi, hst, hcond.1, hcond.2, (Option.some.inj h).symm⟩

/-- **One visit.** -/
theorem gathered_visit (h : Gathered scanId r) (hsmooth : Smooth scanId r v)
    (hv : r.visit scanId v = some r') : Gathered scanId r' := by
  obtain ⟨got, hwatched, hid, hmessages, -⟩ := h
  have hafter : lastEventIdHeader r.id = some (lastOf ScanEventRow.sequence got : ℤ) := by
    rw [hid, lastEventIdHeader_idAfter]
  obtain ⟨s, s', i, st, hs, hs', hi, hst, hchunks, htext, rfl⟩ := Reader.visit_eq_some hv hafter
  have hmeets := hsmooth _ (Option.mem_def.mpr hafter)
  -- up to the subscription, and on to the cut
  obtain ⟨hbefore, hrest⟩ := Meets.of_append hmeets hs
  have hwatched := watched_run hwatched hbefore hs
  obtain ⟨s₁, hsubscribe, hduring⟩ := (exec_cons (Feed.step scanId)).mp hs'
  have htrail : Trails s₁ (lastOf ScanEventRow.sequence got) s.streams.length := by
    cases hsubscribe
    refine ⟨_, List.getElem?_concat_length, rfl, fun row hrow => ?_⟩
    cases hrow
  have hwatched₁ := watched_step hwatched hrest.1 hsubscribe
  have hmeets₁ := hrest.next hsubscribe
  obtain ⟨st₀, hst₀, hlast, hrows⟩ := trails_run htrail hwatched₁ hmeets₁ hduring hi
  rw [hst] at hst₀
  cases hst₀
  have hwatched' := watched_run hwatched₁ hmeets₁ hduring
  -- what is published is what the client had and what comes after
  obtain ⟨rest, hsplit⟩ := hwatched'.got
  have hincreasing := increasing_published hwatched'.orderly.distinct
  have hrest : (s'.published scanId).filter
      (fun row => decide (lastOf ScanEventRow.sequence got < row.sequence)) = rest := by
    rw [← hsplit] at hincreasing ⊢
    refine filter_lastOf hincreasing fun row hrow => ?_
    have hpublished := (mem_published hwatched'.orderly.distinct hwatched'.positive row).mp
      (hsplit ▸ List.mem_append_right got hrow)
    exact hwatched'.positive.stored row hpublished.1 hpublished.2.1
  obtain ⟨hsent, hidle⟩ := EventStream.sent_starts hwatched'.orderly hwatched'.positive
    (List.mem_of_getElem? hst) hlast hrows
  rw [hrest] at hsent hidle
  obtain ⟨more, hmore, hread, hnext, hall⟩ := read_chunks r.id htext
  rw [hchunks] at hmore hall
  refine ⟨got ++ more, ⟨hwatched'.orderly, hwatched'.positive, ?_⟩, ?_, ?_, fun hcaught => ?_⟩
  · rw [← hsplit]
    exact (List.prefix_append_right_inj got).mpr (hmore.trans hsent)
  · show ((Client.start r.id).feedAll v.text).lastEventId r.id = _
    rw [hnext, hid, idAfter_append]
  · show r.messages ++ ((Client.start r.id).feedAll v.text).messages = _
    rw [hmessages, hread, List.map_append]
  · obtain ⟨hmissed, hqueue, hwhole⟩ := of_decide_eq_true hcaught
    rw [hall hwhole, hidle hmissed hqueue]
    exact hsplit

end

instance (s : Feed) (a : FeedAct) : Decidable (OneAtATime s a) :=
  inferInstanceAs (Decidable (_ ∧ _))

instance (scanId : ℕ) (r : Reader) (v : Visit) : Decidable (Smooth scanId r v) :=
  inferInstanceAs (Decidable (∀ after ∈ lastEventIdHeader r.id, _))

/-- Two events are sent and the second is cut; a third is published before the client is back. -/
def cutVisits : List Visit :=
  let publish (j : ℕ) (event : Event) : List FeedAct :=
    [.call none event, .number j, .insert j, .commit j, .broadcast j]
  let started : Chunk := .event ⟨1, 1, none, .scanRunning⟩
  let touched : Chunk := .event ⟨1, 2, none, .footprint 1 1⟩
  let done : Chunk := .event ⟨1, 3, none, .scanFinished .completed none⟩
  [⟨[], .query 0 :: publish 0 .scanRunning ++ publish 1 (.footprint 1 1) ++ [.send 0, .send 0],
      [started, .keepalive, touched], (chunksText [started, .keepalive, touched]).dropLast⟩,
    ⟨.disconnect 0 :: publish 2 (.scanFinished .completed none), [.query 0, .send 0, .send 0],
      [touched, done], chunksText [touched, done]⟩]

def cutReader : Reader :=
  (exec (Reader.visit 1) (.start ⟨labDb, [], []⟩) cutVisits).get (by decide +kernel)

example : cutReader.messages.length = 3 := by decide +kernel

end ScanLedger
