/-
# Events on the wire

What `stream` of `scan_events` yields, character by character: the events it sends, each
formatted by `_format_event` with its payload as JSON, and a comment to keep the
connection alive. A client reads it as an event stream, from its start to wherever it is
cut: the messages it has got are the first events that were sent, each with its number and
its type, and its data reads back as the body that was written (`wire_read`).

Key definitions: `Event.type`, `ScanEventRow.body`, `formatEvent`, `Chunk`, `idAfter`.
Key theorems: `formatEvent_eq`, `message_injOn`, `read_chunks`, `wire_read`.
-/
import ScanLedger.Publisher
import ScanLedger.Lib.JsonText
import ScanLedger.Lib.Sse
import ScanLedger.Printing

namespace ScanLedger

open Sse (Client Frame Message framesText lastId)
open JsonText (Style)
open Run

/-! ### What is yielded -/

/-- `str(event_type)`. -/
def Event.type : Event → String
  | .scanRunning | .scanFinished _ _ => "scan_status"
  | .moduleStatus _ _ _ => "module_status"
  | .footprint _ _ => "footprint"

def Event.payload : Event → List (String × Json)
  | .scanRunning => [("status", .str ScanStatus.running.text)]
  | .scanFinished status reason => [("status", .str status.text), ("reason", .optional .str reason)]
  | .moduleStatus status reason findingCount =>
    [("status", .str status.text), ("reason", .optional .str reason),
      ("finding_count", .int findingCount)]
  | .footprint hostsProbed portsTouched =>
    [("hosts_probed", .int hostsProbed), ("ports_touched", .int portsTouched)]

/-- `{"module": module, **payload}`. -/
def ScanEventRow.body (row : ScanEventRow) : Json :=
  .object (("module", .optional .str row.module) :: row.event.payload)

/-- The separators of `json.dumps`; no payload has a number that is no integer. -/
def plainStyle : Style where
  afterColon := [' ']
  afterComma := [' ']
  newline _ := []
  float _ := []
  blank_afterColon := JsonText.blank_space
  blank_afterComma := JsonText.blank_space
  blank_newline _ := JsonText.blank_nil

/-- `_format_event`. -/
def formatEvent (row : ScanEventRow) : List Char :=
  "id: ".toList ++ (toString row.sequence).toList ++ "\nevent: ".toList ++ row.event.type.toList ++
    "\ndata: ".toList ++ row.body.write plainStyle 0 ++ "\n\n".toList

/-- What `stream` yields. -/
inductive Chunk
  | keepalive
  | event (row : ScanEventRow)
  deriving DecidableEq, Repr

def Chunk.text : Chunk → List Char
  | .keepalive => ": keepalive\n\n".toList
  | .event row => formatEvent row

def Chunk.row : Chunk → Option ScanEventRow
  | .keepalive => none
  | .event row => some row

def chunksText (chunks : List Chunk) : List Char := chunks.flatMap Chunk.text

/-! ### As frames -/

def ScanEventRow.message (row : ScanEventRow) : Message :=
  ⟨(toString row.sequence).toList, row.event.type.toList, row.body.write plainStyle 0⟩

def Chunk.frame : Chunk → Frame
  | .keepalive => .comment " keepalive".toList
  | .event row => .event row.message.lastEventId row.message.type row.message.data

theorem formatEvent_eq (row : ScanEventRow) : formatEvent row = (Chunk.event row).frame.text := by
  have hid : "id: ".toList = "id".toList ++ [':', ' '] := rfl
  have hevent : "\nevent: ".toList = '\n' :: "event".toList ++ [':', ' '] := rfl
  have hdata : "\ndata: ".toList = '\n' :: "data".toList ++ [':', ' '] := rfl
  have hend : "\n\n".toList = ['\n', '\n'] := rfl
  unfold formatEvent Chunk.frame Frame.text Frame.lines Sse.blockText Sse.linesText Sse.fieldLine
  rw [hid, hevent, hdata, hend]
  simp only [ScanEventRow.message, List.flatMap_cons, List.flatMap_nil, List.append_assoc,
    List.cons_append, List.nil_append]

theorem text_frame (chunk : Chunk) : chunk.text = chunk.frame.text := by
  cases chunk with
  | keepalive => rfl
  | event row => exact formatEvent_eq row

theorem chunksText_eq (chunks : List Chunk) :
    chunksText chunks = framesText (chunks.map Chunk.frame) := by
  unfold chunksText framesText
  rw [List.flatMap_map]
  exact List.flatMap_congr fun chunk _ => text_frame chunk

theorem message_frame (chunk : Chunk) :
    chunk.frame.message = chunk.row.map ScanEventRow.message := by
  cases chunk <;> rfl

theorem oneLine_plainStyle : plainStyle.OneLine where
  afterColon := JsonText.printable_of_all rfl
  afterComma := JsonText.printable_of_all rfl
  newline _ _ h := absurd h List.not_mem_nil

theorem exact_body (P : FloatValue → Prop) (row : ScanEventRow) : row.body.Exact P := by
  have hoptional : ∀ o : Option String, (Json.optional .str o).Exact P := fun _ =>
    Json.exact_optional fun _ _ => trivial
  obtain ⟨scanId, sequence, module, event⟩ := row
  cases event with
  | scanRunning => exact ⟨hoptional module, trivial, trivial⟩
  | scanFinished status reason =>
    exact ⟨hoptional module, trivial, hoptional reason, trivial⟩
  | moduleStatus status reason findingCount =>
    exact ⟨hoptional module, trivial, hoptional reason, trivial, trivial⟩
  | footprint hostsProbed portsTouched =>
    exact ⟨hoptional module, trivial, trivial, trivial⟩

theorem clean_of_printable {text : List Char} (h : ∀ c ∈ text, JsonText.Printable c) :
    (∀ c ∈ text, c ≠ '\n' ∧ c ≠ '\r') ∧ '\x00' ∉ text := by
  have hne : ∀ c ∈ text, ∀ d : Char, ¬ JsonText.Printable d → c ≠ d := fun c hc d hd he =>
    hd (he ▸ h c hc)
  exact ⟨fun c hc => ⟨hne c hc _ (by decide), hne c hc _ (by decide)⟩,
    fun hc => hne _ hc _ (by decide) rfl⟩

theorem type_eq (event : Event) :
    event.type = "scan_status" ∨ event.type = "module_status" ∨ event.type = "footprint" := by
  cases event with
  | scanRunning => exact Or.inl rfl
  | scanFinished status reason => exact Or.inl rfl
  | moduleStatus status reason findingCount => exact Or.inr (Or.inl rfl)
  | footprint hostsProbed portsTouched => exact Or.inr (Or.inr rfl)

theorem clean_frame (chunk : Chunk) : chunk.frame.Clean := by
  cases chunk with
  | keepalive => exact Sse.unbroken_of_all rfl
  | event row =>
    have hid := clean_of_printable (JsonText.printable_toString row.sequence)
    have hprintable : ∀ c ∈ row.body.write plainStyle 0, JsonText.Printable c :=
      JsonText.printable_write oneLine_plainStyle (exact_body (plainStyle.Reads fun _ => .nan) row)
    have hdata := clean_of_printable hprintable
    have htype : row.event.type.toList ≠ [] ∧ ∀ c ∈ row.event.type.toList, c ≠ '\n' ∧ c ≠ '\r' := by
      rcases type_eq row.event with h | h | h <;> rw [h] <;>
        exact ⟨List.cons_ne_nil _ _, Sse.unbroken_of_all rfl⟩
    exact ⟨hid.1, hid.2, htype.1, htype.2, hdata.1⟩

/-! ### What a client reads -/

/-- The id of the last of the events, after an id that was there before. -/
def idAfter (first : List Char) (rows : List ScanEventRow) : List Char :=
  (rows.getLast?.map fun row => (toString row.sequence).toList).getD first

theorem idAfter_cons (first : List Char) (row : ScanEventRow) (rows : List ScanEventRow) :
    idAfter first (row :: rows) = idAfter (toString row.sequence).toList rows := by
  unfold idAfter
  rw [List.getLast?_cons]
  cases rows.getLast? <;> rfl

theorem lastId_frames : ∀ (first : List Char) (chunks : List Chunk),
    lastId first (chunks.map Chunk.frame) = idAfter first (chunks.filterMap Chunk.row)
  | _, [] => rfl
  | first, .keepalive :: chunks => lastId_frames first chunks
  | first, .event row :: chunks => by
    have hrest := lastId_frames (toString row.sequence).toList chunks
    have hrows : (Chunk.event row :: chunks).filterMap Chunk.row =
        row :: chunks.filterMap Chunk.row := rfl
    rw [hrows, idAfter_cons, ← hrest]
    rfl

/-- A stream that is cut anywhere: the client has got the first of its events. -/
theorem read_chunks (first : List Char) {text : List Char} {chunks : List Chunk}
    (h : text <+: chunksText chunks) : ∃ got, got <+: chunks.filterMap Chunk.row ∧
      ((Client.start first).feedAll text).messages = got.map ScanEventRow.message ∧
      ((Client.start first).feedAll text).lastEventId first = idAfter first got ∧
      (text = chunksText chunks → got = chunks.filterMap Chunk.row) := by
  have hclean : ∀ f ∈ chunks.map Chunk.frame, f.Clean := by
    intro f hf
    obtain ⟨chunk, -, rfl⟩ := List.mem_map.mp hf
    exact clean_frame chunk
  rw [chunksText_eq] at h ⊢
  obtain ⟨n, hmessages, hlast, hall⟩ := Sse.feed_cut (Sse.ready_start first) hclean h
  rw [← List.map_take] at hmessages hlast hall
  refine ⟨(chunks.take n).filterMap Chunk.row, (List.take_prefix n chunks).filterMap _, ?_, ?_, ?_⟩
  · rw [hmessages, List.filterMap_map, List.map_filterMap]
    exact List.filterMap_congr fun chunk _ => message_frame chunk
  · rw [hlast, lastId_frames]
  · intro htext
    have hlength := congrArg List.length (hall htext)
    rw [List.length_map, List.length_map] at hlength
    rw [(List.take_prefix n chunks).eq_of_length hlength]

/-! ### What a message says -/

/-- The type of an event and its body say what it is. -/
theorem body_injOn {row row' : ScanEventRow} (htype : row.event.type = row'.event.type)
    (h : row.body = row'.body) : row.module = row'.module ∧ row.event = row'.event := by
  obtain ⟨_, _, module, event⟩ := row
  obtain ⟨_, _, module', event'⟩ := row'
  simp only [ScanEventRow.body, Json.object, List.foldr_cons, Json.obj.injEq,
    JsonFields.cons.injEq] at h
  obtain ⟨-, hmodule, hpayload⟩ := h
  refine ⟨Json.optional_str_inj.mp hmodule, ?_⟩
  cases event <;> cases event' <;> simp only [Event.payload, List.foldr_cons, List.foldr_nil,
    JsonFields.cons.injEq, Json.str.injEq, Json.int.injEq, Nat.cast_inj] at hpayload
  case scanRunning.scanRunning => rfl
  case scanFinished.scanFinished =>
    obtain ⟨-, hstatus, -, hreason, -⟩ := hpayload
    rw [ScanStatus.text_injective hstatus, Json.optional_str_inj.mp hreason]
  case moduleStatus.moduleStatus =>
    obtain ⟨-, hstatus, -, hreason, -, hcount, -⟩ := hpayload
    rw [ModuleStatus.text_injective hstatus, Json.optional_str_inj.mp hreason, hcount]
  case footprint.footprint =>
    obtain ⟨-, hhosts, -, hports, -⟩ := hpayload
    rw [hhosts, hports]
  -- a scan that runs has no reason, and all others differ in type
  case scanRunning.scanFinished => exact absurd hpayload.2.2 nofun
  case scanFinished.scanRunning => exact absurd hpayload.2.2 nofun
  all_goals simp [Event.type] at htype

/-- No two events of a scan are sent alike. -/
theorem message_injOn {row row' : ScanEventRow} (hscan : row.scanId = row'.scanId)
    (h : row.message = row'.message) : row = row' := by
  unfold ScanEventRow.message at h
  injection h with hsequence htype hbody
  have hbody := JsonText.write_injOn plainStyle (exact_body (plainStyle.Reads fun _ => .nan) row)
    (exact_body _ row') hbody
  obtain ⟨hmodule, hevent⟩ := body_injOn (String.toList_injective htype) hbody
  have hsequence := toString_injective (String.toList_injective hsequence)
  obtain ⟨_, _, _, _⟩ := row
  cases hscan
  cases hsequence
  cases hmodule
  cases hevent
  rfl

/-- **On the wire.** Wherever a stream is cut, with comments in it or not, the client has got
the first of its events, and all of them if it is cut nowhere; it connects again with the
number of the last. The data of each message is read back as the body of its event, and no
other event of the scan makes the same message. -/
theorem wire_read (parseFloat : List Char → FloatValue) (first text : List Char)
    (chunks : List Chunk) (h : text <+: chunksText chunks) :
    ∃ got, got <+: chunks.filterMap Chunk.row ∧
      ((Client.start first).feedAll text).messages = got.map ScanEventRow.message ∧
      ((Client.start first).feedAll text).lastEventId first = idAfter first got ∧
      (text = chunksText chunks → got = chunks.filterMap Chunk.row) ∧
      ∀ message ∈ ((Client.start first).feedAll text).messages, ∃ row ∈ got,
        JsonText.read parseFloat message.data = some row.body ∧ ∀ row' : ScanEventRow,
          row'.scanId = row.scanId → row'.message = message → row' = row := by
  obtain ⟨got, hgot, hmessages, hlast, hall⟩ := read_chunks first h
  refine ⟨got, hgot, hmessages, hlast, hall, fun message hmessage => ?_⟩
  rw [hmessages] at hmessage
  obtain ⟨row, hrow, rfl⟩ := List.mem_map.mp hmessage
  exact ⟨row, hrow, JsonText.read_write plainStyle 0 (exact_body _ row),
    fun row' hscan heq => message_injOn hscan heq⟩

/-- A scan starts, nothing happens for a while, and its end is cut short. -/
def startedChunks : List Chunk := [.event ⟨1, 1, none, .scanRunning⟩, .keepalive,
  .event ⟨1, 2, none, .scanFinished .failed (some "no\nroute")⟩]

theorem wire_read_started : ∃ got, got <+: startedChunks.filterMap Chunk.row ∧
    ((Client.start []).feedAll ((chunksText startedChunks).take 120)).messages =
      got.map ScanEventRow.message := by
  obtain ⟨got, hgot, hmessages, -⟩ := wire_read (fun _ => .nan) [] _ startedChunks
    (List.take_prefix 120 _)
  exact ⟨got, hgot, hmessages⟩

end ScanLedger
