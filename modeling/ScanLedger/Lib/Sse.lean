/-
# Event streams

The `text/event-stream` format as a client reads it, one character after the other: lines
that end in a carriage return, a line feed or both make up blocks, which a blank line
ends; a line is a comment or sets a field of its block. A block with data is a message,
and the id of the last block that ended is the one that the client reconnects with.

A block counts once its blank line is read. So wherever a stream of blocks is cut, the
client has read a number of whole blocks and nothing of the next (`feed_cut`).

Key definitions: `Sse.Client`, `Sse.Client.feed`, `Sse.Block`,
`Sse.Frame`.
Key theorems: `Sse.feed_frame`, `Sse.feed_frames`, `Sse.feed_cut`.
-/
import Mathlib.Data.List.Basic

namespace Sse

/-! ### The client -/

/-- A block as it stands when its blank line is read. -/
structure Block where
  id : List Char
  type : List Char
  data : List Char
  deriving DecidableEq, Repr

structure Message where
  lastEventId : List Char
  type : List Char
  data : List Char
  deriving DecidableEq, Repr

/-- A block without data is no message; the data ends in a line feed of its own. -/
def Block.message (b : Block) : Option Message :=
  if b.data = [] then none
  else some ⟨b.id, if b.type = [] then "message".toList else b.type, b.data.dropLast⟩

/-- A client: the line and the block it reads, and the blocks it has read. -/
structure Client where
  line : List Char
  /-- The last character was a carriage return. -/
  afterReturn : Bool
  block : Block
  blocks : List Block
  deriving DecidableEq, Repr

/-- A client that connects with this id. -/
def Client.start (lastEventId : List Char) : Client := ⟨[], false, ⟨lastEventId, [], []⟩, []⟩

/-- One space after the colon belongs to it. -/
def dropSpace : List Char → List Char
  | [] => []
  | c :: cs => if c = ' ' then cs else c :: cs

/-- The field of a line is set. -/
def Block.set (b : Block) (field value : List Char) : Block :=
  if field = "event".toList then { b with type := value }
  else if field = "data".toList then { b with data := b.data ++ value ++ ['\n'] }
  else if field = "id".toList then (if '\x00' ∈ value then b else { b with id := value })
  else b

/-- A line that is not blank is a comment or a field. -/
def Block.read (b : Block) (line : List Char) : Block :=
  if line.head? = some ':' then b
  else b.set (line.takeWhile (· ≠ ':')) (dropSpace (line.dropWhile (· ≠ ':')).tail)

namespace Client

/-- A line is read. -/
def endLine (s : Client) : Client :=
  if s.line = [] then
    { s with blocks := s.blocks ++ [s.block], block := ⟨s.block.id, [], []⟩ }
  else { s with line := [], block := s.block.read s.line }

def feed (s : Client) (c : Char) : Client :=
  if c = '\n' then (if s.afterReturn then { s with afterReturn := false } else s.endLine)
  else if c = '\r' then { s.endLine with afterReturn := true }
  else { s with line := s.line ++ [c], afterReturn := false }

def feedAll (s : Client) (text : List Char) : Client := text.foldl feed s

def messages (s : Client) : List Message := s.blocks.filterMap Block.message

/-- The id that the client connects with again, after it has connected with `first`. -/
def lastEventId (first : List Char) (s : Client) : List Char :=
  (s.blocks.getLast?.map (·.id)).getD first

theorem feedAll_append (s : Client) (text more : List Char) :
    s.feedAll (text ++ more) = (s.feedAll text).feedAll more := List.foldl_append

theorem blocks_endLine (s : Client) : s.blocks <+: s.endLine.blocks := by
  unfold endLine
  split_ifs
  · exact List.prefix_append _ _
  · exact List.prefix_refl _

theorem blocks_feed (s : Client) (c : Char) : s.blocks <+: (s.feed c).blocks := by
  unfold feed
  split_ifs
  · exact List.prefix_refl _
  · exact s.blocks_endLine
  · exact s.blocks_endLine
  · exact List.prefix_refl _

/-- What was read stays read. -/
theorem blocks_feedAll (s : Client) (text : List Char) : s.blocks <+: (s.feedAll text).blocks := by
  induction text generalizing s with
  | nil => exact List.prefix_refl _
  | cons c text ih => exact (s.blocks_feed c).trans (ih (s.feed c))

/-- Characters of a line. -/
theorem feedAll_line : ∀ {l : List Char} (s : Client), s.afterReturn = false →
    (∀ c ∈ l, c ≠ '\n' ∧ c ≠ '\r') → s.feedAll l = { s with line := s.line ++ l }
  | [], s, _, _ => by
    rw [List.append_nil]
    rfl
  | c :: l, s, hreturn, h => by
    obtain ⟨hn, hr⟩ := h c List.mem_cons_self
    have hfeed : s.feed c = { s with line := s.line ++ [c] } := by
      unfold feed
      rw [if_neg hn, if_neg hr, hreturn]
    have hrest := feedAll_line (s.feed c) (by rw [hfeed]; exact hreturn) fun d hd =>
      h d (List.mem_cons_of_mem c hd)
    refine hrest.trans ?_
    rw [hfeed, List.append_assoc]
    rfl

/-- Between two lines. -/
structure AtRest (s : Client) : Prop where
  line : s.line = []
  afterReturn : s.afterReturn = false

/-- A whole line. -/
theorem feedAll_endLine {l : List Char} {s : Client} (hs : s.AtRest)
    (h : ∀ c ∈ l, c ≠ '\n' ∧ c ≠ '\r') :
    s.feedAll (l ++ ['\n']) = { s with line := l }.endLine := by
  have hfeed : { s with line := l }.feedAll ['\n'] = { s with line := l }.feed '\n' := rfl
  rw [feedAll_append, feedAll_line s hs.afterReturn h, hs.line, List.nil_append, hfeed]
  unfold feed
  rw [if_pos rfl, if_neg]
  rw [hs.afterReturn]
  exact Bool.false_ne_true

end Client

/-! ### Blocks of lines -/

def linesText (ls : List (List Char)) : List Char := ls.flatMap (· ++ ['\n'])

/-- Lines of a block: none is blank or broken. -/
def Unbroken (ls : List (List Char)) : Prop := ∀ l ∈ ls, l ≠ [] ∧ ∀ c ∈ l, c ≠ '\n' ∧ c ≠ '\r'

theorem feedAll_lines : ∀ {ls : List (List Char)} {s : Client}, s.AtRest → Unbroken ls →
    s.feedAll (linesText ls) = { s with block := ls.foldl Block.read s.block }
  | [], s, _, _ => rfl
  | l :: ls, s, hs, h => by
    obtain ⟨hl, hchars⟩ := h l List.mem_cons_self
    have hline : s.feedAll (l ++ ['\n']) = { s with block := s.block.read l } := by
      rw [Client.feedAll_endLine hs hchars, Client.endLine, if_neg hl, hs.line]
    have htext : linesText (l :: ls) = (l ++ ['\n']) ++ linesText ls := List.flatMap_cons
    have hrest : Client.AtRest { s with block := s.block.read l } := ⟨hs.line, hs.afterReturn⟩
    rw [htext, Client.feedAll_append, hline,
      feedAll_lines hrest fun l' hl' => h l' (List.mem_cons_of_mem l hl')]
    rfl

/-- A block of the lines, as it is sent. -/
def blockText (ls : List (List Char)) : List Char := linesText ls ++ ['\n']

/-- A whole block. -/
theorem feedAll_block {ls : List (List Char)} {s : Client} (hs : s.AtRest) (h : Unbroken ls) :
    s.feedAll (blockText ls) = { s with
      blocks := s.blocks ++ [ls.foldl Block.read s.block]
      block := ⟨(ls.foldl Block.read s.block).id, [], []⟩ } := by
  have hrest : Client.AtRest { s with block := ls.foldl Block.read s.block } :=
    ⟨hs.line, hs.afterReturn⟩
  unfold blockText
  rw [Client.feedAll_append, feedAll_lines hs h, ← List.nil_append ['\n'],
    Client.feedAll_endLine hrest fun c hc => absurd hc List.not_mem_nil, Client.endLine, if_pos rfl,
    hs.line]

/-- A block that is cut short is not read. -/
theorem blocks_of_cut {ls : List (List Char)} {s : Client} {text : List Char} (hs : s.AtRest)
    (h : Unbroken ls) (htext : text <+: blockText ls) (hne : text ≠ blockText ls) :
    (s.feedAll text).blocks = s.blocks := by
  rcases List.prefix_concat_iff.mp htext with heq | ⟨more, hmore⟩
  · exact absurd heq hne
  · have hlow := s.blocks_feedAll text
    have hhigh := (s.feedAll text).blocks_feedAll more
    rw [← Client.feedAll_append, hmore, feedAll_lines hs h] at hhigh
    exact (hlow.eq_of_length_le hhigh.length_le).symm

/-! ### What a server sends -/

def fieldLine (name value : List Char) : List Char := name ++ ':' :: ' ' :: value

/-- A comment, or an event with its id, type and data. -/
inductive Frame
  | comment (text : List Char)
  | event (id type data : List Char)
  deriving DecidableEq, Repr

namespace Frame

def lines : Frame → List (List Char)
  | comment text => [':' :: text]
  | event id type data => [fieldLine "id".toList id, fieldLine "event".toList type,
      fieldLine "data".toList data]

def text (f : Frame) : List Char := blockText f.lines

def message : Frame → Option Message
  | comment _ => none
  | event id type data => some ⟨id, type, data⟩

def id : Frame → Option (List Char)
  | comment _ => none
  | event id _ _ => some id

/-- No part breaks a line, and the event has a type and an id that can be set. -/
def Clean : Frame → Prop
  | comment text => ∀ c ∈ text, c ≠ '\n' ∧ c ≠ '\r'
  | event id type data => (∀ c ∈ id, c ≠ '\n' ∧ c ≠ '\r') ∧ '\x00' ∉ id ∧ type ≠ [] ∧
      (∀ c ∈ type, c ≠ '\n' ∧ c ≠ '\r') ∧ ∀ c ∈ data, c ≠ '\n' ∧ c ≠ '\r'

end Frame

theorem read_field (b : Block) {name : List Char} (hname : ':' ∉ name) (hne : name ≠ [])
    (value : List Char) : b.read (fieldLine name value) = b.set name value := by
  have hhead : (fieldLine name value).head? ≠ some ':' := by
    unfold fieldLine
    rw [List.head?_append_of_ne_nil _ hne]
    exact fun h => hname (List.mem_of_head? h)
  have hall : ∀ c ∈ name, decide (c ≠ ':') = true := fun c hc =>
    decide_eq_true fun he => hname (he ▸ hc)
  have htake : (fieldLine name value).takeWhile (· ≠ ':') = name := by
    unfold fieldLine
    rw [List.takeWhile_append_of_pos hall]
    exact List.append_nil name
  have hdrop : (fieldLine name value).dropWhile (· ≠ ':') = ':' :: ' ' :: value := by
    unfold fieldLine
    rw [List.dropWhile_append_of_pos hall]
    rfl
  unfold Block.read
  rw [if_neg hhead, htake, hdrop]
  rfl

/-- Nothing breaks the line. -/
theorem unbroken_of_all {cs : List Char} (h : cs.all (fun c => c != '\n' && c != '\r') = true) :
    ∀ c ∈ cs, c ≠ '\n' ∧ c ≠ '\r' := fun c hc => by
  simpa using List.all_eq_true.mp h c hc

namespace Frame

theorem unbroken {f : Frame} (h : f.Clean) : Unbroken f.lines := by
  have hfield : ∀ name value : List Char, (∀ c ∈ name, c ≠ '\n' ∧ c ≠ '\r') →
      (∀ c ∈ value, c ≠ '\n' ∧ c ≠ '\r') →
      fieldLine name value ≠ [] ∧ ∀ c ∈ fieldLine name value, c ≠ '\n' ∧ c ≠ '\r' := by
    intro name value hname hvalue
    refine ⟨by simp [fieldLine], List.forall_mem_append.mpr ⟨hname, ?_⟩⟩
    exact List.forall_mem_cons.mpr ⟨by decide, List.forall_mem_cons.mpr ⟨by decide, hvalue⟩⟩
  cases f with
  | comment text =>
    intro l hl
    rw [List.mem_singleton.mp hl]
    exact ⟨List.cons_ne_nil _ _, List.forall_mem_cons.mpr ⟨by decide, h⟩⟩
  | event id type data =>
    obtain ⟨hid, -, -, htype, hdata⟩ := h
    intro l hl
    simp only [lines, List.mem_cons, List.not_mem_nil, or_false] at hl
    rcases hl with rfl | rfl | rfl
    · exact hfield _ _ (unbroken_of_all rfl) hid
    · exact hfield _ _ (unbroken_of_all rfl) htype
    · exact hfield _ _ (unbroken_of_all rfl) hdata

/-- The block that a frame makes, after blocks with this id. -/
theorem foldl_read {f : Frame} (h : f.Clean) (before : List Char) :
    (f.lines.foldl Block.read ⟨before, [], []⟩).message = f.message ∧
      (f.lines.foldl Block.read ⟨before, [], []⟩).id = f.id.getD before := by
  cases f with
  | comment text => exact ⟨rfl, rfl⟩
  | event id type data =>
    obtain ⟨-, hnull, htype, -, -⟩ := h
    have hid : (Block.mk before [] []).read (fieldLine "id".toList id) = ⟨id, [], []⟩ := by
      rw [read_field _ (by decide) (by decide)]
      refine (if_neg (by decide)).trans ((if_neg (by decide)).trans ((if_pos rfl).trans ?_))
      exact if_neg hnull
    have hevent : (Block.mk id [] []).read (fieldLine "event".toList type) = ⟨id, type, []⟩ := by
      rw [read_field _ (by decide) (by decide)]
      exact if_pos rfl
    have hdata : (Block.mk id type []).read (fieldLine "data".toList data) =
        ⟨id, type, data ++ ['\n']⟩ := by
      rw [read_field _ (by decide) (by decide)]
      exact (if_neg (by decide)).trans (if_pos rfl)
    simp only [lines, List.foldl_cons, List.foldl_nil]
    rw [hid, hevent, hdata]
    refine ⟨?_, rfl⟩
    unfold Block.message
    rw [if_neg (by simp), if_neg htype, List.dropLast_concat]
    rfl

end Frame

def framesText (fs : List Frame) : List Char := fs.flatMap Frame.text

/-- The id that the frames leave, after blocks with another. -/
def lastId (before : List Char) (fs : List Frame) : List Char :=
  fs.foldl (fun id f => f.id.getD id) before

/-- Between two blocks, of a connection that was made with `first`. -/
structure Client.Ready (first : List Char) (s : Client) (id : List Char) : Prop
    extends s.AtRest where
  block : s.block = ⟨id, [], []⟩
  last : s.lastEventId first = id

theorem ready_start (first : List Char) : (Client.start first).Ready first first where
  line := rfl
  afterReturn := rfl
  block := rfl
  last := rfl

section

variable {first id : List Char} {s : Client}

/-- A whole frame. -/
theorem feed_frame {f : Frame} (hs : s.Ready first id) (h : f.Clean) :
    (s.feedAll f.text).Ready first (f.id.getD id) ∧
      (s.feedAll f.text).messages = s.messages ++ f.message.toList := by
  obtain ⟨hmessage, hid⟩ := Frame.foldl_read h id
  have hfeed := feedAll_block hs.toAtRest (Frame.unbroken h)
  rw [hs.block] at hfeed
  have htext : s.feedAll f.text = { s with
      blocks := s.blocks ++ [f.lines.foldl Block.read ⟨id, [], []⟩]
      block := ⟨(f.lines.foldl Block.read ⟨id, [], []⟩).id, [], []⟩ } := hfeed
  rw [htext]
  refine ⟨⟨⟨hs.line, hs.afterReturn⟩, ?_, ?_⟩, ?_⟩
  · rw [hid]
  · unfold Client.lastEventId
    rw [List.getLast?_concat, Option.map_some, Option.getD_some, hid]
  · unfold Client.messages
    rw [List.filterMap_append, List.filterMap_cons, List.filterMap_nil, hmessage]
    cases f.message <;> rfl

/-- Whole frames. -/
theorem feed_frames : ∀ {fs : List Frame} {id : List Char} {s : Client}, s.Ready first id →
    (∀ f ∈ fs, f.Clean) → (s.feedAll (framesText fs)).Ready first (lastId id fs) ∧
      (s.feedAll (framesText fs)).messages = s.messages ++ fs.filterMap Frame.message
  | [], id, s, hs, _ => ⟨hs, (List.append_nil _).symm⟩
  | f :: fs, id, s, hs, h => by
    obtain ⟨hready, hmessages⟩ := feed_frame hs (h f List.mem_cons_self)
    obtain ⟨hrest, hmore⟩ := feed_frames hready fun f' hf' => h f' (List.mem_cons_of_mem f hf')
    have htext : framesText (f :: fs) = f.text ++ framesText fs := List.flatMap_cons
    rw [htext, Client.feedAll_append]
    refine ⟨hrest, ?_⟩
    rw [hmore, hmessages, List.append_assoc, List.filterMap_cons]
    cases f.message <;> rfl

/-- **A stream that is cut**, wherever that is: the client has read a number of whole
frames, and all of them if it was cut nowhere. -/
theorem feed_cut : ∀ {fs : List Frame} {id : List Char} {s : Client} {text : List Char},
    s.Ready first id → (∀ f ∈ fs, f.Clean) → text <+: framesText fs →
    ∃ n, (s.feedAll text).messages = s.messages ++ (fs.take n).filterMap Frame.message ∧
      (s.feedAll text).lastEventId first = lastId id (fs.take n) ∧
      (text = framesText fs → fs.take n = fs)
  | [], id, s, text, hs, _, htext => by
    obtain rfl := List.prefix_nil.mp htext
    exact ⟨0, (List.append_nil _).symm, hs.last, fun _ => rfl⟩
  | f :: fs, id, s, text, hs, h, htext => by
    have hclean := h f List.mem_cons_self
    have hwhole : framesText (f :: fs) = f.text ++ framesText fs := List.flatMap_cons
    rw [hwhole] at htext
    by_cases hcut : f.text <+: text
    · obtain ⟨rest, rfl⟩ := hcut
      obtain ⟨hready, hmessages⟩ := feed_frame hs hclean
      obtain ⟨n, hmore, hlast, hall⟩ := feed_cut hready
        (fun f' hf' => h f' (List.mem_cons_of_mem f hf'))
        ((List.prefix_append_right_inj _).mp htext)
      refine ⟨n + 1, ?_, ?_, fun he => ?_⟩
      · rw [Client.feedAll_append, hmore, hmessages, List.append_assoc, List.take_succ_cons,
          List.filterMap_cons]
        cases f.message <;> rfl
      · rw [Client.feedAll_append, hlast]
        rfl
      · rw [hwhole] at he
        rw [List.take_succ_cons, hall (List.append_cancel_left he)]
    · have hprefix : text <+: f.text := by
        rcases List.prefix_or_prefix_of_prefix htext (List.prefix_append f.text _) with hp | hp
        · exact hp
        · exact absurd hp hcut
      have hne : text ≠ f.text := fun he => hcut (he ▸ List.prefix_refl _)
      have hblocks := blocks_of_cut hs.toAtRest (Frame.unbroken hclean) hprefix hne
      refine ⟨0, ?_, ?_, fun he => absurd (List.prefix_append f.text (framesText fs)) ?_⟩
      · unfold Client.messages
        rw [hblocks, List.take_zero, List.filterMap_nil, List.append_nil]
      · have hlast := hs.last
        unfold Client.lastEventId at hlast ⊢
        rw [hblocks, hlast]
        rfl
      · rw [← hwhole, ← he]
        exact hcut

end

end Sse
