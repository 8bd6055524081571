/-
# HTTP enumeration

`app/modules/protocol_enum.py`, as far as it speaks HTTP: one read of the answer
to a GET, what is parsed from it, and the finding that is made of it.

The answer is read once, so what is parsed is the first segment that arrives:
however a response is cut, it is parsed the same only where there is no status
line to be read at all (`fetch_independent_iff`). The head of a response ends at
an empty line of CRLF; where lines end in another way, the evidence goes on into
the body (`headersOnly_iff`).

Key definitions: `parseResponse`, `fetch`, `httpFindings`, `Independent`, `HeadersOnly`.
Key theorems: `matchStart_statusPattern_iff`, `startsResponse_of_append`,
`fetch_independent_iff`, `headersOnly_iff`.
-/
import ScanLedger.Lib.Split
import ScanLedger.Telnet

namespace ScanLedger

open Regex

/-! ### What is read of an answer -/

structure HttpResponse where
  status : Option ℕ
  headers : List (String × String)
  title : Option String
  rawHead : String
  deriving DecidableEq, Repr

def readBytes : ℕ := 16384

/-- What the exchange of a request for an answer comes to: an error or a timeout,
or the segments that arrive one after the other before the end of the stream. -/
inductive Exchange
  | failed
  | arriving (segments : List (List UInt8))

/-- `StreamReader.read`: as soon as there are bytes, at most `n` of them, and none
at the end of the stream. -/
def readStream (n : ℕ) (segments : List (List UInt8)) : List UInt8 := (segments.headD []).take n

/-- A text in a pattern that does not ignore the case. -/
def exactly (text : String) : Pattern Char := literal (text.toList.map fun c x => c == x)

/-- `headers[name] = value`. -/
def setHeader (headers : List (String × String)) (name value : String) : List (String × String) :=
  if headers.any (·.1 == name) then
    headers.map fun header => if header.1 = name then (name, value) else header
  else headers ++ [(name, value)]

def crlf : List Char := ['\r', '\n']

/-- The end of a head. -/
def blankCrlf : List Char := ['\r', '\n', '\r', '\n']

section

variable (u : CharTables)

/-- `STATUS_PATTERN`. -/
def statusPattern : Pattern Char :=
  seqs [.look fun before _ => before.isNone, exactly "HTTP/", .plus (.one (digitDot u)),
    .plus (.one isSpace), .group (seqs [.one (digit u), .one (digit u), .one (digit u)])]

/-- `TITLE_PATTERN`. -/
def titlePattern : Pattern Char :=
  seqs [ignoreCase "<title", .star (.one (· != '>')), .one (· == '>'),
    .group (.lazyStar (.one fun _ => true)), ignoreCase "</title>"]

/-- `int` of decimal digits. -/
def decimalValue (digits : List Char) : ℕ :=
  digits.foldl (fun n c => n * 10 + (u.decimal c).getD 0) 0

/-- `str.lower`. -/
def lowered (text : String) : String := String.ofList (u.lower text.toList)

/-- A line of the head, at its first colon. -/
def addHeader (headers : List (String × String)) (line : List Char) : List (String × String) :=
  match Split.past [':'] line with
  | none => headers
  | some value => setHeader headers
      (lowered u (strip (String.ofList (Split.upTo [':'] line)))) (strip (String.ofList value))

def headersOf (text : List Char) : List (String × String) :=
  ((Split.parts crlf (Split.upTo blankCrlf text)).drop 1).foldl (addHeader u) []

def titleOf (text : List Char) : Option String :=
  (Regex.search titlePattern text).bind fun m => m.groups.head?.map fun title =>
    String.ofList ((strip (String.ofList title)).toList.take 200)

/-- What `_fetch` makes of the decoded bytes. -/
def parseResponse (text : String) : Option HttpResponse :=
  (matchStart (statusPattern u) text.toList).map fun m =>
    { status := m.groups.head?.map (decimalValue u)
      headers := headersOf u text.toList
      title := titleOf text.toList
      rawHead := text }

/-- `_fetch`. -/
def fetch : Exchange → Option HttpResponse
  | .failed => none
  | .arriving segments =>
    let raw := readStream readBytes segments
    if raw = [] then none else parseResponse u (decodeBanner raw)

end

/-! ### The finding -/

/-- `SECURITY_HEADERS`. -/
def securityHeaders : List String :=
  ["strict-transport-security", "content-security-policy", "x-frame-options",
    "x-content-type-options", "referrer-policy", "permissions-policy"]

/-- `response.headers.get`. -/
def HttpResponse.header (response : HttpResponse) (name : String) : Option String :=
  response.headers.lookup name

/-- The text of an `int | None`. -/
def statusText : Option ℕ → String
  | some status => toString status
  | none => "None"

def rawEvidence (rawHead : String) : String :=
  String.ofList ((Split.upTo blankCrlf rawHead.toList).take 2000)

/-- `_http_findings`. -/
def httpFindings (clock : String → Option ℤ → ℚ) (host : String) (port : ℤ)
    (response : HttpResponse) (useTls : Bool) : List Finding :=
  let scheme := if useTls then "https" else "http"
  let has name := (response.header name).isSome
  let summaryBits := ["HTTP " ++ statusText response.status] ++
    ((truthy (response.header "server")).map ("Server: " ++ ·)).toList ++
    ((truthy response.title).map ("Title: " ++ ·)).toList
  [{ host := host
     port := some port
     category := .enumeration
     kind := "http.response"
     title := host ++ ":" ++ toString port ++ " answered an HTTP request (" ++ scheme ++ ")"
     summary := ". ".intercalate summaryBits ++ "."
     module := "protocol_enum"
     identityKey := "http/" ++ toString port
     normalizedValue := .object [("port", .int port), ("scheme", .str scheme),
       ("status", .optional (fun status : ℕ => .int status) response.status),
       ("server", .optional .str (response.header "server")),
       ("title", .optional .str response.title),
       ("security_headers_present", .strs (securityHeaders.filter has)),
       ("security_headers_missing", .strs (securityHeaders.filter fun name => !has name))]
     rawEvidence := some (rawEvidence response.rawHead)
     confidence := some .high
     sources := []
     observedAt := clock host (some port) }]

/-! ### The status line -/

section

variable {u : CharTables} {c : Char} {text w : List Char} {raw : List UInt8}

variable (u) in
/-- The texts of a status line, as far as it is looked at. -/
def StatusLine (w : List Char) : Prop :=
  ∃ version spaces status : List Char, w = "HTTP/".toList ++ version ++ spaces ++ status ∧
    (version ≠ [] ∧ All (digitDot u) version) ∧ (spaces ≠ [] ∧ All isSpace spaces) ∧
    status.length = 3 ∧ All (digit u) status

variable (u) in
/-- The text begins with a status line. -/
def StartsResponse (text : List Char) : Prop := ∃ w rest, text = w ++ rest ∧ StatusLine u w

theorem matches_exactly {name : String} : Matches (exactly name) (name.toList = ·) := by
  intro prev as m
  have hspells : Spells (name.toList.map fun c x => c == x) m.text ↔ name.toList = m.text := by
    unfold Spells
    rw [List.forall₂_map_left_iff]
    simp only [beq_iff_eq, List.forall₂_eq_eq_eq]
  refine (matches_literal prev as m).trans (and_congr_right fun _ => and_congr_left fun _ => ?_)
  exact hspells

theorem matches_three {p : Char → Bool} : Matches (seqs [.one p, .one p, .one p])
    fun w => w.length = 3 ∧ All p w := by
  have hone : Matches (.one p) fun w => ∃ a, p a = true ∧ w = [a] := matches_one
  intro prev as m
  refine (hone.seqs (hone.seqs (hone.seqs matches_nil)) prev as m).trans
    (and_congr_right fun _ => and_congr_left fun _ => ?_)
  constructor
  · rintro ⟨_, _, htext, ⟨a, ha, rfl⟩, _, _, rfl, ⟨b, hb, rfl⟩, _, _, rfl, ⟨c, hc, rfl⟩, rfl⟩
    rw [htext]
    exact ⟨rfl, by simpa [All] using ⟨ha, hb, hc⟩⟩
  · rintro ⟨hlength, hall⟩
    obtain ⟨a, b, c, htext⟩ := List.length_eq_three.mp hlength
    rw [htext] at hall ⊢
    unfold All at hall
    simp only [List.forall_mem_cons] at hall
    obtain ⟨ha, hb, hc, -⟩ := hall
    exact ⟨[a], [b, c], rfl, ⟨a, ha, rfl⟩, [b], [c], rfl, ⟨b, hb, rfl⟩, [c], [], rfl,
      ⟨c, hc, rfl⟩, rfl⟩

theorem matchStart_statusPattern_iff :
    matchStart (statusPattern u) text ≠ none ↔ StartsResponse u text := by
  unfold matchStart
  rw [Ne, first_eq_none]
  constructor
  · intro hne
    obtain ⟨m, hm⟩ := List.exists_mem_of_ne_nil _ hne
    obtain ⟨m₁, h₁, m₂, h₂, -⟩ := mem_run_seqs.mp hm
    obtain ⟨-, rfl⟩ := mem_run_look.mp h₁
    obtain ⟨_, t, rfl, rfl, m₃, h₃, -⟩ := matches_exactly.mem_run_seqs.mp h₂
    obtain ⟨version, t, rfl, hversion, m₄, h₄, -⟩ := matches_plus.mem_run_seqs.mp h₃
    obtain ⟨spaces, t, rfl, hspaces, m₅, h₅, -⟩ := matches_plus.mem_run_seqs.mp h₄
    obtain ⟨status, rest, rfl, ⟨hlength, hdigits⟩, -⟩ := matches_three.mem_run_group.mp h₅
    refine ⟨_, rest, ?_, version, spaces, status, rfl, hversion, hspaces, hlength, hdigits⟩
    simp only [List.append_assoc]
  · rintro ⟨_, rest, rfl, version, spaces, status, rfl, hversion, hspaces, hlength, hdigits⟩
    refine List.ne_nil_of_mem (mem_run_seqs.mpr ⟨_, mem_run_look.mpr ⟨rfl, rfl⟩, _,
      matches_exactly.mem_run_seqs.mpr ⟨_, version ++ (spaces ++ (status ++ rest)), ?_, rfl, _,
        matches_plus.mem_run_seqs.mpr ⟨version, _, rfl, hversion, _,
          matches_plus.mem_run_seqs.mpr ⟨spaces, _, rfl, hspaces, _,
            matches_three.mem_run_group.mpr ⟨status, rest, rfl, ⟨hlength, hdigits⟩, _,
              mem_run_seqs_nil.mpr rfl, rfl⟩, rfl⟩, rfl⟩, rfl⟩, rfl⟩)
    simp only [List.append_assoc]

theorem parseResponse_eq_none :
    parseResponse u (String.ofList text) = none ↔ ¬ StartsResponse u text := by
  unfold parseResponse
  rw [Option.map_eq_none_iff, String.toList_ofList, ← matchStart_statusPattern_iff, not_ne_iff]

/-! ### Segments -/

theorem digit_replacement : digit u Utf8.replacement = false := by
  by_contra hdigit
  have halnum := u.alnum_of_decimal Utf8.replacement (eq_true_of_ne_false hdigit)
  have hno : u.alnum Utf8.replacement = false := u.alnum_replacement
  rw [hno] at halnum
  cases halnum

/-- A status line is read without replacement. -/
theorem replacement_notMem (h : StatusLine u w) : Utf8.replacement ∉ w := by
  obtain ⟨version, spaces, status, rfl, ⟨-, hversion⟩, ⟨-, hspaces⟩, -, hstatus⟩ := h
  have hdot : digitDot u Utf8.replacement = false := by
    unfold digitDot
    rw [digit_replacement]
    rfl
  simp only [List.mem_append, not_or]
  refine ⟨⟨⟨by decide, ?_⟩, ?_⟩, ?_⟩
  · intro hmem
    exact absurd (hversion _ hmem) (by simp [hdot])
  · intro hmem
    exact absurd (hspaces _ hmem) (by decide)
  · intro hmem
    exact absurd (hstatus _ hmem) (by simp [digit_replacement])

/-- **More bytes** do not take a status line away. -/
theorem startsResponse_of_append {more : List UInt8} (h : StartsResponse u (Utf8.decode raw)) :
    StartsResponse u (Utf8.decode (raw ++ more)) := by
  obtain ⟨w, rest, hsplit, hline⟩ := h
  obtain ⟨out, p, hraw, happend⟩ := Utf8.decodeFrom_append raw none
  unfold Utf8.decode at hsplit ⊢
  rw [hraw] at hsplit
  rw [happend]
  rcases List.append_eq_append_iff.mp hsplit with ⟨as, rfl, has⟩ | ⟨as, rfl, -⟩
  · -- what is flushed at the end of the bytes is a replacement
    have has' : as = [] := by
      cases p with
      | none => exact (List.append_eq_nil_iff.mp has.symm).1
      | some p =>
        cases as with
        | nil => rfl
        | cons a as =>
          obtain ⟨hreplaced, -⟩ := List.cons.inj has
          refine absurd ?_ (replacement_notMem hline)
          rw [hreplaced]
          exact List.mem_append_right out List.mem_cons_self
    rw [has', List.append_nil] at hline
    exact ⟨out, _, rfl, hline⟩
  · exact ⟨w, as ++ Utf8.decodeFrom p more, List.append_assoc _ _ _, hline⟩

/-- A status line is longer than one byte. -/
theorem not_startsResponse_singleton (b : UInt8) : ¬ StartsResponse u (Utf8.decode [b]) := by
  rintro ⟨w, rest, hsplit, version, spaces, status, rfl, -, -, hstatus, -⟩
  have hlength := Utf8.length_decode_singleton b
  rw [hsplit] at hlength
  simp only [List.length_append] at hlength
  omega

/-- The segments are the answer, cut into parts that are not empty. -/
def SplitsInto (raw : List UInt8) (segments : List (List UInt8)) : Prop :=
  segments.flatten = raw ∧ ∀ segment ∈ segments, segment ≠ []

variable (u) in
/-- However the answer is cut into segments, the response is the same. -/
def Independent (raw : List UInt8) : Prop :=
  ∀ segments segments', SplitsInto raw segments → SplitsInto raw segments' →
    fetch u (.arriving segments) = fetch u (.arriving segments')

theorem fetch_cons {segment : List UInt8} {segments : List (List UInt8)} (hne : segment ≠ [])
    (hlength : segment.length ≤ readBytes) :
    fetch u (.arriving (segment :: segments)) =
      parseResponse u (String.ofList (Utf8.decode segment)) := by
  have hread : readStream readBytes (segment :: segments) = segment := by
    unfold readStream
    rw [List.headD_cons, List.take_of_length_le hlength]
  unfold fetch decodeBanner
  dsimp only
  rw [hread, if_neg hne]

/-- **Segments.** What is fetched does not depend on them exactly when the answer
does not begin with a status line. -/
theorem fetch_independent_iff (h : raw.length ≤ readBytes) :
    Independent u raw ↔ ¬ StartsResponse u (Utf8.decode raw) := by
  constructor
  · intro hindependent hstarts
    cases raw with
    | nil =>
      obtain ⟨w, rest, hsplit, version, spaces, status, rfl, -, -, hstatus, -⟩ := hstarts
      have hlength := congrArg List.length hsplit
      simp only [List.length_append] at hlength
      have hnil : (Utf8.decode []).length = 0 := rfl
      omega
    | cons b raw =>
      have hmore : raw ≠ [] := by
        rintro rfl
        exact not_startsResponse_singleton b hstarts
      have hone : [b].length ≤ readBytes := by
        rw [List.length_singleton]
        decide
      have hsame := hindependent [b :: raw] [[b], raw] ⟨by simp, by simp⟩ ⟨by simp, by simpa⟩
      rw [fetch_cons (List.cons_ne_nil b raw) h, fetch_cons (List.cons_ne_nil b []) hone,
        parseResponse_eq_none.mpr (not_startsResponse_singleton b)] at hsame
      exact parseResponse_eq_none.mp hsame hstarts
  · intro hno
    have hnone : ∀ segments, SplitsInto raw segments → fetch u (.arriving segments) = none := by
      rintro segments ⟨hflatten, hne⟩
      cases segments with
      | nil => rfl
      | cons segment segments =>
        rw [List.flatten_cons] at hflatten
        have hlength : segment.length ≤ readBytes := by
          have hall := congrArg List.length hflatten
          rw [List.length_append] at hall
          omega
        rw [fetch_cons (hne segment List.mem_cons_self) hlength, parseResponse_eq_none]
        intro hstarts
        refine hno ?_
        rw [← hflatten]
        exact startsResponse_of_append hstarts
    intro segments segments' hs hs'
    rw [hnone segments hs, hnone segments' hs']

end

/-- The bytes of an ASCII text. -/
def asciiBytes (text : String) : List UInt8 := text.toList.map fun c => c.val.toUInt8

/-- A head, and a page. -/
def pageSegments : List (List UInt8) :=
  [asciiBytes "HTTP/1.0 200 OK\r\n\r\n", asciiBytes "<title>Lab Box</title>"]

theorem fetch_independent_page : Independent asciiTables pageSegments.flatten ↔
    ¬ StartsResponse asciiTables (Utf8.decode pageSegments.flatten) :=
  fetch_independent_iff (by decide +kernel)

/-- The title of a page is found in one segment and not in two. -/
theorem not_fetch_independent : ¬ ∀ (u : CharTables) (raw : List UInt8), raw.length ≤ readBytes →
    Independent u raw := by
  intro h
  have hsplit : SplitsInto pageSegments.flatten pageSegments := by
    refine ⟨rfl, ?_⟩
    decide +kernel
  have hwhole : SplitsInto pageSegments.flatten [pageSegments.flatten] := by
    refine ⟨by simp, ?_⟩
    decide +kernel
  have hsame := h asciiTables pageSegments.flatten (by decide +kernel) _ _ hsplit hwhole
  have htitles : (fetch asciiTables (.arriving pageSegments)).map (·.title) ≠
      (fetch asciiTables (.arriving [pageSegments.flatten])).map (·.title) := by
    decide +kernel
  exact htitles (by rw [hsame])

/-! ### The evidence -/

/-- The text ends with an empty line: two line ends, each CRLF or LF. -/
def EndsBlank (text : List Char) : Prop := ['\n', '\n'] <:+ text ∨ ['\n', '\r', '\n'] <:+ text

instance (text : List Char) : Decidable (EndsBlank text) := inferInstanceAs (Decidable (_ ∨ _))

/-- The text up to the end of its first empty line. -/
def FirstBlank (text before : List Char) : Prop :=
  before <+: text ∧ EndsBlank before ∧
    ∀ shorter, shorter <+: text → EndsBlank shorter → before.length ≤ shorter.length

/-- The evidence of the response has nothing that comes after its first empty
line. -/
def HeadersOnly (clock : String → Option ℤ → ℚ) (host : String) (port : ℤ)
    (response : HttpResponse) (useTls : Bool) : Prop :=
  ∀ f ∈ httpFindings clock host port response useTls, f.kind = "http.response" →
    ∃ evidence, f.rawEvidence = some evidence ∧
      ∀ before, FirstBlank response.rawHead.toList before → evidence.toList <+: before

/-- The first empty line ends past the limit of the evidence, or with the text,
or not before two CRLF begin. -/
def CutInTime (text : List Char) : Prop :=
  ∀ before, FirstBlank text before → 2000 ≤ before.length ∨ text.length ≤ before.length ∨
    ∃ head body, text = head ++ blankCrlf ++ body ∧ head.length ≤ before.length

section

variable {clock : String → Option ℤ → ℚ} {host : String} {port : ℤ} {response : HttpResponse}
  {useTls : Bool}

theorem headersOnly_congr : HeadersOnly clock host port response useTls ↔
    ∀ before, FirstBlank response.rawHead.toList before →
      (rawEvidence response.rawHead).toList <+: before := by
  unfold HeadersOnly httpFindings
  simp

/-- **The evidence** is the headers only exactly when it is cut in time. -/
theorem headersOnly_iff : HeadersOnly clock host port response useTls ↔
    CutInTime response.rawHead.toList := by
  rw [headersOnly_congr]
  refine forall_congr' fun before => forall_congr' fun hfirst => ?_
  have hevidence : (rawEvidence response.rawHead).toList <+: response.rawHead.toList := by
    unfold rawEvidence
    rw [String.toList_ofList]
    exact (List.take_prefix _ _).trans (Split.upTo_prefix _ _)
  have hlength : (rawEvidence response.rawHead).toList <+: before ↔
      (rawEvidence response.rawHead).toList.length ≤ before.length :=
    ⟨List.IsPrefix.length_le, List.prefix_of_prefix_length_le hevidence hfirst.1⟩
  have htaken : (rawEvidence response.rawHead).toList.length ≤ before.length ↔
      2000 ≤ before.length ∨
        (Split.upTo blankCrlf response.rawHead.toList).length ≤ before.length := by
    unfold rawEvidence
    rw [String.toList_ofList, List.length_take, inf_le_iff]
  have hne : blankCrlf ≠ [] := List.cons_ne_nil _ _
  rw [hlength, htaken, Split.length_upTo_le_iff hne]

end

/-- A page after a head with bare line feeds is stored with it. -/
theorem not_headersOnly : ¬ ∀ (u : CharTables) (exchange : Exchange) (response : HttpResponse)
    (clock : String → Option ℤ → ℚ) (host : String) (port : ℤ) (useTls : Bool),
    fetch u exchange = some response → HeadersOnly clock host port response useTls := by
  intro h
  have hfetch : fetch asciiTables (.arriving [asciiBytes "HTTP/1.0 200 OK\n\n<p>"]) =
      some ⟨some 200, [], none, "HTTP/1.0 200 OK\n\n<p>"⟩ := by
    decide +kernel
  have hheaders := headersOnly_congr.mp (h _ _ _ (fun _ _ => 0) "10.10.0.5" 80 false hfetch)
  have hblank : FirstBlank "HTTP/1.0 200 OK\n\n<p>".toList "HTTP/1.0 200 OK\n\n".toList := by
    have hshortest : ∀ shorter ∈ "HTTP/1.0 200 OK\n\n<p>".toList.inits, EndsBlank shorter →
        "HTTP/1.0 200 OK\n\n".toList.length ≤ shorter.length := by
      decide +kernel
    refine ⟨by decide +kernel, by decide +kernel, fun shorter hprefix hblank => ?_⟩
    exact hshortest shorter ((List.mem_inits _ _).mpr hprefix) hblank
  have hevidence := (hheaders _ hblank).length_le
  revert hevidence
  decide +kernel

end ScanLedger
