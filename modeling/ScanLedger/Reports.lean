/-
# Reports

The exports of a stored scan (`app/services/reports.py`) and what they are made
from (`_load_export_inputs` in `app/api/findings.py`). The tables here have no
ids for findings and no times for ledger rows, so those two columns are left out
of the JSON export; ledger rows come in the order they were stored.

Key definitions: `ExportInputs`, `loadExportInputs`, `buildJsonExport`,
`markdownLines`, `buildMarkdownExport`.
Key theorems: `buildJsonExport_scope`, `markdownLines_scope`.
-/
import ScanLedger.Requests

namespace ScanLedger

/-! ### Times -/

/-- A number with at least so many digits. -/
def padded (digits : ℕ) (n : ℤ) : String :=
  let text := toString n
  String.ofList (List.replicate (digits - text.length) '0') ++ text

/-- The date of a day, by its number after the first of 1970: years are counted
from March, so that a leap day is the last of its year. -/
def civil (day : ℤ) : ℤ × ℤ × ℤ :=
  let shifted := day + 719468
  let era := shifted / 146097
  let dayOfEra := shifted % 146097
  let yearOfEra := (dayOfEra - dayOfEra / 1460 + dayOfEra / 36524 - dayOfEra / 146096) / 365
  let dayOfYear := dayOfEra - (365 * yearOfEra + yearOfEra / 4 - yearOfEra / 100)
  let month := (5 * dayOfYear + 2) / 153
  (yearOfEra + era * 400 + (if month < 10 then 0 else 1),
    if month < 10 then month + 3 else month - 9, dayOfYear - (153 * month + 2) / 5 + 1)

/-- `_iso` of a time, in seconds after the start of 1970. -/
def iso (moment : ℚ) : String :=
  let micros := (moment * 1000000).floor
  let seconds := micros / 1000000
  let date := civil (seconds / 86400)
  let fraction := micros % 1000000
  padded 4 date.1 ++ "-" ++ padded 2 date.2.1 ++ "-" ++ padded 2 date.2.2 ++ "T" ++
    padded 2 (seconds / 3600 % 24) ++ ":" ++ padded 2 (seconds / 60 % 60) ++ ":" ++
    padded 2 (seconds % 60) ++ (if fraction = 0 then "" else "." ++ padded 6 fraction) ++ "+00:00"

example : iso 1772323199.5 = "2026-02-28T23:59:59.500000+00:00" := by decide +kernel

/-! ### What an export is made from -/

structure ExportInputs where
  scan : ScanRow
  scope : ScopeProfileRow
  runs : List ModuleRunRow
  findings : List FindingRow
  ledger : List ScanLedgerRow

/-- `ORDER BY category, host, port`, with no port before any. -/
def FindingRow.precedes (row row' : FindingRow) : Bool :=
  let f := row.finding
  let f' := row'.finding
  if f.category.text ≠ f'.category.text then f.category.text < f'.category.text
  else if f.host ≠ f'.host then f.host < f'.host
  else match f.port, f'.port with
    | none, _ => true
    | some _, none => false
    | some port, some port' => decide (port ≤ port')

/-- `_load_export_inputs`. -/
def loadExportInputs (db : Db) (scanId : ℕ) : Except AppError ExportInputs :=
  match db.getScan scanId with
  | none => .error (.plain .scanNotFound ("no scan with id " ++ repr (toString scanId)))
  | some scan => match db.getScope scan.scopeId with
    | none => .error (.plain .scanNotFound "the scope profile for this scan no longer exists")
    | some scope => .ok {
        scan
        scope
        runs := (db.moduleRuns.filter (·.scanId == scanId)).insertionSort
          fun run run' => run.module ≤ run'.module
        findings := (db.findings.filter (·.scanId == scanId)).insertionSort
          fun row row' => row.precedes row' = true
        ledger := db.ledger.filter (·.scanId == some scanId) }

/-! ### JSON -/

section

variable (sha256 : String → String) (now : ℚ) (inputs : ExportInputs)

def jsonTime (moment : Option ℚ) : Json := Json.optional (fun t => .str (iso t)) moment

def jsonScan (scan : ScanRow) : Json :=
  .object [("id", .str (toString scan.id)), ("status", .str scan.status.text),
    ("target_input", .str scan.targetInput), ("target_normalized", .str scan.targetNormalized),
    ("target_type", .str scan.targetType.text), ("resolved_addresses", .strs scan.resolvedAddrs),
    ("intensity_profile", .str scan.intensityProfile), ("module_options", scan.moduleOptions),
    ("note", .optional .str scan.note), ("created_at", jsonTime (some scan.createdAt)),
    ("started_at", jsonTime scan.startedAt), ("finished_at", jsonTime scan.finishedAt)]

def jsonScope (scope : ScopeProfileRow) : Json :=
  .object [("id", .str (toString scope.id)), ("name", .str scope.name),
    ("entries", .strs scope.entries), ("allow_cgnat", .bool scope.allowCgnat),
    ("allow_link_local", .bool scope.allowLinkLocal)]

def jsonRun (run : ModuleRunRow) : Json :=
  .object [("module", .str run.module), ("status", .str run.status.text),
    ("finding_count", .int run.findingCount), ("cache_hit", .bool run.cacheHit),
    ("error_code", .optional .str run.safeErrorCode),
    ("error_message", .optional .str run.safeErrorMessage),
    ("started_at", jsonTime run.startedAt), ("finished_at", jsonTime run.finishedAt)]

def jsonFinding (f : Finding) : Json :=
  .object [("host", .str f.host), ("port", .optional .int f.port),
    ("category", .str f.category.text), ("kind", .str f.kind), ("title", .str f.title),
    ("summary", .str f.summary), ("normalized_value", f.normalizedValue),
    ("raw_evidence", .optional .str f.rawEvidence), ("module", .str f.module),
    ("observed_at", jsonTime (some f.observedAt)),
    ("confidence", .optional (fun c => .str c.text) f.confidence), ("sources", .strs f.sources),
    ("fingerprint", .str (f.fingerprint sha256))]

def Decision.text : Decision → String
  | .allowed => "allowed"
  | .denied => "denied"

theorem Decision.text_injective : Function.Injective Decision.text := by
  intro d d' h
  revert h
  cases d <;> cases d' <;> decide

def jsonEntry (entry : LedgerEntry) : Json :=
  .object [("destination", .str entry.destination), ("port", .optional .int entry.port),
    ("module", .str entry.module), ("decision", .str entry.decision.text),
    ("reason", .str entry.reason), ("outcome", .str entry.outcome)]

def buildJsonExport : Json :=
  .object [("schema_version", .int 1), ("generated_at", jsonTime (some now)),
    ("scan", jsonScan inputs.scan), ("scope", jsonScope inputs.scope),
    ("authorization", .object [("attestation_text", .str inputs.scan.attestationText),
      ("attestation_version", .str inputs.scan.attestationVersion),
      ("attested_at", jsonTime (some inputs.scan.attestationAt))]),
    ("modules", .array (inputs.runs.map jsonRun)),
    ("findings", .array (inputs.findings.map fun row => jsonFinding sha256 row.finding)),
    ("ledger", .array (inputs.ledger.map fun row => jsonEntry row.entry))]

/-! ### Markdown -/

def categoryTitle : FindingCategory → String
  | .liveHost => "Live hosts"
  | .portService => "Ports and services"
  | .enumeration => "Enumeration"
  | .vulnerability => "Vulnerabilities"

def summaryRowsPerCategory : ℕ := 20

/-- The line of the scope. -/
def scopeLine (name : String) (entries : List String) : String :=
  "- **Scope profile:** " ++ name ++ " - " ++ ", ".intercalate entries

def scanLines (scan : ScanRow) (scope : ScopeProfileRow) : List String :=
  ["# ScanLedger report - " ++ scan.targetNormalized, "",
    "> Authorized lab scan. Every destination below was inside the attested " ++
      "private scope profile; ScanLedger refuses any public or out-of-scope address.",
    "", "## Scan", "",
    "- **Status:** " ++ scan.status.text,
    "- **Target:** `" ++ scan.targetInput ++ "` (normalized `" ++ scan.targetNormalized ++
      "`, type " ++ scan.targetType.text ++ ")",
    scopeLine scope.name scope.entries,
    "- **Intensity profile:** " ++ scan.intensityProfile,
    "- **Created:** " ++ iso scan.createdAt,
    "- **Finished:** " ++ (scan.finishedAt.map iso).getD "not finished"] ++
  match scan.note with
  | none | some "" => []
  | some note => ["- **Engagement note:** " ++ note]

def authorizationLines (scan : ScanRow) : List String :=
  ["", "## Authorization", "", "> " ++ scan.attestationText, "",
    "Attested " ++ iso scan.attestationAt ++ " (attestation " ++ scan.attestationVersion ++ ").",
    "", "## Methodology and limits", "",
    "- Unprivileged TCP connect probing only. No raw sockets, no SYN scanning, " ++
      "no exploitation, no credential attacks, and nothing was written to a target.",
    "- Concurrency and connection rate were bounded by the intensity governor.",
    "- A skipped, failed, or interrupted module means *unknown*, never *absent*: " ++
      "it cannot be read as a closed port or as the absence of a finding."]

def runLines (runs : List ModuleRunRow) : List String :=
  let incomplete := runs.filter (·.status != .done)
  ["", "## Module status", "", "| Module | Status | Findings | Reason |",
    "| --- | --- | --- | --- |"] ++
  (runs.map fun run => "| " ++ run.module ++ " | " ++ run.status.text ++ " | " ++
    toString run.findingCount ++ " | " ++ run.safeErrorMessage.getD "" ++ " |") ++
  if incomplete.isEmpty then []
  else ["", "**" ++ toString incomplete.length ++ " module(s) did not complete:** " ++
    ", ".intercalate (incomplete.map (·.module)) ++ ". " ++
    "Their categories below are incomplete, not empty."]

def findingLine (f : Finding) : String :=
  "| " ++ f.host ++ " | " ++ (f.port.map toString).getD "" ++ " | " ++ f.title ++ " | " ++
    f.module ++ " | " ++ iso f.observedAt ++ " |"

/-- One turn of the loop over the categories. -/
def categoryLines (full : Bool) (findings : List FindingRow) (category : FindingCategory) :
    List String :=
  let rows := findings.filter (·.finding.category == category)
  let shown := if full then rows else rows.take summaryRowsPerCategory
  ["### " ++ categoryTitle category, ""] ++
  if rows.isEmpty then ["No findings in this category.", ""]
  else
    ["| Host | Port | Finding | Module | Observed |", "| --- | --- | --- | --- | --- |"] ++
    (shown.map fun row => findingLine row.finding) ++
    (if shown.length < rows.length then ["", "_" ++ toString (rows.length - shown.length) ++
      " further row(s) omitted from this summary; the JSON export carries the complete record._"]
    else []) ++
    [""]

def ledgerLines (ledger : List ScanLedgerRow) : List String :=
  let denied := ledger.filter (·.entry.decision == .denied)
  ["## Audit ledger", "",
    "- Destinations allowed and probed: **" ++
      toString (ledger.countP (·.entry.decision == .allowed)) ++ "**",
    "- Destinations denied before any packet: **" ++ toString denied.length ++ "**", ""] ++
  if denied.isEmpty then []
  else ["| Destination | Reason |", "| --- | --- |"] ++
    (denied.map fun row => "| " ++ row.entry.destination ++ " | " ++ row.entry.reason ++ " |") ++
    [""]

def markdownLines (full : Bool) : List String :=
  scanLines inputs.scan inputs.scope ++ authorizationLines inputs.scan ++ runLines inputs.runs ++
  ["", "## Findings", ""] ++
  ([.liveHost, .portService, .enumeration, .vulnerability].flatMap
    (categoryLines full inputs.findings)) ++
  ledgerLines inputs.ledger ++
  ["_Generated " ++ iso now ++ " from stored evidence; no probes were sent._"]

def buildMarkdownExport (full : Bool) : String := "\n".intercalate (markdownLines now inputs full)

/-! ### What the exports report of the scope -/

theorem buildJsonExport_scope :
    (buildJsonExport sha256 now inputs).field "scope" = some (jsonScope inputs.scope) := by
  unfold buildJsonExport
  simp

theorem markdownLines_scope (full : Bool) :
    (markdownLines now inputs full)[8]? = some (scopeLine inputs.scope.name inputs.scope.entries) :=
  rfl

end

end ScanLedger
