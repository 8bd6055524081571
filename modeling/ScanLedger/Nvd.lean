/-
# The NVD client

`app/services/providers/nvd.py`: an answer is parsed into records, without the
items that have no id and the rejected ones, and a result without records should
carry a caveat. The caveat goes by the total that the server reports, and not by
the records that are left (`caveat_iff`).

Key definitions: `parseCvePayload`, `cpeResult`, `byCpe`, `byKeyword`, `kept`,
`CaveatSpec`.
Key theorems: `parseItems_records`, `caveat_iff`.
-/
import ScanLedger.Lib.Raising
import ScanLedger.Outbound
import ScanLedger.Payloads

namespace ScanLedger
namespace Nvd

def cveUrl : String := "https://" ++ nvdHost ++ "/rest/json/cves/2.0"
def maxResultsPerPage : ℕ := 50

def metricKeys : List String := ["cvssMetricV40", "cvssMetricV31", "cvssMetricV30", "cvssMetricV2"]

/-- An id, a description and a status are what the payload has there. -/
structure CveRecord where
  cveId : Json
  description : Json
  vulnStatus : Json
  cvssScore : Option FloatValue
  cvssSeverity : Option String
  cvssVersion : Option String
  hasCpeConfiguration : Bool
  deriving DecidableEq, Repr

structure NvdResult where
  records : List CveRecord
  totalResults : ℤ
  queryKind : String
  notes : List String
  deriving DecidableEq, Repr

/-! ### Parsing -/

/-- `_first_metric`, from one of the keys on. -/
def firstMetricFrom (metrics : Json) :
    List String → Except PayloadError (Option FloatValue × Option String × Option String)
  | [] => .ok (none, none, none)
  | key :: keys => do
    let entries ← getField metrics key .null
    if truthyValue entries then
      let data ← getField (← firstItem entries) "cvssData" (.object [])
      let score ← getField data "baseScore" .null
      let ownSeverity ← getField data "baseSeverity" .null
      let severity ← if truthyValue ownSeverity then pure ownSeverity
        else getField (← firstItem entries) "baseSeverity" .null
      let score ← floatOf score
      return (score, if truthyValue severity then some (strOf severity) else none, some key)
    else firstMetricFrom metrics keys

def firstMetric (metrics : Json) :
    Except PayloadError (Option FloatValue × Option String × Option String) :=
  firstMetricFrom metrics metricKeys

/-- The first description in English, or the empty text. -/
def englishDescription : List Json → Except PayloadError Json
  | [] => .ok (.str "")
  | entry :: entries => do
    if (← getField entry "lang" .null) = .str "en" then getField entry "value" (.str "")
    else englishDescription entries

/-- The record of a CVE that is kept. -/
def recordOf (cve cveId : Json) : Except PayloadError CveRecord := do
  let descriptions ← iterate (← getField cve "descriptions" (.array []))
  let description ← englishDescription descriptions
  let (score, severity, version) ←
    firstMetric (orElse (← getField cve "metrics" .null) (.object []))
  let vulnStatus ← getField cve "vulnStatus" .null
  let configurations ← getField cve "configurations" .null
  return ⟨cveId, description, vulnStatus, score, severity, version, truthyValue configurations⟩

/-- What the loop makes of one item: a record, or nothing. -/
def parseItem (item : Json) : Except PayloadError (Option CveRecord) := do
  let cve := orElse (← getField item "cve" .null) (.object [])
  let cveId ← getField cve "id" .null
  if truthyValue cveId then
    let vulnStatus ← getField cve "vulnStatus" .null
    if vulnStatus = .str "Rejected" then return none
    else return some (← recordOf cve cveId)
  else return none

/-- The loop, with the records so far. -/
def parseItems : List CveRecord → List Json → Except PayloadError (List CveRecord)
  | records, [] => .ok records
  | records, item :: items => do
    match ← parseItem item with
    | none => parseItems records items
    | some record => parseItems (records ++ [record]) items

def parseCvePayload (payload : Json) : Except PayloadError (List CveRecord × ℤ) := do
  let items ← iterate (← getField payload "vulnerabilities" (.array []))
  let records ← parseItems [] items
  let total ← getField payload "totalResults" (.int records.length)
  match intOf total with
  | .ok total => return (records, total)
  | .error error => throw error.toPayload

/-! ### Queries -/

def cpeCaveat : String :=
  "NVD returned no CVE with a CPE configuration matching this exact " ++
  "product and version. Under NVD's 2026 risk-based enrichment model " ++
  "most recent CVEs carry no CPE data at all, so this is not evidence " ++
  "that the service is unaffected."

/-- What `by_cpe` makes of an answer. -/
def cpeResult (payload : Json) : Except PayloadError NvdResult := do
  let (records, total) ← parseCvePayload payload
  return ⟨records, total, "cpe", if total = 0 then [cpeCaveat] else []⟩

/-- What `by_keyword` makes of an answer. -/
def keywordResult (product : String) (payload : Json) : Except PayloadError NvdResult := do
  let (records, total) ← parseCvePayload payload
  return ⟨records, total, "keyword",
    ["Matched on the product name " ++ repr product ++ " only, not on the detected " ++
      "version, because no curated CPE exists for this product. These are " ++
      "candidates to review, not version-matched results."]⟩

inductive NvdError
  | disallowed (error : DisallowedProviderHost)
  | provider (error : ProviderError)
  | payload (error : PayloadError)

/-- A query through the gateway, and what is made of the answer. -/
def query (gateway : OutboundGateway) (env : OutboundEnv) (params : List (String × String))
    (answers : ℕ → ProviderAnswer) (result : Json → Except PayloadError NvdResult) :
    Except NvdError NvdResult :=
  match gateway.getJson env cveUrl params answers with
  | .error error => .error (.disallowed error)
  | .ok (_, .error error) => .error (.provider error)
  | .ok (_, .ok response) => (result response.payload).mapError .payload

def byCpe (gateway : OutboundGateway) (env : OutboundEnv) (answers : ℕ → ProviderAnswer)
    (cpeName : String) : Except NvdError NvdResult :=
  query gateway env [("cpeName", cpeName), ("resultsPerPage", toString maxResultsPerPage)] answers
    cpeResult

def byKeyword (gateway : OutboundGateway) (env : OutboundEnv) (answers : ℕ → ProviderAnswer)
    (product : String) : Except NvdError NvdResult :=
  query gateway env
    [("keywordSearch", product), ("resultsPerPage", toString maxResultsPerPage)] answers
    (keywordResult product)

/-! ### What is kept -/

/-- The CVE of an item, or an empty one. -/
def cveOf (item : Json) : Json := orElse ((item.field "cve").getD .null) (.object [])

/-- An item that has an id and is not rejected. -/
def kept (item : Json) : Bool :=
  truthyValue (((cveOf item).field "id").getD .null) &&
    decide ((cveOf item).field "vulnStatus" ≠ some (.str "Rejected"))

def IsRecord (item : Json) (record : CveRecord) : Prop :=
  record.cveId = ((cveOf item).field "id").getD .null ∧
    record.vulnStatus = ((cveOf item).field "vulnStatus").getD .null

/-- An item is an object, and its CVE is one if there is one. -/
def IsItem (item : Json) : Prop := ∃ fields cve, item = .obj fields ∧ cveOf item = .obj cve

/-- An answer with these items, under `vulnerabilities`. -/
structure IsAnswer (payload : Json) (items : List Json) : Prop where
  vulnerabilities : payload.field "vulnerabilities" = some (.array items)
  items : ∀ item ∈ items, IsItem item

theorem parseItem_eq {item : Json} (h : IsItem item) :
    parseItem item = if kept item = true then
      (recordOf (cveOf item) (((cveOf item).field "id").getD .null)).map some else .ok none := by
  obtain ⟨fields, cve, rfl, hcve⟩ := h
  have helse : orElse (((Json.obj fields).field "cve").getD .null) (.object []) = .obj cve := hcve
  have hrejected : ((Json.obj cve).field "vulnStatus").getD .null = .str "Rejected" ↔
      (Json.obj cve).field "vulnStatus" = some (.str "Rejected") := by
    cases (Json.obj cve).field "vulnStatus" with
    | none => exact iff_of_false nofun nofun
    | some status => exact Option.some_inj.symm
  unfold parseItem kept
  rw [getField_obj, hcve]
  dsimp only [bind, Except.bind, pure, Except.pure]
  rw [helse, getField_obj]
  dsimp only
  by_cases hid : truthyValue (((Json.obj cve).field "id").getD .null) = true
  · rw [if_pos hid, getField_obj, hid, Bool.true_and]
    dsimp only
    by_cases hstatus : (Json.obj cve).field "vulnStatus" = some (.str "Rejected")
    · rw [if_pos (hrejected.mpr hstatus), if_neg (by simpa using hstatus)]
    · rw [if_neg (mt hrejected.mp hstatus), if_pos (decide_eq_true hstatus)]
      cases recordOf (.obj cve) (((Json.obj cve).field "id").getD .null) <;> rfl
  · rw [if_neg hid, eq_false_of_ne_true hid, Bool.false_and]
    rfl

theorem recordOf_eq_ok {cve : JsonFields} {cveId : Json} {record : CveRecord}
    (h : recordOf (.obj cve) cveId = .ok record) :
    record.cveId = cveId ∧
      record.vulnStatus = ((Json.obj cve).field "vulnStatus").getD .null := by
  obtain ⟨value, -, h⟩ := Raising.bind_eq_ok.mp h
  obtain ⟨descriptions, -, h⟩ := Raising.bind_eq_ok.mp h
  obtain ⟨description, -, h⟩ := Raising.bind_eq_ok.mp h
  obtain ⟨metrics, -, h⟩ := Raising.bind_eq_ok.mp h
  obtain ⟨⟨score, severity, version⟩, -, h⟩ := Raising.bind_eq_ok.mp h
  obtain ⟨vulnStatus, hstatus, h⟩ := Raising.bind_eq_ok.mp h
  obtain ⟨configurations, -, h⟩ := Raising.bind_eq_ok.mp h
  cases h
  exact ⟨rfl, (Except.ok.inj hstatus).symm⟩

/-- The records are of the items that are kept, in their order. -/
theorem parseItems_records {items : List Json} (hitems : ∀ item ∈ items, IsItem item) :
    ∀ {records records' : List CveRecord}, parseItems records items = .ok records' →
      ∃ new, records' = records ++ new ∧ List.Forall₂ IsRecord (items.filter kept) new := by
  induction items with
  | nil =>
    intro records records' h
    cases h
    exact ⟨[], (List.append_nil _).symm, .nil⟩
  | cons item items ih =>
    intro records records' h
    obtain ⟨hitem, hrest⟩ := List.forall_mem_cons.mp hitems
    obtain ⟨parsed, hparsed, h⟩ := Raising.bind_eq_ok.mp h
    rw [parseItem_eq hitem] at hparsed
    by_cases hkept : kept item = true
    · rw [if_pos hkept] at hparsed
      cases hrecord : recordOf (cveOf item) (((cveOf item).field "id").getD .null) with
      | error error =>
        rw [hrecord] at hparsed
        cases hparsed
      | ok record =>
        rw [hrecord] at hparsed
        cases hparsed
        obtain ⟨new, rfl, hnew⟩ := ih hrest h
        refine ⟨record :: new, by simp, ?_⟩
        rw [List.filter_cons_of_pos hkept]
        refine .cons ?_ hnew
        obtain ⟨-, cve, -, hcve⟩ := hitem
        unfold IsRecord
        rw [hcve] at hrecord ⊢
        exact recordOf_eq_ok hrecord
    · rw [if_neg hkept] at hparsed
      cases hparsed
      rw [List.filter_cons_of_neg hkept]
      exact ih hrest h

/-- Items of which none is kept are parsed without an error. -/
theorem parseItems_none {records : List CveRecord} : ∀ {items : List Json},
    (∀ item ∈ items, IsItem item) → (∀ item ∈ items, ¬ kept item = true) →
    parseItems records items = .ok records
  | [], _, _ => rfl
  | item :: items, hitems, hnone => by
    obtain ⟨hitem, hrest⟩ := List.forall_mem_cons.mp hitems
    obtain ⟨hdropped, hnone⟩ := List.forall_mem_cons.mp hnone
    have hparsed : parseItem item = .ok none := by rw [parseItem_eq hitem, if_neg hdropped]
    unfold parseItems
    rw [hparsed]
    exact parseItems_none hrest hnone

/-! ### Results -/

/-- An empty result carries a note, and the records are those of the items that are
kept, one for each and in their order. -/
structure CaveatSpec (items : List Json) (result : NvdResult) : Prop where
  caveat : result.records = [] → result.notes ≠ []
  records : List.Forall₂ IsRecord (items.filter kept) result.records
  kept : ∀ record ∈ result.records,
    truthyValue record.cveId = true ∧ record.vulnStatus ≠ .str "Rejected"

theorem cpeResult_eq_ok_iff {payload : Json} {items : List Json} (h : IsAnswer payload items)
    {result : NvdResult} : cpeResult payload = .ok result ↔
      ∃ records total, parseItems [] items = .ok records ∧
        intOf ((payload.field "totalResults").getD (.int records.length)) = .ok total ∧
        result = ⟨records, total, "cpe", if total = 0 then [cpeCaveat] else []⟩ := by
  obtain ⟨fields, rfl⟩ : ∃ fields, payload = .obj fields := by
    cases payload with
    | obj fields => exact ⟨fields, rfl⟩
    | _ => cases h.vulnerabilities
  unfold cpeResult parseCvePayload
  rw [getField_obj, h.vulnerabilities]
  dsimp only [Option.getD_some, bind, Except.bind]
  rw [iterate_array]
  dsimp only
  cases parseItems [] items with
  | error error =>
    refine iff_of_false nofun ?_
    rintro ⟨records, total, hrecords, -⟩
    cases hrecords
  | ok records =>
    dsimp only
    rw [getField_obj]
    dsimp only
    cases htotal : intOf (((Json.obj fields).field "totalResults").getD (.int records.length)) with
    | error error =>
      refine iff_of_false nofun ?_
      rintro ⟨records', total, hrecords, htotal', -⟩
      cases hrecords
      rw [htotal] at htotal'
      cases htotal'
    | ok total =>
      constructor
      · intro hresult
        cases hresult
        exact ⟨records, total, rfl, htotal, rfl⟩
      · rintro ⟨records', total', hrecords, htotal', rfl⟩
        cases hrecords
        rw [htotal] at htotal'
        cases htotal'
        rfl

/-- The record of an item that is kept has an id and is not rejected. -/
theorem IsRecord.kept {item : Json} {record : CveRecord} (h : IsRecord item record)
    (hkept : Nvd.kept item = true) :
    truthyValue record.cveId = true ∧ record.vulnStatus ≠ .str "Rejected" := by
  obtain ⟨hid, hstatus⟩ := h
  obtain ⟨htruthy, hnot⟩ := Bool.and_eq_true_iff.mp hkept
  rw [hid, hstatus]
  refine ⟨htruthy, fun hrejected => of_decide_eq_true hnot ?_⟩
  cases hfield : (cveOf item).field "vulnStatus" with
  | none =>
    rw [hfield] at hrejected
    cases hrejected
  | some status =>
    rw [hfield] at hrejected
    exact congrArg some hrejected

theorem forall_kept {items : List Json} {records : List CveRecord}
    (h : List.Forall₂ IsRecord items records) (hkept : ∀ item ∈ items, kept item = true) :
    ∀ record ∈ records,
      truthyValue record.cveId = true ∧ record.vulnStatus ≠ .str "Rejected" := by
  induction h with
  | nil => exact nofun
  | cons hrecord _ ih =>
    obtain ⟨hitem, hrest⟩ := List.forall_mem_cons.mp hkept
    exact List.forall_mem_cons.mpr ⟨hrecord.kept hitem, ih hrest⟩

/-- The records of a result do not depend on the total. -/
theorem CaveatSpec.of_records {items : List Json} (hitems : ∀ item ∈ items, IsItem item)
    {result : NvdResult} (hrecords : parseItems [] items = .ok result.records)
    (hcaveat : result.records = [] → result.notes ≠ []) : CaveatSpec items result := by
  obtain ⟨new, hnew, hall⟩ := parseItems_records hitems hrecords
  rw [List.nil_append] at hnew
  subst hnew
  exact ⟨hcaveat, hall, forall_kept hall fun item hitem => (List.mem_filter.mp hitem).2⟩

theorem byCpe_eq_ok_iff {gateway : OutboundGateway} {env : OutboundEnv}
    {answers : ℕ → ProviderAnswer} {cpeName : String} {events : List OutboundEvent}
    {response : ProviderResponse} (hanswer : gateway.getJson env cveUrl
      [("cpeName", cpeName), ("resultsPerPage", toString maxResultsPerPage)] answers =
        .ok (events, .ok response)) {result : NvdResult} :
    byCpe gateway env answers cpeName = .ok result ↔ cpeResult response.payload = .ok result := by
  unfold byCpe query
  rw [hanswer]
  dsimp only
  cases cpeResult response.payload with
  | error error => exact iff_of_false nofun nofun
  | ok result' =>
    exact ⟨fun h => congrArg _ (Except.ok.inj h), fun h => congrArg _ (Except.ok.inj h)⟩

/-- An answer to a query by CPE keeps its caveat exactly if an item of it is kept, or
its total is absent, zero or no number: the caveat goes by the total, and items that
were dropped count in it. -/
theorem caveat_iff (gateway : OutboundGateway) (env : OutboundEnv)
    (answers : ℕ → ProviderAnswer) (cpeName : String) {events : List OutboundEvent}
    {response : ProviderResponse} {items : List Json} (hanswer : gateway.getJson env cveUrl
      [("cpeName", cpeName), ("resultsPerPage", toString maxResultsPerPage)] answers =
        .ok (events, .ok response)) (hpayload : IsAnswer response.payload items) :
    (∀ result, byCpe gateway env answers cpeName = .ok result → CaveatSpec items result) ↔
      (∃ item ∈ items, kept item = true) ∨
        ∀ value total, response.payload.field "totalResults" = some value →
          intOf value = .ok total → total = 0 := by
  simp only [byCpe_eq_ok_iff hanswer, cpeResult_eq_ok_iff hpayload]
  constructor
  · intro h
    refine or_iff_not_imp_left.mpr fun hnone value total hvalue htotal => ?_
    by_contra hne
    have hdropped : ∀ item ∈ items, ¬ kept item = true := fun item hitem hkept =>
      hnone ⟨item, hitem, hkept⟩
    have hspec := h ⟨[], total, "cpe", []⟩ ⟨[], total, parseItems_none hpayload.items hdropped,
      by rw [hvalue]; exact htotal, by rw [if_neg hne]⟩
    exact hspec.caveat rfl rfl
  · rintro h result ⟨records, total, hrecords, htotal, rfl⟩
    refine CaveatSpec.of_records hpayload.items hrecords fun hempty => ?_
    dsimp only at hempty ⊢
    subst hempty
    obtain ⟨new, hnew, hall⟩ := parseItems_records hpayload.items hrecords
    rw [List.nil_append] at hnew
    subst hnew
    have hzero : total = 0 := by
      rcases h with ⟨item, hitem, hkept⟩ | htotals
      · have hmem : item ∈ items.filter kept := List.mem_filter.mpr ⟨hitem, hkept⟩
        rw [List.forall₂_nil_right_iff.mp hall] at hmem
        cases hmem
      · cases hvalue : response.payload.field "totalResults" with
        | none =>
          rw [hvalue] at htotal
          exact (Except.ok.inj htotal).symm
        | some value =>
          rw [hvalue] at htotal
          exact htotals value total hvalue htotal
    rw [if_pos hzero]
    exact List.cons_ne_nil _ _

def noMatch : Json := .object [("vulnerabilities", .array []), ("totalResults", .int 0)]

theorem caveat_iff_noMatch :
    (∀ result, byCpe nvdGateway nvdEnv (fun _ => .response 200 (.ok noMatch) none)
        "cpe:2.3:a:f5:nginx:1.24.0:*:*:*:*:*:*:*" = .ok result → CaveatSpec [] result) ↔
      (∃ item ∈ ([] : List Json), kept item = true) ∨
        ∀ value total, noMatch.field "totalResults" = some value →
          intOf value = .ok total → total = 0 :=
  caveat_iff nvdGateway nvdEnv (fun _ => .response 200 (.ok noMatch) none)
    "cpe:2.3:a:f5:nginx:1.24.0:*:*:*:*:*:*:*" rfl ⟨rfl, nofun⟩

def rejectedItem : Json := .object
  [("cve", .object [("id", .str "CVE-2024-0001"), ("vulnStatus", .str "Rejected")])]

/-- One CVE, which is rejected, and the total that counts it. -/
def rejectedPayload : Json := .object
  [("vulnerabilities", .array [rejectedItem]), ("totalResults", .int 1)]

theorem caveat_rejected : IsAnswer rejectedPayload [rejectedItem] ∧
    ¬ ∀ result, byCpe nvdGateway nvdEnv (fun _ => .response 200 (.ok rejectedPayload) none)
      "cpe:2.3:a:f5:nginx:1.24.0:*:*:*:*:*:*:*" = .ok result →
        CaveatSpec [rejectedItem] result := by
  constructor
  · refine ⟨rfl, fun item hitem => ?_⟩
    rw [List.mem_singleton.mp hitem]
    exact ⟨_, _, rfl, rfl⟩
  · intro h
    exact (h ⟨[], 1, "cpe", []⟩ rfl).caveat rfl rfl

end Nvd
end ScanLedger
