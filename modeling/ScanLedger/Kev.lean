/-
# The catalog of known exploited vulnerabilities

`app/services/providers/kev.py`: the feed is parsed into a catalog with one entry
for an identifier, in capitals, and a catalog is written as a smaller feed for the
cache. What it is written as is parsed as the same catalog, and an identifier has
the entry of the last item with it (`catalog_roundTrip`).

Key definitions: `CaseTables`, `upper`, `parseCatalog`, `serializeCatalog`,
`KevCatalog.get`.
Key theorems: `upper_eq_empty_iff`, `pairOf_serializeEntry`, `catalog_roundTrip`.
-/
import ScanLedger.Characters
import ScanLedger.Lib.Dict
import ScanLedger.Payloads

namespace ScanLedger

/-! ### Capitals -/

/-- The tables of characters with `str.upper`, which takes each character for one
or more, whatever stands beside it. -/
structure CaseTables extends CharTables where
  upperChar : Char → List Char
  upperChar_ne_nil : ∀ c, upperChar c ≠ []

namespace Kev

variable (u : CaseTables)

/-- `str.upper`. -/
def upper (s : String) : String := String.ofList (s.toList.flatMap u.upperChar)

/-- `str.lower`. -/
def lower (s : String) : String := String.ofList (u.lower s.toList)

theorem upper_eq_empty_iff (s : String) : upper u s = "" ↔ s = "" := by
  have hlist : upper u s = "" ↔ s.toList.flatMap u.upperChar = [] := by
    rw [← String.toList_inj]
    unfold upper
    rw [String.toList_ofList]
    rfl
  rw [hlist, List.flatMap_eq_nil_iff, ← String.toList_inj]
  constructor
  · intro h
    cases hs : s.toList with
    | nil => rfl
    | cons c cs => exact absurd (h c (hs ▸ List.mem_cons_self)) (u.upperChar_ne_nil c)
  · intro h c hc
    rw [h] at hc
    cases hc

/-! ### The catalog -/

structure KevEntry where
  cveId : String
  vendorProject : String
  product : String
  vulnerabilityName : String
  dateAdded : String
  dueDate : String
  knownRansomwareUse : Bool
  requiredAction : String
  deriving DecidableEq, Repr

structure KevCatalog where
  version : String
  released : String
  entries : Dict String KevEntry

namespace KevCatalog

def get (catalog : KevCatalog) (cveId : String) : Option KevEntry :=
  catalog.entries.get (upper u cveId)

def count (catalog : KevCatalog) : ℕ := catalog.entries.items.length

end KevCatalog

/-- `str(value.get(name, default))`. -/
def textField (value : Json) (name default : String) : Except PayloadError String :=
  (getField value name (.str default)).map strOf

/-- The entry of an item, if it has an identifier. -/
def parseEntry (item : Json) : Except PayloadError (Option KevEntry) := do
  let cveId := upper u (← textField item "cveID" "")
  if cveId = "" then return none
  else
    let vendorProject ← textField item "vendorProject" ""
    let product ← textField item "product" ""
    let vulnerabilityName ← textField item "vulnerabilityName" ""
    let dateAdded ← textField item "dateAdded" ""
    let dueDate ← textField item "dueDate" ""
    let ransomwareUse ← textField item "knownRansomwareCampaignUse" ""
    let requiredAction ← textField item "requiredAction" ""
    return some ⟨cveId, vendorProject, product, vulnerabilityName, dateAdded, dueDate,
      decide (lower u ransomwareUse = "known"), requiredAction⟩

/-- The loop, with the entries so far. -/
def parseEntries : Dict String KevEntry → List Json → Except PayloadError (Dict String KevEntry)
  | entries, [] => .ok entries
  | entries, item :: items => do
    match ← parseEntry u item with
    | none => parseEntries entries items
    | some entry => parseEntries (entries.set entry.cveId entry) items

def parseCatalog (payload : Json) : Except PayloadError KevCatalog := do
  let items ← iterate (← getField payload "vulnerabilities" (.array []))
  let entries ← parseEntries u Dict.empty items
  let version ← textField payload "catalogVersion" "unknown"
  let released ← textField payload "dateReleased" ""
  return ⟨version, released, entries⟩

def serializeEntry (entry : KevEntry) : Json := .object
  [("cveID", .str entry.cveId),
    ("vendorProject", .str entry.vendorProject),
    ("product", .str entry.product),
    ("vulnerabilityName", .str entry.vulnerabilityName),
    ("dateAdded", .str entry.dateAdded),
    ("dueDate", .str entry.dueDate),
    ("knownRansomwareCampaignUse", .str (if entry.knownRansomwareUse then "Known" else "Unknown")),
    ("requiredAction", .str entry.requiredAction)]

def serializeCatalog (catalog : KevCatalog) : Json := .object
  [("catalogVersion", .str catalog.version),
    ("dateReleased", .str catalog.released),
    ("vulnerabilities", .array (catalog.entries.values.map serializeEntry))]

/-! ### Feeds -/

/-- The text of a field, or the empty text where the field is absent. -/
def fieldText (item : Json) (name : String) : String :=
  match item.field name with
  | some (.str s) => s
  | _ => ""

/-- The fields of an item that are read. -/
def itemFields : List String :=
  ["cveID", "vendorProject", "product", "vulnerabilityName", "dateAdded", "dueDate",
    "knownRansomwareCampaignUse", "requiredAction"]

/-- An object whose fields are texts or absent. -/
def IsItem (item : Json) : Prop :=
  ∃ fields, item = .obj fields ∧
    ∀ name ∈ itemFields, item.field name = none ∨ ∃ s, item.field name = some (.str s)

/-- An object with these items under `vulnerabilities`. -/
structure IsFeed (payload : Json) (items : List Json) : Prop where
  object : ∃ fields, payload = .obj fields
  vulnerabilities : payload.field "vulnerabilities" = some (.array items) ∨
    (payload.field "vulnerabilities" = none ∧ items = [])
  items : ∀ item ∈ items, IsItem item

/-- What an item says. -/
def entryOf (item : Json) : KevEntry where
  cveId := upper u (fieldText item "cveID")
  vendorProject := fieldText item "vendorProject"
  product := fieldText item "product"
  vulnerabilityName := fieldText item "vulnerabilityName"
  dateAdded := fieldText item "dateAdded"
  dueDate := fieldText item "dueDate"
  knownRansomwareUse := decide (lower u (fieldText item "knownRansomwareCampaignUse") = "known")
  requiredAction := fieldText item "requiredAction"

/-- The item has this identifier, up to case. -/
def Identifies (item : Json) (cveId : String) : Prop :=
  fieldText item "cveID" ≠ "" ∧ upper u (fieldText item "cveID") = upper u cveId

/-- The item under its identifier, if it has one. -/
def pairOf (item : Json) : Option (String × KevEntry) :=
  if fieldText item "cveID" = "" then none
  else some (upper u (fieldText item "cveID"), entryOf u item)

/-! ### Parsing -/

theorem textField_item {item : Json} (h : IsItem item) {name : String} (hname : name ∈ itemFields) :
    textField item name "" = .ok (fieldText item name) := by
  obtain ⟨fields, rfl, htexts⟩ := h
  unfold textField fieldText
  rw [getField_obj]
  rcases htexts name hname with hnone | ⟨s, hsome⟩
  · rw [hnone]
    rfl
  · rw [hsome]
    rfl

theorem parseEntry_eq {item : Json} (h : IsItem item) :
    parseEntry u item =
      .ok (if fieldText item "cveID" = "" then none else some (entryOf u item)) := by
  unfold parseEntry
  dsimp only [bind, Except.bind, pure, Except.pure]
  rw [textField_item h (by decide : "cveID" ∈ itemFields)]
  dsimp only
  by_cases hid : fieldText item "cveID" = ""
  · rw [if_pos ((upper_eq_empty_iff u _).mpr hid), if_pos hid]
  · rw [if_neg (mt (upper_eq_empty_iff u _).mp hid), if_neg hid]
    rw [textField_item h (by decide), textField_item h (by decide), textField_item h (by decide),
      textField_item h (by decide), textField_item h (by decide), textField_item h (by decide),
      textField_item h (by decide)]
    rfl

theorem parseEntries_eq : ∀ {items : List Json} {entries : Dict String KevEntry},
    (∀ item ∈ items, IsItem item) → parseEntries u entries items =
      .ok ((items.filterMap (pairOf u)).foldl (fun d p => d.set p.1 p.2) entries)
  | [], _, _ => rfl
  | item :: items, entries, hitems => by
    obtain ⟨hitem, hrest⟩ := List.forall_mem_cons.mp hitems
    unfold parseEntries
    rw [parseEntry_eq u hitem]
    dsimp only [bind, Except.bind]
    by_cases hid : fieldText item "cveID" = ""
    · have hpair : pairOf u item = none := if_pos hid
      rw [if_pos hid, List.filterMap_cons_none hpair]
      exact parseEntries_eq hrest
    · have hpair : pairOf u item =
          some (upper u (fieldText item "cveID"), entryOf u item) := if_neg hid
      rw [if_neg hid, List.filterMap_cons_some hpair]
      exact parseEntries_eq hrest

theorem parseCatalog_eq {payload : Json} {items : List Json} (h : IsFeed payload items) :
    parseCatalog u payload = .ok
      ⟨strOf ((payload.field "catalogVersion").getD (.str "unknown")),
        strOf ((payload.field "dateReleased").getD (.str "")),
        Dict.ofItems (items.filterMap (pairOf u))⟩ := by
  obtain ⟨fields, rfl⟩ := h.object
  have hlist : ((Json.obj fields).field "vulnerabilities").getD (.array []) = .array items := by
    rcases h.vulnerabilities with hitems | ⟨hnone, rfl⟩
    · rw [hitems]
      rfl
    · rw [hnone]
      rfl
  unfold parseCatalog textField
  rw [getField_obj, hlist]
  dsimp only [bind, Except.bind, pure, Except.pure]
  rw [iterate_array]
  dsimp only
  rw [parseEntries_eq u h.items]
  dsimp only
  rw [getField_obj, getField_obj]
  rfl

/-! ### The round trip -/

theorem lower_ransomwareUse (known : Bool) :
    decide (lower u (if known then "Known" else "Unknown") = "known") = known := by
  have hknown : u.lower "Known".toList = "known".toList := by
    rw [u.lower_ascii _ (by simp)]
    decide
  have hunknown : u.lower "Unknown".toList = "unknown".toList := by
    rw [u.lower_ascii _ (by simp)]
    decide
  unfold lower
  cases known with
  | false =>
    rw [if_neg Bool.false_ne_true, hunknown, String.ofList_toList]
    exact decide_eq_false (by decide)
  | true =>
    rw [if_pos rfl, hknown, String.ofList_toList]
    exact decide_eq_true rfl

theorem isItem_serializeEntry (entry : KevEntry) : IsItem (serializeEntry entry) := by
  refine ⟨_, rfl, fun name hname => .inr ?_⟩
  simp only [itemFields, List.mem_cons, List.not_mem_nil, or_false] at hname
  rcases hname with rfl | rfl | rfl | rfl | rfl | rfl | rfl | rfl <;> exact ⟨_, rfl⟩

/-- An entry in capitals is written as an item that says it. -/
theorem pairOf_serializeEntry {entry : KevEntry} (hid : entry.cveId ≠ "")
    (hupper : upper u entry.cveId = entry.cveId) :
    pairOf u (serializeEntry entry) = some (entry.cveId, entry) := by
  have hfield : fieldText (serializeEntry entry) "cveID" = entry.cveId := rfl
  have hentry : entryOf u (serializeEntry entry) = entry := by
    obtain ⟨cveId, vendorProject, product, vulnerabilityName, dateAdded, dueDate, known,
      requiredAction⟩ := entry
    exact (KevEntry.mk.injEq ..).mpr
      ⟨hupper, rfl, rfl, rfl, rfl, rfl, lower_ransomwareUse u known, rfl⟩
  unfold pairOf
  rw [hfield, if_neg hid, hupper, hentry]

theorem isFeed_serializeCatalog (catalog : KevCatalog) :
    IsFeed (serializeCatalog catalog) (catalog.entries.values.map serializeEntry) where
  object := ⟨_, rfl⟩
  vulnerabilities := .inl rfl
  items := by
    intro item hitem
    obtain ⟨entry, -, rfl⟩ := List.mem_map.mp hitem
    exact isItem_serializeEntry entry

/-- An entry of a parsed catalog stands under its identifier, which is not empty and
in capitals. -/
theorem mem_entries {items : List Json} (hidem : ∀ s, upper u (upper u s) = upper u s)
    {p : String × KevEntry} (h : p ∈ (Dict.ofItems (items.filterMap (pairOf u))).items) :
    p.1 = p.2.cveId ∧ p.2.cveId ≠ "" ∧ upper u p.2.cveId = p.2.cveId := by
  obtain ⟨item, -, hpair⟩ := List.mem_filterMap.mp (Dict.mem_ofItems h)
  unfold pairOf at hpair
  split_ifs at hpair with hid
  rw [← Option.some.inj hpair]
  exact ⟨rfl, mt (upper_eq_empty_iff u _).mp hid, hidem _⟩

/-- The items that a parsed catalog is written as stand for its entries, in order. -/
theorem pairs_serialized {entries : Dict String KevEntry} (h : ∀ p ∈ entries.items,
    p.1 = p.2.cveId ∧ p.2.cveId ≠ "" ∧ upper u p.2.cveId = p.2.cveId) :
    (entries.values.map serializeEntry).filterMap (pairOf u) = entries.items := by
  unfold Dict.values
  rw [List.map_map, List.filterMap_map]
  have hpair : ∀ p ∈ entries.items, (pairOf u ∘ serializeEntry ∘ Prod.snd) p = some p := by
    rintro ⟨cveId, entry⟩ hp
    obtain ⟨hkey, hid, hupper⟩ := h _ hp
    dsimp only at hkey hid hupper
    rw [hkey]
    exact pairOf_serializeEntry u hid hupper
  rw [List.filterMap_congr hpair, List.filterMap_some]

theorem pairOf_eq_some_iff {item : Json} {cveId : String} {entry : KevEntry} :
    pairOf u item = some (upper u cveId, entry) ↔
      Identifies u item cveId ∧ entry = entryOf u item := by
  unfold pairOf Identifies
  split_ifs with hid
  · exact iff_of_false nofun fun h => h.1.1 hid
  · constructor
    · intro h
      obtain ⟨hkey, hentry⟩ := Prod.mk.inj (Option.some.inj h)
      exact ⟨⟨hid, hkey⟩, hentry.symm⟩
    · rintro ⟨⟨-, hkey⟩, rfl⟩
      rw [hkey]

/-- A feed is parsed, the catalog is what its written form is parsed as, and an
identifier has the entry of the last item that has it. -/
theorem catalog_roundTrip (hidem : ∀ s, upper u (upper u s) = upper u s) {payload : Json}
    {items : List Json} (h : IsFeed payload items) :
    ∃ catalog, parseCatalog u payload = .ok catalog ∧
      parseCatalog u (serializeCatalog catalog) = .ok catalog ∧
      ∀ cveId entry, catalog.get u cveId = some entry ↔
        ∃ before item after, items = before ++ item :: after ∧ Identifies u item cveId ∧
          (∀ later ∈ after, ¬ Identifies u later cveId) ∧ entry = entryOf u item := by
  refine ⟨_, parseCatalog_eq u h, ?_, fun cveId entry => ?_⟩
  · rw [parseCatalog_eq u (isFeed_serializeCatalog _),
      pairs_serialized u fun p hp => mem_entries u hidem hp, Dict.ofItems_items]
    rfl
  · unfold KevCatalog.get
    rw [Dict.get_ofItems_filterMap]
    have hother : ∀ later : Json, (∀ p, pairOf u later = some p → p.1 ≠ upper u cveId) ↔
        ¬ Identifies u later cveId := by
      intro later
      refine ⟨fun hne hidentifies => ?_, ?_⟩
      · exact hne _ ((pairOf_eq_some_iff u).mpr ⟨hidentifies, rfl⟩) rfl
      · rintro hnot ⟨key, entry'⟩ hpair hkey
        dsimp only at hkey
        rw [hkey] at hpair
        exact hnot ((pairOf_eq_some_iff u).mp hpair).1
    simp only [pairOf_eq_some_iff, hother]
    refine exists_congr fun before => exists_congr fun item => exists_congr fun after => ?_
    refine and_congr_right fun _ => ?_
    exact ⟨fun ⟨⟨hid, hentry⟩, hafter⟩ => ⟨hid, hafter, hentry⟩,
      fun ⟨hid, hafter, hentry⟩ => ⟨⟨hid, hentry⟩, hafter⟩⟩

/-- Capitals of a text that is all ASCII. -/
def asciiCase : CaseTables where
  toCharTables := asciiTables
  upperChar c := [c.toUpper]
  upperChar_ne_nil _ := List.cons_ne_nil _ _

/-- Two items with one identifier in two cases, and one without. -/
def smallFeed : List Json :=
  [.object [("cveID", .str "cve-2024-1"), ("product", .str "old")], .object [],
    .object [("cveID", .str "CVE-2024-1"), ("product", .str "new")]]

theorem toUpper_toUpper (c : Char) : c.toUpper.toUpper = c.toUpper := by
  have hsame : ∀ c : Char, ¬ (c.val ≥ 'a'.val ∧ c.val ≤ 'z'.val) → c.toUpper = c := fun c h => by
    unfold Char.toUpper
    rw [dif_neg h]
  by_cases h : c.val ≥ 'a'.val ∧ c.val ≤ 'z'.val
  · refine hsame _ fun hlower => ?_
    -- a capital comes before every small letter
    have hval : c.toUpper.val = c.val + ('A'.val - 'a'.val) := by
      unfold Char.toUpper
      rw [dif_pos h]
    have hfirst : 97 ≤ c.val.toNat := UInt32.le_iff_toNat_le.mp h.1
    have hlast : c.val.toNat ≤ 122 := UInt32.le_iff_toNat_le.mp h.2
    have hupper : 97 ≤ c.toUpper.val.toNat := UInt32.le_iff_toNat_le.mp hlower.1
    have hcase : ('A'.val - 'a'.val).toNat = 4294967264 := by decide
    rw [hval, UInt32.toNat_add, hcase] at hupper
    omega
  · rw [hsame c h]
    exact hsame c h

theorem upper_asciiCase (s : String) :
    upper asciiCase (upper asciiCase s) = upper asciiCase s := by
  have hsingle : ∀ cs : List Char, cs.flatMap asciiCase.upperChar = cs.map Char.toUpper := fun cs =>
    (List.map_eq_flatMap ..).symm
  unfold upper
  rw [String.toList_ofList, hsingle, hsingle, List.map_map]
  exact congrArg String.ofList (List.map_congr_left fun c _ => toUpper_toUpper c)

theorem catalog_roundTrip_smallFeed : ∃ catalog,
    parseCatalog asciiCase (.object [("vulnerabilities", .array smallFeed)]) = .ok catalog ∧
      parseCatalog asciiCase (serializeCatalog catalog) = .ok catalog ∧
      ∀ cveId entry, catalog.get asciiCase cveId = some entry ↔
        ∃ before item after, smallFeed = before ++ item :: after ∧
          Identifies asciiCase item cveId ∧
          (∀ later ∈ after, ¬ Identifies asciiCase later cveId) ∧
          entry = entryOf asciiCase item := by
  refine catalog_roundTrip asciiCase upper_asciiCase ⟨⟨_, rfl⟩, .inl rfl, fun item hitem => ?_⟩
  simp only [smallFeed, List.mem_cons, List.not_mem_nil, or_false] at hitem
  rcases hitem with rfl | rfl | rfl <;>
    exact ⟨_, rfl, by simp [itemFields]⟩

end Kev
end ScanLedger
