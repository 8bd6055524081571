/-
# Provenance of the scope

The exports of a scan read the row of its scope as it is now. No request that is
accepted takes that row away or hides it, and one that rewrites it shows in the
exports: they report the scope under which the target was validated, in every
state of a run of accepted requests, if and only if no update changes it.

Key definitions: `acceptedStep`, `Reports`, `Provenance`, `KeepsScope`, `Recorded`.
Key theorems: `reports_iff`, `recorded_step`, `provenance_iff`.
-/
import ScanLedger.Constraints
import ScanLedger.Reports

namespace ScanLedger

open Run Table

/-! ### The property, and its condition -/

/-- A request that is accepted. -/
def acceptedStep (registry : ModuleRegistry) (db : Db) (a : WriteRequest × CallEnv) : Option Db :=
  match handleRequest registry a.2 db a.1 with
  | (.ok _, db') => some db'
  | (.error _, _) => none

/-- The field of the JSON export's scope. -/
def reportedScope (sha256 : String → String) (now : ℚ) (inputs : ExportInputs) (name : String) :
    Option Json :=
  ((buildJsonExport sha256 now inputs).field "scope").bind (·.field name)

/-- Both exports report this scope. -/
structure Reports (scope : ScopeProfile) (inputs : ExportInputs) : Prop where
  name : ∀ sha256 now, reportedScope sha256 now inputs "name" = some (.str scope.name)
  entries : ∀ sha256 now, reportedScope sha256 now inputs "entries" = some (.strs scope.entries)
  allowCgnat : ∀ sha256 now,
    reportedScope sha256 now inputs "allow_cgnat" = some (.bool scope.allowCgnat)
  allowLinkLocal : ∀ sha256 now,
    reportedScope sha256 now inputs "allow_link_local" = some (.bool scope.allowLinkLocal)
  markdown : ∀ now full,
    (markdownLines now inputs full)[8]? = some (scopeLine scope.name scope.entries)

/-- The scan can be exported, and the exports report the scope. -/
def Provenance (scanId : ℕ) (scope : ScopeProfile) (db : Db) : Prop :=
  ∃ inputs, loadExportInputs db scanId = .ok inputs ∧ Reports scope inputs

/-- What `create` is given for the row. -/
def ScopeProfileRow.payload (row : ScopeProfileRow) : ScopeCreate :=
  ⟨row.name, row.entries, row.allowCgnat, row.allowLinkLocal⟩

/-- An update of the scan's scope leaves it as it is. -/
def KeepsScope (scanId : ℕ) (db : Db) : WriteRequest × CallEnv → Prop
  | (.updateScope scopeId payload, _) => ∀ scan ∈ db.getScan scanId, scan.scopeId = scopeId →
      ∀ row ∈ db.getScope scopeId, payload = row.payload
  | (.createScope _, _) | (.deleteScope _, _) | (.createScan _, _) => True

/-! ### The invariant -/

def ScopeProfile.payload (scope : ScopeProfile) : ScopeCreate :=
  ⟨scope.name, scope.entries, scope.allowCgnat, scope.allowLinkLocal⟩

/-- The scan is there, with a scope that reads like this. -/
structure Recorded (scanId : ℕ) (payload : ScopeCreate) (db : Db) : Prop where
  keyed : db.Keyed
  row : ∃ scan ∈ db.scans, scan.id = scanId ∧
    ∃ row ∈ db.scopes, row.id = scan.scopeId ∧ row.payload = payload

section

variable {registry : ModuleRegistry} {db db' : Db} {scanId : ℕ} {scope : ScopeProfile}
  {a : WriteRequest × CallEnv}

theorem reportedScope_eq (sha256 : String → String) (now : ℚ) (inputs : ExportInputs)
    (name : String) :
    reportedScope sha256 now inputs name = (jsonScope inputs.scope).field name := by
  unfold reportedScope
  rw [buildJsonExport_scope, Option.bind_some]

theorem reports_iff {inputs : ExportInputs} :
    Reports scope inputs ↔ inputs.scope.payload = scope.payload := by
  constructor
  · intro h
    have hname := h.name id 0
    have hentries := h.entries id 0
    have hcgnat := h.allowCgnat id 0
    have hlinkLocal := h.allowLinkLocal id 0
    rw [reportedScope_eq] at hname hentries hcgnat hlinkLocal
    unfold jsonScope at hname hentries hcgnat hlinkLocal
    simp at hname hentries hcgnat hlinkLocal
    unfold ScopeProfileRow.payload ScopeProfile.payload
    rw [hname, Json.strs_injective hentries, hcgnat, hlinkLocal]
  · intro h
    obtain ⟨hname, hentries, hcgnat, hlinkLocal⟩ := ScopeCreate.mk.inj h
    refine ⟨fun sha256 now => ?_, fun sha256 now => ?_, fun sha256 now => ?_, fun sha256 now => ?_,
      fun now full => ?_⟩
    · rw [reportedScope_eq, ← hname]
      simp [jsonScope]
    · rw [reportedScope_eq, ← hentries]
      simp [jsonScope]
    · rw [reportedScope_eq, ← hcgnat]
      simp [jsonScope]
    · rw [reportedScope_eq, ← hlinkLocal]
      simp [jsonScope]
    · rw [markdownLines_scope, hname, hentries]

/-- What the exports of a scan are made from, where ids are keys. -/
theorem Db.Keyed.getScan (h : db.Keyed) {scan : ScanRow} (hs : scan ∈ db.scans) :
    db.getScan scan.id = some scan :=
  find_of_key h.scans hs

theorem Db.Keyed.getScope (h : db.Keyed) {row : ScopeProfileRow} (hr : row ∈ db.scopes) :
    db.getScope row.id = some row :=
  find_of_key h.scopes hr

/-- The exports report what the row of the scope reads. -/
theorem provenance_iff_row (h : db.Keyed) {scan : ScanRow} {row : ScopeProfileRow}
    (hs : scan ∈ db.scans) (hr : row ∈ db.scopes) (hid : row.id = scan.scopeId) :
    Provenance scan.id scope db ↔ row.payload = scope.payload := by
  have hscope : db.getScope scan.scopeId = some row := hid ▸ h.getScope hr
  unfold Provenance loadExportInputs
  rw [h.getScan hs]
  simp only [hscope, Except.ok.injEq, exists_eq_left', reports_iff]

/-! ### Steps -/

theorem acceptedStep_commits (h : db.Keyed) (hs : acceptedStep registry db a = some db') :
    a.1.Commits db db' ∧ db'.Keyed := by
  unfold acceptedStep at hs
  have hanswered := handleRequest_answered registry a.2 h a.1
  generalize handleRequest registry a.2 db a.1 = served at hanswered hs
  cases hanswered with
  | commits _ hcommits hkeyed =>
    cases hs
    exact ⟨hcommits, hkeyed⟩
  | refuses | breaks => cases hs

/-- A request leaves the scan there, and a scope under its id: the one before,
or the one that an update gave. -/
theorem commits_row {request : WriteRequest} (hc : request.Commits db db')
    {scan : ScanRow} {row : ScopeProfileRow} (hs : scan ∈ db.scans) (hr : row ∈ db.scopes)
    (hid : row.id = scan.scopeId) : scan ∈ db'.scans ∧ (row ∈ db'.scopes ∨
      ∃ payload, request = .updateScope row.id payload ∧ payload.row row.id ∈ db'.scopes) := by
  cases request with
  | createScope payload =>
    obtain ⟨id, -, hscopes, hscans, -⟩ := hc
    exact ⟨hscans ▸ hs, Or.inl (hscopes ▸ List.mem_append_left _ hr)⟩
  | updateScope scopeId payload =>
    obtain ⟨before, row₀, after, hscopes, hid₀, hscopes', hscans, -⟩ := hc
    refine ⟨hscans ▸ hs, ?_⟩
    by_cases heq : row = row₀
    · subst heq
      refine Or.inr ⟨payload, by rw [hid₀], ?_⟩
      rw [hid₀, hscopes']
      exact List.mem_append_right _ List.mem_cons_self
    · rw [hscopes] at hr
      refine Or.inl ?_
      rw [hscopes']
      rcases List.mem_append.mp hr with hr | hr
      · exact List.mem_append_left _ hr
      · exact List.mem_append_right _ (List.mem_cons_of_mem _
          (List.mem_of_ne_of_mem heq hr))
  | deleteScope scopeId =>
    obtain ⟨hunused, before, row₀, after, hscopes, hid₀, hscopes', hscans, -⟩ := hc
    have hne : row ≠ row₀ := fun heq => hunused scan hs (by rw [← hid, heq, hid₀])
    refine ⟨hscans ▸ hs, Or.inl ?_⟩
    rw [hscopes] at hr
    rw [hscopes']
    rcases List.mem_append.mp hr with hr | hr
    · exact List.mem_append_left _ hr
    · exact List.mem_append_right _ (List.mem_of_ne_of_mem hne hr)
  | createScan request =>
    obtain ⟨id, now, scan', -, -, hscopes, hscans, -⟩ := hc
    exact ⟨hscans ▸ List.mem_append_left _ hs, Or.inl (hscopes ▸ hr)⟩

theorem ScopeCreate.payload_row (payload : ScopeCreate) (id : ℕ) :
    (payload.row id).payload = payload := rfl

/-- **One step.** -/
theorem recorded_step {payload : ScopeCreate} (h : Recorded scanId payload db)
    (hok : KeepsScope scanId db a) (hs : acceptedStep registry db a = some db') :
    Recorded scanId payload db' := by
  obtain ⟨hcommits, hkeyed⟩ := acceptedStep_commits h.keyed hs
  obtain ⟨scan, hscan, rfl, row, hrow, hid, hpayload⟩ := h.row
  obtain ⟨hscan', hrow' | ⟨update, ha, hrow'⟩⟩ := commits_row hcommits hscan hrow hid
  · exact ⟨hkeyed, scan, hscan', rfl, row, hrow', hid, hpayload⟩
  · obtain ⟨request, e⟩ := a
    have ha : request = .updateScope row.id update := ha
    subst ha
    have hkept := hok scan (h.keyed.getScan hscan) hid.symm row (h.keyed.getScope hrow)
    refine ⟨hkeyed, scan, hscan', rfl, _, hrow', hid, ?_⟩
    rw [ScopeCreate.payload_row, hkept, hpayload]

/-- An update that changes the scope shows. -/
theorem Recorded.lost (h : Recorded scanId scope.payload db) (hok : ¬ KeepsScope scanId db a)
    (hs : acceptedStep registry db a = some db') : ¬ Provenance scanId scope db' := by
  obtain ⟨hcommits, hkeyed⟩ := acceptedStep_commits h.keyed hs
  obtain ⟨scan, hscan, rfl, row, hrow, hid, hpayload⟩ := h.row
  obtain ⟨request, e⟩ := a
  cases request with
  | createScope | deleteScope | createScan => exact absurd trivial hok
  | updateScope scopeId payload =>
    intro hreports
    refine hok fun scan' hscan' hscopeId row' hrow' => ?_
    rw [h.keyed.getScan hscan] at hscan'
    cases hscan'
    rw [← hscopeId, ← hid, h.keyed.getScope hrow] at hrow'
    cases hrow'
    obtain ⟨before, row₀, after, -, -, hscopes, hscans, -⟩ := hcommits
    have hnew : payload.row scopeId ∈ db'.scopes := by
      rw [hscopes]
      exact List.mem_append_right _ List.mem_cons_self
    have hpayload' := (provenance_iff_row hkeyed (hscans ▸ hscan) hnew hscopeId.symm).mp hreports
    rw [hpayload, ← hpayload', ScopeCreate.payload_row]

theorem Recorded.provenance (h : Recorded scanId scope.payload db) :
    Provenance scanId scope db := by
  obtain ⟨scan, hscan, rfl, row, hrow, hid, hpayload⟩ := h.row
  exact (provenance_iff_row h.keyed hscan hrow hid).mpr hpayload

/-- A profile reads as what `create` was given. -/
theorem ScopeProfile.create_payload {row : ScopeProfileRow}
    (h : ScopeProfile.create row.name row.entries row.allowCgnat row.allowLinkLocal = .ok scope) :
    row.payload = scope.payload := by
  unfold ScopeProfile.create at h
  split_ifs at h
  obtain ⟨ns, -, h⟩ := Raising.bind_eq_ok.mp h
  cases h
  rfl

/-- A scan is stored with the scope its target was validated under. -/
theorem recorded_createScan {e : CallEnv} {request : ScanBody} (h : db.Keyed)
    (hscope : loadScopeProfile db request.scopeId = .ok scope)
    (hcreate : createScan registry e request db = (.ok scanId, db')) :
    Recorded scanId scope.payload db' := by
  obtain ⟨row, hrow, hprofile⟩ := loadScopeProfile_eq_ok hscope
  have hcreates : CreatesScan registry e request db (createScan registry e request db) :=
    createScan_creates
  rw [hcreate] at hcreates
  cases hcreates with
  | stores hpasses hmodules hscan hdb =>
    obtain ⟨-, hkeyed⟩ := createScan_commits h hscan hdb
    obtain ⟨-, rfl⟩ := Db.createScan_eq_some.mp hdb
    have hid := List.find?_some (p := fun r : ScopeProfileRow => r.id == request.scopeId) hrow
    exact ⟨hkeyed, _, List.mem_append_right _ (List.mem_singleton_self _), rfl, row,
      List.mem_of_find?_eq_some hrow, (eq_of_beq hid).trans hscan.scopeId.symm,
      ScopeProfile.create_payload hprofile⟩

end

/-- **Provenance.** In a run of accepted requests after a scan was stored, its
exports report the scope under which its target was validated, in every state,
if and only if no update changes that scope. -/
theorem provenance_iff (registry : ModuleRegistry) (db : Db) (h : db.Keyed) (e : CallEnv)
    (request : ScanBody) (scope : ScopeProfile)
    (hscope : loadScopeProfile db request.scopeId = .ok scope) (scanId : ℕ) (db₁ : Db)
    (hcreate : createScan registry e request db = (.ok scanId, db₁))
    (ls : List (WriteRequest × CallEnv)) (db₂ : Db)
    (hr : exec (acceptedStep registry) db₁ ls = some db₂) :
    (∀ ms db', ms <+: ls → exec (acceptedStep registry) db₁ ms = some db' →
      Provenance scanId scope db') ↔
      Meets (acceptedStep registry) (KeepsScope scanId) db₁ ls :=
  forall_exec_iff_meets (I := Recorded scanId scope.payload)
    (fun _ _ _ h hok hs => recorded_step h hok hs) (fun _ _ _ h hok hs => h.lost hok hs)
    (fun _ h => h.provenance) (recorded_createScan h hscope hcreate) hr

/-! ### A scope that is rewritten -/

instance (scanId : ℕ) (db : Db) : ∀ a, Decidable (KeepsScope scanId db a)
  | (.updateScope scopeId payload, _) => inferInstanceAs (Decidable (∀ scan ∈ db.getScan scanId,
      scan.scopeId = scopeId → ∀ row ∈ db.getScope scopeId, payload = row.payload))
  | (.createScope _, _) | (.deleteScope _, _) | (.createScan _, _) =>
    inferInstanceAs (Decidable True)

def labPayload : ScopeCreate := ⟨"lab", ["127.0.0.0/24", "10.10.0.0/24"], false, false⟩

/-- The lab's scope, and no scan. -/
def labScopes : Db := { Db.empty with scopes := [labPayload.row 0], nextId := 1 }

theorem labScopes_keyed : labScopes.Keyed where
  scopes := List.nodup_singleton _
  scopesFresh := by decide
  scans := List.nodup_nil
  fresh := by unfold Db.Fresh; decide

/-- And the scan of the lab's target. -/
def labStored : Db :=
  (createScan builtinModules labCall (labBody ["host_discovery"]) labScopes).2

theorem labStored_eq : createScan builtinModules labCall (labBody ["host_discovery"]) labScopes =
    (.ok 1, labStored) :=
  Prod.ext (by decide +kernel) rfl

theorem labScopes_load : loadScopeProfile labScopes 0 = .ok
    ((loadScopeProfile labScopes 0).toOption.get (by decide +kernel)) :=
  Raising.eq_ok_get _

/-- Another scope comes and goes, and the lab's is sent again as it is. -/
def keepingWrites : List (WriteRequest × CallEnv) :=
  [(.createScope { labPayload with name := "other" }, labCall), (.deleteScope 2, labCall),
    (.updateScope 0 labPayload, labCall)]

/-- The database after them. -/
def keptScope : Db :=
  (exec (acceptedStep builtinModules) labStored keepingWrites).get (by decide +kernel)

theorem exec_keepingWrites :
    exec (acceptedStep builtinModules) labStored keepingWrites = some keptScope :=
  (Option.some_get _).symm

theorem provenance_lab :
    Provenance 1 ((loadScopeProfile labScopes 0).toOption.get (by decide +kernel)) keptScope :=
  (provenance_iff builtinModules labScopes labScopes_keyed labCall (labBody ["host_discovery"]) _
    labScopes_load 1 labStored labStored_eq keepingWrites keptScope exec_keepingWrites).mpr
      (by decide +kernel) keepingWrites keptScope (List.prefix_refl _) exec_keepingWrites

/-- The lab's scope gets other entries, and the exports report those. -/
theorem not_provenance : ¬ ∀ (registry : ModuleRegistry) (db : Db), db.Keyed →
    ∀ (e : CallEnv) (request : ScanBody) (scope : ScopeProfile),
    loadScopeProfile db request.scopeId = .ok scope → ∀ (scanId : ℕ) (db₁ : Db),
    createScan registry e request db = (.ok scanId, db₁) →
    ∀ (ls : List (WriteRequest × CallEnv)) (db₂ : Db),
    exec (acceptedStep registry) db₁ ls = some db₂ → Provenance scanId scope db₂ := by
  intro h
  let update : WriteRequest × CallEnv :=
    (.updateScope 0 { labPayload with entries := ["192.168.0.0/24"] }, labCall)
  have hs : acceptedStep builtinModules labStored update =
      some ((acceptedStep builtinModules labStored update).get (by decide +kernel)) :=
    (Option.some_get _).symm
  have hreports := h builtinModules labScopes labScopes_keyed labCall (labBody ["host_discovery"]) _
    labScopes_load 1 labStored labStored_eq [update] _ ((exec_cons _).mpr ⟨_, hs, rfl⟩)
  have hrecorded := recorded_createScan labScopes_keyed labScopes_load labStored_eq
  exact hrecorded.lost (by decide +kernel) hs hreports

end ScanLedger
