/-
# Constraints

A write request that is refused is refused by the application, with the stores
as they were, unless it breaks a constraint that nothing checks before: a scan
with a module selected twice, or a scope renamed to the name of another.

Key definitions: `WriteRequest.Commits`, `Typed`, `Constrained`, `Db.Keyed`.
Key theorems: `handleRequest_answered`, `requests_typed`.
-/
import ScanLedger.Lib.Run
import ScanLedger.Requests

namespace ScanLedger

open Run Table

/-! ### The property, and its condition -/

def ScopeCreate.row (payload : ScopeCreate) (id : ℕ) : ScopeProfileRow :=
  ⟨id, payload.name, payload.entries, payload.allowCgnat, payload.allowLinkLocal⟩

/-- A module run as `create_scan` stores it. -/
def queuedRun (scanId : ℕ) (module : String) : ModuleRunRow :=
  ⟨scanId, module, .queued, 0, false, 0, none, none, none, none⟩

/-- The scopes, the scans and their module runs are as they were. -/
structure Unchanged (db db' : Db) : Prop where
  scopes : db'.scopes = db.scopes
  scans : db'.scans = db.scans
  runs : db'.moduleRuns = db.moduleRuns

/-- What a request is to change: a scope more, with a name of its own; a scope
replaced; a scope gone that no scan refers to; a queued scan more, with a queued
run for each module. -/
def WriteRequest.Commits (db db' : Db) : WriteRequest → Prop
  | .createScope payload => ∃ id, (∀ r ∈ db.scopes, r.id ≠ id ∧ r.name ≠ payload.name) ∧
      db'.scopes = db.scopes ++ [payload.row id] ∧ db'.scans = db.scans ∧
      db'.moduleRuns = db.moduleRuns
  | .updateScope scopeId payload => ∃ before row after, db.scopes = before ++ row :: after ∧
      row.id = scopeId ∧ db'.scopes = before ++ payload.row scopeId :: after ∧
      db'.scans = db.scans ∧ db'.moduleRuns = db.moduleRuns
  | .deleteScope scopeId => (∀ scan ∈ db.scans, scan.scopeId ≠ scopeId) ∧
      ∃ before row after, db.scopes = before ++ row :: after ∧ row.id = scopeId ∧
        db'.scopes = before ++ after ∧ db'.scans = db.scans ∧ db'.moduleRuns = db.moduleRuns
  | .createScan request => ∃ id now, ∃ scan : ScanCreate, scan.For request ∧ id ∉ db.ids ∧
      db'.scopes = db.scopes ∧ db'.scans = db.scans ++ [scan.row id now] ∧
      db'.moduleRuns = db.moduleRuns ++ request.modules.map (queuedRun id)

/-- The call commits its change, or it raises an error of the application and
changes nothing. -/
def Typed (registry : ModuleRegistry) (db : Db) (a : WriteRequest × CallEnv) : Prop :=
  match handleRequest registry a.2 db a.1 with
  | (.ok _, db') => a.1.Commits db db'
  | (.error (.app _), db') => Unchanged db db'
  | (.error (.other _), _) => False

/-- The request breaks no constraint that is not checked: a scan that passes
every check selects no module twice, and a scope that is renamed gets a name
that no other has. -/
def Constrained (registry : ModuleRegistry) (db : Db) : WriteRequest × CallEnv → Prop
  | (.createScan request, e) => Passes registry e db request → request.modules.Nodup
  | (.updateScope scopeId payload, _) => payload.valid = true → ∀ row ∈ db.getScope scopeId,
      payload.name ≠ row.name → ∀ r ∈ db.scopes, r.id ≠ scopeId → r.name ≠ payload.name
  | (.createScope _, _) | (.deleteScope _, _) => True

/-- Scopes and scans have ids of their own, all given out before. -/
structure Db.Keyed (db : Db) : Prop where
  scopes : (db.scopes.map (·.id)).Nodup
  scopesFresh : ∀ scope ∈ db.scopes, scope.id < db.nextId
  scans : db.ids.Nodup
  fresh : db.Fresh

/-! ### What each request comes to -/

inductive Answered (registry : ModuleRegistry) (e : CallEnv) (db : Db) (a : WriteRequest) :
    Served Unit → Prop
  | commits {db' : Db} (hok : Constrained registry db (a, e)) (h : a.Commits db db')
      (hkeyed : db'.Keyed) : Answered registry e db a (.ok (), db')
  | refuses {x : AppError} {db' : Db} (hok : Constrained registry db (a, e))
      (h : Unchanged db db') (hkeyed : db'.Keyed) : Answered registry e db a (.error (.app x), db')
  | breaks {x : Exn} {db' : Db} (hbreaks : ¬ Constrained registry db (a, e))
      (hkeyed : db'.Keyed) : Answered registry e db a (.error (.other x), db')

section

variable {registry : ModuleRegistry} {e : CallEnv} {db db' : Db} {payload : ScopeCreate}
  {scopeId : ℕ}

theorem Unchanged.refl (db : Db) : Unchanged db db := ⟨rfl, rfl, rfl⟩

theorem validateScope_cases (payload : ScopeCreate) :
    (∃ scope, validateScope payload = .ok scope ∧ payload.valid = true) ∨
      ∃ x, validateScope payload = .error x ∧ payload.valid = false := by
  unfold validateScope ScopeCreate.valid
  cases ScopeProfile.create payload.name payload.entries payload.allowCgnat
    payload.allowLinkLocal with
  | ok scope => exact Or.inl ⟨scope, rfl, rfl⟩
  | error x => exact Or.inr ⟨_, rfl, rfl⟩

theorem createScope_answered (h : db.Keyed) :
    Answered registry e db (.createScope payload) (createScope payload db) := by
  unfold createScope
  rcases validateScope_cases payload with ⟨scope, hvalid, -⟩ | ⟨x, hvalid, -⟩
  · rw [hvalid]
    simp only
    split_ifs with hname
    · exact .refuses trivial (.refl db) h
    · have hdb := Db.createScope_eq_some.mpr ⟨hname, rfl⟩
      rw [hdb]
      have hfree : ∀ r ∈ db.scopes, r.id ≠ db.nextId ∧ r.name ≠ payload.name := by
        intro r hr
        refine ⟨(h.scopesFresh r hr).ne, fun heq => hname ?_⟩
        exact List.any_eq_true.mpr ⟨r, hr, beq_iff_eq.mpr heq⟩
      refine .commits trivial ⟨db.nextId, hfree, rfl, rfl, rfl⟩
        ⟨?_, fun scope hs => ?_, h.scans, fun scan hs => Nat.lt_succ_of_lt (h.fresh scan hs)⟩
      · rw [List.map_append, List.map_singleton, ← List.concat_eq_append, List.nodup_concat]
        refine ⟨fun hmem => ?_, h.scopes⟩
        obtain ⟨r, hr, hid⟩ := List.mem_map.mp hmem
        exact (hfree r hr).1 hid
      · rcases List.mem_append.mp hs with hs | hs
        · exact Nat.lt_succ_of_lt (h.scopesFresh scope hs)
        · rw [List.mem_singleton.mp hs]
          exact Nat.lt_succ_self _
  · rw [hvalid]
    exact .refuses trivial (.refl db) h

/-- With what was read still stored, every column is written. -/
theorem ScopeCreate.write_self (payload : ScopeCreate) (row : ScopeProfileRow) :
    payload.write row row = payload.row row.id := by
  have hwritten : ∀ {α : Type} [DecidableEq α] (seen new : α), written seen new seen = new := by
    intro α _ seen new
    unfold written
    split_ifs with heq
    · exact heq.symm
    · rfl
  unfold ScopeCreate.write ScopeCreate.row
  rw [hwritten, hwritten, hwritten, hwritten]

theorem updateScope_answered (h : db.Keyed) :
    Answered registry e db (.updateScope scopeId payload) (updateScope scopeId payload db) := by
  unfold updateScope
  rcases validateScope_cases payload with ⟨scope, hvalidated, hvalid⟩ | ⟨x, hvalidated, hvalid⟩
  · rw [hvalidated]
    simp only
    cases hrow : db.getScope scopeId with
    | none =>
      refine .refuses (fun _ row hr => ?_) (.refl db) h
      rw [hrow] at hr
      cases hr
    | some row =>
      obtain ⟨before, after, hscopes, hid, hrest⟩ := split_of_key h.scopes hrow
      simp only
      cases hdb : db.updateScope row payload with
      | none =>
        refine .breaks (fun hok => ?_) h
        unfold Db.updateScope at hdb
        split_ifs at hdb with hclash
        obtain ⟨r, hr, hclash⟩ := List.any_eq_true.mp hclash
        simp only [Bool.and_eq_true, bne_iff_ne, beq_iff_eq] at hclash
        exact hok hvalid row hrow hclash.1.2 r hr (hid ▸ hclash.1.1) hclash.2
      | some db' =>
        obtain ⟨hclash, rfl⟩ := Db.updateScope_eq_some.mp hdb
        have hupdated : updateWhere (·.id == row.id) (payload.write row) db.scopes =
            before ++ payload.row scopeId :: after := by
          have hsplit := updateWhere_split (f := payload.write row) (beq_self_eq_true row.id)
            (p := fun r => r.id == row.id) fun r hr => beq_false_of_ne (hid ▸ hrest r hr)
          rw [hscopes, hsplit, payload.write_self, hid]
        have hids : (updateWhere (·.id == row.id) (payload.write row) db.scopes).map (·.id) =
            db.scopes.map (·.id) := map_updateWhere (fun _ _ => by rfl) _
        refine .commits (fun _ row' hr' hne r hr hneid hname => hclash ?_)
          ⟨before, row, after, hscopes, hid, hupdated, rfl, rfl⟩
          ⟨?_, fun scope hs => ?_, h.scans, h.fresh⟩
        · rw [hrow] at hr'
          cases hr'
          refine List.any_eq_true.mpr ⟨r, hr, ?_⟩
          simp only [Bool.and_eq_true, bne_iff_ne, beq_iff_eq]
          exact ⟨⟨hid ▸ hneid, hne⟩, hname⟩
        · show ((updateWhere (·.id == row.id) (payload.write row) db.scopes).map (·.id)).Nodup
          rw [hids]
          exact h.scopes
        · have hmem := List.mem_map_of_mem (f := (·.id)) hs
          rw [hids] at hmem
          obtain ⟨scope₀, hs₀, hid₀⟩ := List.mem_map.mp hmem
          exact hid₀ ▸ h.scopesFresh scope₀ hs₀
  · rw [hvalidated]
    refine .refuses (fun hvalid' => ?_) (.refl db) h
    rw [hvalid] at hvalid'
    cases hvalid'

theorem deleteScope_answered (h : db.Keyed) :
    Answered registry e db (.deleteScope scopeId) (deleteScope scopeId db) := by
  unfold deleteScope
  cases hrow : db.getScope scopeId with
  | none => exact .refuses trivial (.refl db) h
  | some row =>
    obtain ⟨before, after, hscopes, hid, hrest⟩ := split_of_key h.scopes hrow
    simp only
    split_ifs with huse
    · exact .refuses trivial (.refl db) h
    · rw [hid, Db.deleteScope_eq_some.mpr ⟨huse, rfl⟩]
      have hfilter : db.scopes.filter (·.id != scopeId) = before ++ after := by
        rw [hscopes, filter_split (by simp [hid])]
        intro r hr
        exact bne_iff_ne.mpr (hrest r hr)
      refine .commits trivial
        ⟨fun scan hs hid => huse ?_, before, row, after, hscopes, hid, hfilter, rfl, rfl⟩
        ⟨(List.filter_sublist.map _).nodup h.scopes, fun scope hs => ?_, h.scans, h.fresh⟩
      · exact List.any_eq_true.mpr ⟨scan, hs, beq_iff_eq.mpr hid⟩
      · exact h.scopesFresh scope (List.mem_of_mem_filter hs)

/-- What a scan adds: its row, and a queued run for each of its modules. -/
theorem createScan_commits {request : ScanBody} {entries : List LedgerEntry} {scan : ScanCreate}
    (h : db.Keyed) (hscan : scan.For request)
    (hdb : (db.recorded request.scopeId entries).createScan scan e.now = some db') :
    (WriteRequest.createScan request).Commits db db' ∧ db'.Keyed := by
  obtain ⟨-, rfl⟩ := Db.createScan_eq_some.mp hdb
  have hfresh : db.nextId ∉ db.ids := fun hmem => by
    obtain ⟨scan, hs, hid⟩ := List.mem_map.mp hmem
    exact lt_irrefl _ (hid ▸ h.fresh scan hs)
  refine ⟨⟨db.nextId, e.now, scan, hscan, hfresh, rfl, rfl, ?_⟩, h.scopes,
    fun scope hs => Nat.lt_succ_of_lt (h.scopesFresh scope hs), ?_, fun scan' hs => ?_⟩
  · rw [← hscan.modules]
    rfl
  · show (List.map ScanRow.id (db.scans ++ [scan.row db.nextId e.now])).Nodup
    rw [List.map_append, List.map_singleton, ← List.concat_eq_append, List.nodup_concat]
    exact ⟨hfresh, h.scans⟩
  · rcases List.mem_append.mp hs with hs | hs
    · exact Nat.lt_succ_of_lt (h.fresh scan' hs)
    · rw [List.mem_singleton.mp hs]
      exact Nat.lt_succ_self _

theorem createScan_answered (h : db.Keyed) (request : ScanBody) :
    Answered registry e db (.createScan request)
      (handleRequest registry e db (.createScan request)) := by
  unfold handleRequest
  have hcreates : CreatesScan registry e request db (createScan registry e request db) :=
    createScan_creates
  have hrecorded : ∀ entries, (db.recorded request.scopeId entries).Keyed := fun _ =>
    ⟨h.scopes, h.scopesFresh, h.scans, h.fresh⟩
  simp only
  generalize createScan registry e request db = served at hcreates
  cases hcreates with
  | refused x entries hpasses =>
    exact .refuses (fun hp => absurd hp hpasses) ⟨rfl, rfl, rfl⟩ (hrecorded entries)
  | repeats entries hpasses hmodules =>
    exact .breaks (fun hok => hmodules (hok hpasses)) (hrecorded entries)
  | stores hpasses hmodules hscan hdb =>
    obtain ⟨hcommits, hkeyed⟩ := createScan_commits h hscan hdb
    exact .commits (fun _ => hmodules) hcommits hkeyed

theorem handleRequest_answered (registry : ModuleRegistry) (e : CallEnv) (h : db.Keyed)
    (a : WriteRequest) : Answered registry e db a (handleRequest registry e db a) := by
  cases a with
  | createScope payload => exact createScope_answered h
  | updateScope scopeId payload => exact updateScope_answered h
  | deleteScope scopeId => exact deleteScope_answered h
  | createScan request => exact createScan_answered h request

theorem Db.Keyed.step {a : WriteRequest × CallEnv} (h : db.Keyed)
    (hs : requestStep registry db a = some db') : db'.Keyed := by
  cases hs
  have hanswered := handleRequest_answered registry a.2 h a.1
  generalize handleRequest registry a.2 db a.1 = served at hanswered
  cases hanswered with
  | commits _ _ hkeyed | refuses _ _ hkeyed | breaks _ hkeyed => exact hkeyed

/-- One request. -/
theorem typed_iff (h : db.Keyed) (a : WriteRequest × CallEnv) :
    Typed registry db a ↔ Constrained registry db a := by
  obtain ⟨a, e⟩ := a
  unfold Typed
  have hanswered := handleRequest_answered registry e h a
  simp only
  generalize handleRequest registry e db a = served at hanswered
  cases hanswered with
  | commits hok hcommits => exact iff_of_true hcommits hok
  | refuses hok hunchanged => exact iff_of_true hunchanged hok
  | breaks hbreaks => exact iff_of_false id hbreaks

theorem Typed.not_other {a : WriteRequest × CallEnv} (h : Typed registry db a) (x : Exn) :
    (handleRequest registry a.2 db a.1).1 ≠ .error (.other x) := by
  intro hx
  unfold Typed at h
  split at h
  · rename_i heq
    rw [heq] at hx
    cases hx
  · rename_i heq
    rw [heq] at hx
    cases hx
  · exact h

end

/-- **Requests.** In a run of requests each is answered as it should be if and
only if none breaks a constraint that is not checked. -/
theorem requests_typed (registry : ModuleRegistry) (db : Db) (h : db.Keyed)
    (ls : List (WriteRequest × CallEnv)) :
    Meets (requestStep registry) (Typed registry) db ls ↔
      Meets (requestStep registry) (Constrained registry) db ls :=
  meets_iff (I := Db.Keyed) (fun _ _ _ h hs => h.step hs) (fun _ a h => typed_iff h a) h

/-! ### A module selected twice -/

theorem Db.keyed_empty : Db.empty.Keyed where
  scopes := List.nodup_nil
  scopesFresh _ h := absurd h List.not_mem_nil
  scans := List.nodup_nil
  fresh _ h := absurd h List.not_mem_nil

/-- No name resolves. -/
def labCall : CallEnv := ⟨0, fun hostname => .error ("could not resolve " ++ repr hostname)⟩

/-- A scan of the lab's target with these modules. -/
def labBody (modules : List String) : ScanBody :=
  ⟨0, "10.10.0.5", modules, "normal", none, true, .object []⟩

/-- The lab's scope is made, and then the scan. -/
def labWrites (modules : List String) : List (WriteRequest × CallEnv) :=
  [(.createScope ⟨"lab", ["127.0.0.0/24", "10.10.0.0/24"], false, false⟩, labCall),
    (.createScan (labBody modules), labCall)]

theorem requests_typed_lab : Meets (requestStep builtinModules) (Typed builtinModules) .empty
    (labWrites ["host_discovery", "port_scan"]) :=
  (requests_typed builtinModules .empty Db.keyed_empty _).mpr
    ⟨trivial, fun _ => by decide, trivial⟩

/-- The second run of the same module breaks the constraint of the module runs. -/
theorem not_requests_typed : ¬ ∀ (registry : ModuleRegistry) (db : Db), db.Keyed →
    ∀ ls : List (WriteRequest × CallEnv),
      Meets (requestStep registry) (Typed registry) db ls := by
  intro h
  obtain ⟨-, htyped, -⟩ := h builtinModules .empty Db.keyed_empty
    (labWrites ["host_discovery", "host_discovery"])
  exact htyped.not_other (.failure .integrity) (by decide +kernel)

end ScanLedger
