/-
# Requests

The write requests on scopes and scans as their handlers carry them out, one at
a time (`app/api/scopes.py`, `create_scan` in `app/services/scans.py`): the
checks in their order, the errors of the application, and the statements, whose
constraints raise an error of the database. The resolver finds addresses or
raises `ResolutionError`.

Key definitions: `AppError`, `CallEnv`, `createScope`, `updateScope`,
`deleteScope`, `createScan`, `handleRequest`, `Passes`.
Key theorems: `validateTarget_ends`, `createScan_creates`.
-/
import ScanLedger.Decisions
import ScanLedger.Runner

namespace ScanLedger

open Prog
open Governor (intensityProfiles)

/-! ### Errors -/

inductive ErrorCode
  | scopeInvalid
  | scopeNotFound
  | scopeInUse
  | targetInvalid
  | targetOutOfScope
  | attestationRequired
  | moduleUnknown
  | scanNotFound
  deriving DecidableEq, Repr

structure AppError where
  code : ErrorCode
  message : String
  details : Json
  deriving DecidableEq, Repr

/-- An error without details. -/
def AppError.plain (code : ErrorCode) (message : String) : AppError :=
  ⟨code, message, .object []⟩

/-- What a handler raises: an error of the application, or any other. -/
inductive HandlerError
  | app (e : AppError)
  | other (x : Exn)
  deriving DecidableEq, Repr

/-- A constraint of the database. -/
def HandlerError.integrity : HandlerError := .other (.failure .integrity)

/-- How a call ends, and the database it leaves. -/
abbrev Served (α : Type) : Type := Except HandlerError α × Db

/-! ### Scopes -/

/-- `_validate`. -/
def validateScope (payload : ScopeCreate) : Except AppError ScopeProfile :=
  (ScopeProfile.create payload.name payload.entries payload.allowCgnat
    payload.allowLinkLocal).mapError fun e => .plain .scopeInvalid e.message

def scopeNotFound (scopeId : ℕ) : AppError :=
  .plain .scopeNotFound ("no scope profile with id " ++ repr (toString scopeId))

def createScope (payload : ScopeCreate) (db : Db) : Served Unit :=
  match validateScope payload with
  | .error e => (.error (.app e), db)
  | .ok _ =>
    if db.scopes.any (·.name == payload.name) then
      (.error (.app (.plain .scopeInvalid
        ("a scope profile named " ++ repr payload.name ++ " already exists"))), db)
    else match db.createScope payload with
      | none => (.error .integrity, db)
      | some db' => (.ok (), db')

def updateScope (scopeId : ℕ) (payload : ScopeCreate) (db : Db) : Served Unit :=
  match validateScope payload with
  | .error e => (.error (.app e), db)
  | .ok _ => match db.getScope scopeId with
    | none => (.error (.app (scopeNotFound scopeId)), db)
    | some row => match db.updateScope row payload with
      | none => (.error .integrity, db)
      | some db' => (.ok (), db')

def deleteScope (scopeId : ℕ) (db : Db) : Served Unit :=
  match db.getScope scopeId with
  | none => (.error (.app (scopeNotFound scopeId)), db)
  | some row =>
    if db.scans.any (·.scopeId == scopeId) then
      (.error (.app (.plain .scopeInUse ("this scope profile is referenced by stored scans; " ++
        "delete those scans first so their audit record never loses the scope it was " ++
        "authorized against"))), db)
    else match db.deleteScope row.id with
      | none => (.error .integrity, db)
      | some db' => (.ok (), db')

/-! ### Scans -/

/-- The body of a request for a scan. -/
structure ScanBody where
  scopeId : ℕ
  target : String
  modules : List String
  intensityProfile : String
  note : Option String
  attestationAccepted : Bool
  moduleOptions : Json
  deriving DecidableEq, Repr

/-- What a call meets: the clock and the resolver. -/
structure CallEnv where
  now : ℚ
  resolve : String → Except String (List IPAddress)

/-- The guard's calls: a decision that names no scan is always stored. -/
def CallEnv.guard (e : CallEnv) : Env :=
  { Env.calm [] with resolve := fun hostname => (e.resolve hostname).mapError .resolution }

/-- The checks on the request itself. -/
def ScanBody.check (registry : ModuleRegistry) (request : ScanBody) : Except AppError Unit :=
  if request.attestationAccepted = false then
    .error (.plain .attestationRequired ("a scan cannot be launched until you confirm you own " ++
      "or are authorized to scan every host in this scope profile"))
  else if (intensityProfiles.lookup request.intensityProfile).isNone then
    .error ⟨.targetInvalid, "unknown intensity profile " ++ repr request.intensityProfile,
      .object [("known_profiles", .strs ((intensityProfiles.map (·.1)).insertionSort (· ≤ ·)))]⟩
  else match request.modules.find? (!registry.has ·) with
    | some name => .error ⟨.moduleUnknown, "unknown module " ++ repr name,
        .object [("known_modules",
          .strs ((registry.modules.map (·.name)).insertionSort (· ≤ ·)))]⟩
    | none => .ok ()

def loadScopeProfile (db : Db) (scopeId : ℕ) : Except AppError ScopeProfile :=
  match db.getScope scopeId with
  | none => .error (scopeNotFound scopeId)
  | some row => (ScopeProfile.create row.name row.entries row.allowCgnat
      row.allowLinkLocal).mapError fun e => .plain .scopeInvalid e.message

/-- `TargetType(target.kind)`. -/
def TargetKind.type : TargetKind → TargetType
  | .ip => .ip
  | .cidr => .cidr
  | .host => .host

/-- The row for the request, with what `validate_target` made of its target;
there is none for a target without an address. -/
def ScanBody.stored (request : ScanBody) (target : ValidatedTarget) (now : ℚ) :
    Except Exn ScanCreate :=
  let resolved := match target.network with
    | none => target.addresses.map (·.str)
    | some n => [n.str]
  match resolved with
  | [] => .error (.failure (.other "list index out of range"))
  | normalized :: _ => .ok ⟨request.scopeId, request.target, normalized, target.kind.type, resolved,
      request.intensityProfile, request.modules, request.moduleOptions, request.note, now⟩

/-- The entries of a guard over `DatabaseLedger(session_factory, scope_id=...)`. -/
def Db.recorded (db : Db) (scopeId : ℕ) (entries : List LedgerEntry) : Db :=
  { db with ledger := db.ledger ++ entries.map fun entry => ⟨none, some scopeId, entry⟩ }

def scopeRefused (target reason : String) : AppError where
  code := .targetOutOfScope
  message := target ++ " is outside the authorized scope for this scan: " ++ reason
  details := .object [("destination", .str target), ("reason", .str reason)]

/-- The last part of `create_scan`, with a validated target. -/
def storeScan (e : CallEnv) (request : ScanBody) (target : ValidatedTarget) (db : Db) : Served ℕ :=
  match request.stored target e.now with
  | .error x => (.error (.other x), db)
  | .ok scan => match db.createScan scan e.now with
    | none => (.error .integrity, db)
    | some db' => (.ok db.nextId, db')

def createScan (registry : ModuleRegistry) (e : CallEnv) (request : ScanBody) (db : Db) :
    Served ℕ :=
  match request.check registry with
  | .error x => (.error (.app x), db)
  | .ok () => match loadScopeProfile db request.scopeId with
    | .error x => (.error (.app x), db)
    | .ok scope =>
      let validated := (validateTarget scope request.target).run (handle e.guard) (.new false)
      let db := db.recorded request.scopeId validated.2.entries
      match validated.1 with
      | .error (.targetRejected target reason) => (.error (.app (scopeRefused target reason)), db)
      | .error x => (.error (.other x), db)
      | .ok target => storeScan e request target db

/-! ### Any request -/

inductive WriteRequest
  | createScope (payload : ScopeCreate)
  | updateScope (scopeId : ℕ) (payload : ScopeCreate)
  | deleteScope (scopeId : ℕ)
  | createScan (request : ScanBody)
  deriving DecidableEq, Repr

def handleRequest (registry : ModuleRegistry) (e : CallEnv) (db : Db) : WriteRequest → Served Unit
  | .createScope payload => createScope payload db
  | .updateScope scopeId payload => updateScope scopeId payload db
  | .deleteScope scopeId => deleteScope scopeId db
  | .createScan request =>
    let served := createScan registry e request db
    (served.1.map fun _ => (), served.2)

/-- A request is answered, whatever the answer. -/
def requestStep (registry : ModuleRegistry) (db : Db) (a : WriteRequest × CallEnv) : Option Db :=
  some (handleRequest registry a.2 db a.1).2

/-! ### What validation comes to -/

theorem CallEnv.sinkWorks (e : CallEnv) : e.guard.SinkWorks := fun _ => rfl

/-- Classification stores nothing, and what it raises is a refusal. -/
theorem run_classify_refuses (e : CallEnv) (c : Call) (rawTarget : String) :
    ∃ r, (classify rawTarget).run (handle e.guard) c = (r, c) ∧
      ∀ x, r = .error x → ∃ target reason, x = .targetRejected target reason := by
  unfold classify
  dsimp only
  split_ifs
  · exact ⟨_, rfl, fun x hx => by cases hx; exact ⟨_, _, rfl⟩⟩
  · split
    · exact ⟨_, rfl, nofun⟩
    · exact ⟨_, rfl, fun x hx => by cases hx; exact ⟨_, _, rfl⟩⟩
  · split
    · exact ⟨_, rfl, nofun⟩
    · -- a name: the resolver finds addresses or raises what is caught
      rw [run_tryCatch, bind_eq, run_bind, call, run_perform, handle]
      cases hresolve : e.resolve (strip rawTarget) with
      | error problem =>
        simp only [CallEnv.guard, hresolve]
        exact ⟨_, rfl, fun x hx => by cases hx; exact ⟨_, _, rfl⟩⟩
      | ok addresses =>
        simp only [CallEnv.guard, hresolve]
        exact ⟨_, rfl, fun x hx => by cases hx⟩

/-- A target is refused, or it has a network or an address. -/
theorem validateTarget_ends (e : CallEnv) (scope : ScopeProfile) (rawTarget : String) (c : Call) :
    match ((validateTarget scope rawTarget).run (handle e.guard) c).1 with
    | .ok target => target.network = none → target.addresses ≠ []
    | .error x => ∃ target reason, x = .targetRejected target reason := by
  obtain ⟨r, hr, hrefuses⟩ := run_classify_refuses e c rawTarget
  unfold validateTarget
  rw [bind_eq, run_bind, hr]
  cases r with
  | error x => exact hrefuses x rfl
  | ok found =>
    obtain ⟨kind, addresses, networkCandidate⟩ := found
    cases networkCandidate with
    | some n =>
      rcases run_validateNetwork scope (c := c) e.sinkWorks n with hrefused | hok
      · obtain ⟨target, reason, _, -, hrun⟩ := hrefused.bind fun _ => ret
          (⟨rawTarget, kind, [], some n⟩ : ValidatedTarget)
        simp only [bind_eq, pure_eq, hrun]
        exact ⟨target, reason, rfl⟩
      · simp only [bind_eq, pure_eq, run_bind_of_ok _ hok, run_ret]
        exact nofun
    | none =>
      by_cases hne : addresses = []
      · subst hne
        exact ⟨_, _, rfl⟩
      · rcases run_validateAddresses scope (c := c) e.sinkWorks rawTarget hne with hrefused | hok
        · obtain ⟨target, reason, _, -, hrun⟩ := hrefused.bind fun _ => ret
            (⟨rawTarget, kind, addresses, none⟩ : ValidatedTarget)
          simp only [bind_eq, pure_eq, hrun]
          exact ⟨target, reason, rfl⟩
        · simp only [bind_eq, pure_eq, run_bind_of_ok _ hok, run_ret]
          exact fun _ => hne

/-! ### What `create_scan` comes to -/

/-- `validate_target` accepts the target. -/
def CallEnv.accepts (e : CallEnv) (scope : ScopeProfile) (rawTarget : String) : Bool :=
  ((validateTarget scope rawTarget).run (handle e.guard) (.new false)).1.toOption.isSome

/-- The request passes every check of `create_scan`. -/
def Passes (registry : ModuleRegistry) (e : CallEnv) (db : Db) (request : ScanBody) : Prop :=
  request.check registry = .ok () ∧
    ∃ scope, loadScopeProfile db request.scopeId = .ok scope ∧
      e.accepts scope request.target = true

/-- The row is one for the request. -/
structure ScanCreate.For (scan : ScanCreate) (request : ScanBody) : Prop where
  scopeId : scan.scopeId = request.scopeId
  target : scan.target = request.target
  modules : scan.modules = request.modules

inductive CreatesScan (registry : ModuleRegistry) (e : CallEnv) (request : ScanBody) (db : Db) :
    Served ℕ → Prop
  | refused (x : AppError) (entries : List LedgerEntry)
      (hpasses : ¬ Passes registry e db request) :
      CreatesScan registry e request db (.error (.app x), db.recorded request.scopeId entries)
  | repeats (entries : List LedgerEntry) (hpasses : Passes registry e db request)
      (hmodules : ¬ request.modules.Nodup) :
      CreatesScan registry e request db (.error .integrity, db.recorded request.scopeId entries)
  | stores {entries : List LedgerEntry} {scan : ScanCreate} {db' : Db}
      (hpasses : Passes registry e db request) (hmodules : request.modules.Nodup)
      (hscan : scan.For request)
      (hdb : (db.recorded request.scopeId entries).createScan scan e.now = some db') :
      CreatesScan registry e request db (.ok db.nextId, db')

section

variable {registry : ModuleRegistry} {e : CallEnv} {request : ScanBody} {db : Db}

theorem Db.recorded_nil (scopeId : ℕ) : db.recorded scopeId [] = db := by
  unfold recorded
  rw [List.map_nil, List.append_nil]

theorem loadScopeProfile_eq_ok {scopeId : ℕ} {scope : ScopeProfile}
    (h : loadScopeProfile db scopeId = .ok scope) : ∃ row, db.getScope scopeId = some row ∧
      ScopeProfile.create row.name row.entries row.allowCgnat row.allowLinkLocal = .ok scope := by
  unfold loadScopeProfile at h
  cases hrow : db.getScope scopeId with
  | none =>
    rw [hrow] at h
    cases h
  | some row =>
    rw [hrow] at h
    refine ⟨row, rfl, ?_⟩
    cases hcreate : ScopeProfile.create row.name row.entries row.allowCgnat row.allowLinkLocal with
    | error x =>
      simp only [hcreate] at h
      cases h
    | ok scope' =>
      simp only [hcreate] at h
      cases h
      rfl

/-- There is a row for a target with a network or an address. -/
theorem ScanBody.stored_for (request : ScanBody) {target : ValidatedTarget} (now : ℚ)
    (h : target.network = none → target.addresses ≠ []) :
    ∃ scan, request.stored target now = .ok scan ∧ scan.For request := by
  unfold ScanBody.stored
  cases hn : target.network with
  | some n => exact ⟨_, rfl, rfl, rfl, rfl⟩
  | none =>
    cases ha : target.addresses with
    | nil => exact absurd ha (h hn)
    | cons a rest => exact ⟨_, rfl, rfl, rfl, rfl⟩

/-- A check on the request or its scope fails, before the guard is asked. -/
theorem CreatesScan.early (x : AppError) (h : ¬ Passes registry e db request) :
    CreatesScan registry e request db (.error (.app x), db) := by
  have hrefused := CreatesScan.refused x [] h
  rwa [Db.recorded_nil] at hrefused

/-- **`create_scan`** refuses a request, or stores its scan, or repeats a module
and breaks the constraint of the module runs. -/
theorem createScan_creates :
    CreatesScan registry e request db (createScan registry e request db) := by
  unfold createScan
  cases hcheck : request.check registry with
  | error x =>
    refine .early x fun hpasses => ?_
    have hok := hpasses.1
    rw [hcheck] at hok
    cases hok
  | ok u =>
    cases hload : loadScopeProfile db request.scopeId with
    | error x =>
      refine .early x fun hpasses => ?_
      obtain ⟨scope, hscope, -⟩ := hpasses.2
      rw [hload] at hscope
      cases hscope
    | ok scope =>
      have hends := validateTarget_ends e scope request.target (.new false)
      have hpasses : Passes registry e db request ↔ e.accepts scope request.target = true := by
        refine ⟨fun ⟨_, scope', hscope, haccepts⟩ => ?_,
          fun haccepts => ⟨hcheck, scope, hload, haccepts⟩⟩
        rw [hload] at hscope
        cases hscope
        exact haccepts
      unfold CallEnv.accepts at hpasses
      simp only
      rcases hrun : (validateTarget scope request.target).run (handle e.guard) (.new false)
        with ⟨x | target, c⟩
      · rw [hrun] at hends hpasses
        obtain ⟨target, reason, rfl⟩ := hends
        exact .refused _ c.entries (by rw [hpasses]; exact nofun)
      · rw [hrun] at hends hpasses
        have hpasses := hpasses.mpr rfl
        obtain ⟨scan, hstored, hfor⟩ := request.stored_for e.now hends
        unfold storeScan
        simp only [hstored]
        cases hdb : (db.recorded request.scopeId c.entries).createScan scan e.now with
        | none =>
          refine .repeats c.entries hpasses fun hmodules => ?_
          obtain ⟨row, hrow, -⟩ := loadScopeProfile_eq_ok hload
          have hscope : db.scopes.any (·.id == scan.scopeId) = true := by
            rw [hfor.scopeId]
            exact List.any_eq_true.mpr ⟨row, List.mem_of_find?_eq_some hrow,
              List.find?_some (p := fun r : ScopeProfileRow => r.id == request.scopeId) hrow⟩
          unfold Db.createScan at hdb
          rw [if_pos ⟨hscope, hfor.modules ▸ hmodules⟩] at hdb
          cases hdb
        | some db' =>
          have hmodules := (Db.createScan_eq_some.mp hdb).1.2
          exact .stores hpasses (hfor.modules ▸ hmodules) hfor hdb

end

end ScanLedger
