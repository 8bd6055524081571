/-
# Domain

The states of scans and module runs and the record of a finding
(`app/models/domain.py`, `app/models/findings.py`), and what the runner knows
of a module: its metadata, the registry it is looked up in, and what its `run`
returns (`app/modules/base.py`, `app/modules/registry.py`).

Key definitions: `ScanStatus`, `ModuleStatus`, `Finding`, `Finding.fingerprint`,
`ModuleMetadata`, `ModuleRegistry`, `ModuleResult`.
-/
import Mathlib.Data.List.Sort
import ScanLedger.Lib.Json
import ScanLedger.Lib.Raising
import ScanLedger.ScanGuard

namespace ScanLedger

/-! ### States -/

inductive ScanStatus
  | queued
  | running
  | completed
  | completedWithWarnings
  | failed
  | canceled
  deriving DecidableEq, Repr

def ScanStatus.isTerminal : ScanStatus → Bool
  | .completed | .completedWithWarnings | .failed | .canceled => true
  | .queued | .running => false

def ScanStatus.text : ScanStatus → String
  | .queued => "queued"
  | .running => "running"
  | .completed => "completed"
  | .completedWithWarnings => "completed_with_warnings"
  | .failed => "failed"
  | .canceled => "canceled"

theorem ScanStatus.text_injective : Function.Injective ScanStatus.text := by
  intro s s' h
  revert h
  cases s <;> cases s' <;> decide

inductive ModuleStatus
  | queued
  | running
  | done
  | failed
  | skipped
  | notApplicable
  | interrupted
  deriving DecidableEq, Repr

def ModuleStatus.isTerminal : ModuleStatus → Bool
  | .done | .failed | .skipped | .notApplicable | .interrupted => true
  | .queued | .running => false

def ModuleStatus.text : ModuleStatus → String
  | .queued => "queued"
  | .running => "running"
  | .done => "done"
  | .failed => "failed"
  | .skipped => "skipped"
  | .notApplicable => "not_applicable"
  | .interrupted => "interrupted"

theorem ModuleStatus.text_injective : Function.Injective ModuleStatus.text := by
  intro s s' h
  revert h
  cases s <;> cases s' <;> decide

inductive TargetType
  | ip
  | cidr
  | host
  deriving DecidableEq, Repr

def TargetType.text : TargetType → String
  | .ip => "ip"
  | .cidr => "cidr"
  | .host => "host"

theorem TargetType.text_injective : Function.Injective TargetType.text := by
  intro s s' h
  revert h
  cases s <;> cases s' <;> decide

inductive FindingCategory
  | liveHost
  | portService
  | enumeration
  | vulnerability
  deriving DecidableEq, Repr

def FindingCategory.text : FindingCategory → String
  | .liveHost => "live_host"
  | .portService => "port_service"
  | .enumeration => "enumeration"
  | .vulnerability => "vulnerability"

theorem FindingCategory.text_injective : Function.Injective FindingCategory.text := by
  intro s s' h
  revert h
  cases s <;> cases s' <;> decide

inductive Confidence
  | low
  | medium
  | high
  deriving DecidableEq, Repr

def Confidence.text : Confidence → String
  | .low => "low"
  | .medium => "medium"
  | .high => "high"

theorem Confidence.text_injective : Function.Injective Confidence.text := by
  intro s s' h
  revert h
  cases s <;> cases s' <;> decide

/-! ### Findings -/

structure Finding where
  host : String
  category : FindingCategory
  kind : String
  title : String
  summary : String
  module : String
  identityKey : String
  port : Option ℤ
  normalizedValue : Json
  rawEvidence : Option String
  confidence : Option Confidence
  sources : List String
  observedAt : ℚ
  deriving DecidableEq, Repr

/-- `compute_fingerprint`, given the hex digest of a text's bytes. -/
def Finding.fingerprint (sha256 : String → String) (f : Finding) : String :=
  let port := match f.port with
    | none => ""
    | some port => toString port
  sha256 ("|".intercalate [f.module, f.kind, f.host, port, f.identityKey])

/-! ### Modules -/

/-- What the runner reads of a module. Timeouts are whole seconds, as every
module's are. -/
structure ModuleMetadata where
  name : String
  supportedTargets : List TargetType
  timeoutSeconds : ℕ
  order : ℤ
  deriving DecidableEq, Repr

def ModuleMetadata.appliesTo (m : ModuleMetadata) (t : TargetType) : Bool :=
  decide (t ∈ m.supportedTargets)

structure ModuleResult where
  findings : List Finding
  cacheHit : Bool
  warnings : List String
  deriving DecidableEq, Repr

/-- What a module is given and the runner decides on: its target, and what the
modules before it found. -/
structure ModuleContext where
  scanId : ℕ
  target : ValidatedTarget
  priorFindings : List Finding
  deriving DecidableEq

/-- `register` refuses a name that is taken. -/
structure ModuleRegistry where
  modules : List ModuleMetadata
  distinct : (modules.map (·.name)).Nodup

namespace ModuleRegistry

def has (registry : ModuleRegistry) (name : String) : Bool :=
  registry.modules.any (·.name == name)

def get (registry : ModuleRegistry) (name : String) : Except Exn ModuleMetadata :=
  match registry.modules.find? (·.name == name) with
  | some m => .ok m
  | none => .error (.failure (.other ("unknown module " ++ repr name)))

/-- `get` on each name, up to the first that is unknown. -/
def getAll (registry : ModuleRegistry) : List String → Except Exn (List ModuleMetadata)
  | [] => .ok []
  | name :: rest => do
    let m ← registry.get name
    let ms ← registry.getAll rest
    return m :: ms

/-- `sorted(selected, key=...)`: by ascending order, and as selected where the
order is the same. -/
def ordered (registry : ModuleRegistry) (selected : List String) :
    Except Exn (List ModuleMetadata) := do
  let ms ← registry.getAll selected
  return ms.insertionSort fun m m' => m.order ≤ m'.order

theorem get_of_has {registry : ModuleRegistry} {name : String} (h : registry.has name = true) :
    ∃ m, registry.get name = .ok m ∧ m.name = name := by
  unfold get
  cases hm : registry.modules.find? (·.name == name) with
  | none =>
    obtain ⟨m, hmem, hname⟩ := List.any_eq_true.mp h
    have hnone := List.find?_eq_none.mp hm m hmem
    exact absurd hname hnone
  | some m => exact ⟨m, rfl, by simpa using List.find?_some hm⟩

theorem getAll_of_has {registry : ModuleRegistry} : ∀ {selected : List String},
    (∀ name ∈ selected, registry.has name = true) →
    ∃ ms, registry.getAll selected = .ok ms ∧ ms.map (·.name) = selected
  | [], _ => ⟨[], rfl, rfl⟩
  | name :: rest, h => by
    obtain ⟨m, hm, hname⟩ := get_of_has (h name List.mem_cons_self)
    obtain ⟨ms, hms, hnames⟩ := getAll_of_has fun x hx => h x (List.mem_cons_of_mem _ hx)
    refine ⟨m :: ms, ?_, by rw [List.map_cons, hname, hnames]⟩
    unfold getAll
    rw [hm, hms]
    rfl

theorem getAll_cons_eq_ok {registry : ModuleRegistry} {name : String} {rest : List String}
    {modules : List ModuleMetadata} (h : registry.getAll (name :: rest) = .ok modules) :
    ∃ m ms, registry.get name = .ok m ∧ registry.getAll rest = .ok ms ∧ modules = m :: ms := by
  unfold getAll at h
  obtain ⟨m, hm, h⟩ := Raising.bind_eq_ok.mp h
  obtain ⟨ms, hms, h⟩ := Raising.bind_eq_ok.mp h
  exact ⟨m, ms, hm, hms, (Except.ok.inj h).symm⟩

theorem getAll_length {registry : ModuleRegistry} : ∀ {selected : List String}
    {modules : List ModuleMetadata}, registry.getAll selected = .ok modules →
    modules.length = selected.length
  | [], modules, h => by
    cases h
    rfl
  | name :: rest, modules, h => by
    obtain ⟨m, ms, -, hms, rfl⟩ := getAll_cons_eq_ok h
    rw [List.length_cons, List.length_cons, getAll_length hms]

theorem ordered_eq_ok {registry : ModuleRegistry} {selected : List String}
    {modules : List ModuleMetadata} (h : registry.ordered selected = .ok modules) :
    ∃ ms, registry.getAll selected = .ok ms ∧
      modules = ms.insertionSort fun m m' => m.order ≤ m'.order := by
  obtain ⟨ms, hms, h⟩ := Raising.bind_eq_ok.mp h
  exact ⟨ms, hms, (Except.ok.inj h).symm⟩

theorem ordered_length {registry : ModuleRegistry} {selected : List String}
    {modules : List ModuleMetadata} (h : registry.ordered selected = .ok modules) :
    modules.length = selected.length := by
  obtain ⟨ms, hms, rfl⟩ := ordered_eq_ok h
  rw [← getAll_length hms]
  exact List.length_insertionSort _ ms

/-- Registered modules can be put in order: the selection, permuted. -/
theorem ordered_of_has {registry : ModuleRegistry} {selected : List String}
    (h : ∀ name ∈ selected, registry.has name = true) :
    ∃ ms, registry.ordered selected = .ok ms ∧ (ms.map (·.name)).Perm selected := by
  obtain ⟨ms, hms, hnames⟩ := getAll_of_has h
  refine ⟨ms.insertionSort fun m m' => m.order ≤ m'.order, ?_, ?_⟩
  · unfold ordered
    rw [hms]
    rfl
  · rw [← hnames]
    exact (List.perm_insertionSort _ ms).map _

theorem get_eq_ok {registry : ModuleRegistry} {name : String} {m : ModuleMetadata}
    (h : registry.get name = .ok m) : m ∈ registry.modules ∧ m.name = name := by
  unfold get at h
  cases hm : registry.modules.find? (·.name == name) with
  | none => rw [hm] at h; cases h
  | some m' =>
    rw [hm] at h
    cases h
    exact ⟨List.mem_of_find?_eq_some hm, by simpa using List.find?_some hm⟩

theorem getAll_registered {registry : ModuleRegistry} : ∀ {selected : List String}
    {modules : List ModuleMetadata}, registry.getAll selected = .ok modules →
    ∀ m ∈ modules, m ∈ registry.modules
  | [], modules, h => by
    cases h
    nofun
  | name :: rest, modules, h => by
    obtain ⟨m, ms, hm, hms, rfl⟩ := getAll_cons_eq_ok h
    intro m' hm'
    rcases List.mem_cons.mp hm' with rfl | hm'
    · exact (get_eq_ok hm).1
    · exact getAll_registered hms m' hm'

theorem eq_of_name {registry : ModuleRegistry} {m m' : ModuleMetadata}
    (h : m ∈ registry.modules) (h' : m' ∈ registry.modules) (hname : m.name = m'.name) : m = m' :=
  List.inj_on_of_nodup_map registry.distinct h h' hname

/-- The modules in order are those registered under the selected names. -/
theorem mem_ordered {registry : ModuleRegistry} {selected : List String}
    {modules : List ModuleMetadata} (h : registry.ordered selected = .ok modules)
    (hnames : (modules.map (·.name)).Perm selected) (m : ModuleMetadata) :
    m ∈ modules ↔ m ∈ registry.modules ∧ m.name ∈ selected := by
  have hregistered : ∀ m ∈ modules, m ∈ registry.modules := by
    obtain ⟨ms, hms, rfl⟩ := ordered_eq_ok h
    intro m hm
    exact getAll_registered hms m ((List.mem_insertionSort _).mp hm)
  constructor
  · intro hm
    exact ⟨hregistered m hm, hnames.subset (List.mem_map_of_mem hm)⟩
  · rintro ⟨hm, hname⟩
    obtain ⟨m', hm', hname'⟩ := List.mem_map.mp (hnames.mem_iff.mpr hname)
    rwa [eq_of_name hm (hregistered m' hm') hname'.symm]

theorem pairwise_ordered {registry : ModuleRegistry} {selected : List String}
    {modules : List ModuleMetadata} (h : registry.ordered selected = .ok modules) :
    modules.Pairwise fun m m' => m.order ≤ m'.order := by
  obtain ⟨ms, -, rfl⟩ := ordered_eq_ok h
  have htotal : Std.Total fun m m' : ModuleMetadata => m.order ≤ m'.order :=
    ⟨fun m m' => le_total m.order m'.order⟩
  have htrans : IsTrans ModuleMetadata fun m m' => m.order ≤ m'.order :=
    ⟨fun _ _ _ => le_trans⟩
  exact List.pairwise_insertionSort _ ms

end ModuleRegistry

/-- `register_builtin_modules`. -/
def builtinModules : ModuleRegistry where
  modules :=
    [⟨"host_discovery", [.ip, .cidr, .host], 600, 10⟩, ⟨"port_scan", [.ip, .cidr, .host], 1800, 20⟩,
      ⟨"service_detect", [.ip, .cidr, .host], 900, 30⟩,
      ⟨"protocol_enum", [.ip, .cidr, .host], 900, 40⟩]
  distinct := by decide

end ScanLedger
