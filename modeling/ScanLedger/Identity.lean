/-
# The identity of a finding

`compute_fingerprint` of `app/models/findings.py`: module, kind, host, port and
identity key are joined with pipes, and the text is hashed. The host may have pipes
of its own, as in the scope id of an IPv6 address, and the text of an absent port is
empty. No other field has a pipe in it, so two of them are read from the left of the
text and two from its right, and the host is what is left (`parts_injOn`).

The built-in modules write no pipe into a module, a kind or a key: each finding has
a kind of its module, and the key is one text for the kind, followed by the port
(`labelled`). So two of their findings that share a fingerprint have one identity,
unless the hash collides on their texts (`fingerprint_identifies`).

Key definitions: `FindingIdentity`, `FindingIdentity.parts`, `FindingIdentity.Plain`,
`BuiltinModule.Labels`, `BuiltinRun`, `BuiltinFinding`.
Key theorems: `parts_injOn`, `labelled`, `plain_of_builtin`, `fingerprint_identifies`.
-/
import ScanLedger.Enumeration
import ScanLedger.HostDiscovery
import ScanLedger.Lib.Fields

namespace ScanLedger

/-! ### The text that is hashed -/

structure FindingIdentity where
  module : String
  kind : String
  host : String
  port : Option ℤ
  identityKey : String
  deriving DecidableEq, Repr

def portText : Option ℤ → String
  | none => ""
  | some port => toString port

/-- The `parts` of `compute_fingerprint`. -/
def FindingIdentity.parts (i : FindingIdentity) : String :=
  "|".intercalate [i.module, i.kind, i.host, portText i.port, i.identityKey]

def Finding.identity (f : Finding) : FindingIdentity :=
  ⟨f.module, f.kind, f.host, f.port, f.identityKey⟩

theorem fingerprint_eq (sha256 : String → String) (f : Finding) :
    f.fingerprint sha256 = sha256 f.identity.parts := rfl

namespace FindingIdentity

variable {i : FindingIdentity}

/-- No pipe in the module, the kind and the key. -/
structure Plain (i : FindingIdentity) : Prop where
  module : '|' ∉ i.module.toList
  kind : '|' ∉ i.kind.toList
  identityKey : '|' ∉ i.identityKey.toList

/-- The fields around the host. -/
def record (i : FindingIdentity) : Fields.Record Char :=
  ⟨[i.module.toList, i.kind.toList], i.host.toList,
    [(portText i.port).toList, i.identityKey.toList]⟩

theorem toList_parts (i : FindingIdentity) : i.parts.toList = Fields.write '|' i.record := by
  unfold parts Fields.write
  rw [String.toList_intercalate]
  rfl

theorem pipe_notMem_portText (port : Option ℤ) : '|' ∉ (portText port).toList := by
  cases port with
  | none => exact List.not_mem_nil
  | some port =>
    intro hmem
    rcases mem_toString_int hmem with hdash | hhex
    · exact absurd hdash (by decide)
    · exact absurd hhex (by decide)

/-- The port `None` is not that of any number. -/
theorem portText_injective : Function.Injective portText := by
  intro port port' h
  cases port with
  | none =>
    cases port' with
    | none => rfl
    | some n => exact absurd h.symm toString_int_ne_empty
  | some m =>
    cases port' with
    | none => exact absurd h toString_int_ne_empty
    | some n => rw [toString_int_injective h]

theorem record_injective : Function.Injective record := by
  intro i i' h
  obtain ⟨module, kind, host, port, identityKey⟩ := i
  obtain ⟨module', kind', host', port', identityKey'⟩ := i'
  simp only [record, Fields.Record.mk.injEq, List.cons.injEq, String.toList_inj, and_true] at h
  obtain ⟨⟨rfl, rfl⟩, rfl, hport, rfl⟩ := h
  rw [portText_injective hport]

theorem Plain.around (h : i.Plain) : Fields.Around '|' 2 2 i.record where
  before_length := rfl
  after_length := rfl
  before_clear := by
    simp only [record, List.forall_mem_cons]
    exact ⟨h.module, h.kind, by simp⟩
  after_clear := by
    simp only [record, List.forall_mem_cons]
    exact ⟨pipe_notMem_portText i.port, h.identityKey, by simp⟩

/-- **Without ambiguity.** The text determines the identity, whatever the host is. -/
theorem parts_injOn : Set.InjOn parts {i | i.Plain} := by
  intro i hi i' hi' h
  refine record_injective (Fields.write_injOn 2 2 hi.around hi'.around ?_)
  rw [← toList_parts, ← toList_parts, h]

end FindingIdentity

/-! ### What the built-in modules find -/

inductive BuiltinModule
  | hostDiscovery
  | portScan
  | serviceDetect
  | protocolEnum
  deriving DecidableEq, Repr

namespace BuiltinModule

/-- The name in the registry. -/
def name : BuiltinModule → String
  | hostDiscovery => "host_discovery"
  | portScan => "port_scan"
  | serviceDetect => "service_detect"
  | protocolEnum => "protocol_enum"

/-- The kinds of the module's findings, each with the identity key up to the port. -/
def labels : BuiltinModule → List (String × String)
  | hostDiscovery => [("host.live", "alive")]
  | portScan => [("port.open", "tcp/"), ("port.summary", "tcp-summary")]
  | serviceDetect => [("service.detected", "service/")]
  | protocolEnum => [("tls.session", "tls/"), ("tls.cert", "tls/"), ("http.response", "http/"),
    ("http.robots", "robots/")]

/-- The finding is labelled as the module labels its findings. -/
structure Labels (m : BuiltinModule) (f : Finding) : Prop where
  module : f.module = m.name
  key : ∃ key, (f.kind, key) ∈ m.labels ∧ f.identityKey = key ++ portText f.port

example : [hostDiscovery, portScan, serviceDetect, protocolEnum].map name =
    builtinModules.modules.map (·.name) := by decide

theorem pipe_notMem_labels (m : BuiltinModule) : '|' ∉ m.name.toList ∧
    ∀ label ∈ m.labels, '|' ∉ label.1.toList ∧ '|' ∉ label.2.toList := by
  cases m <;> decide

/-- What a module labels has no pipe around its host. -/
theorem Labels.plain {m : BuiltinModule} {f : Finding} (h : m.Labels f) : f.identity.Plain := by
  obtain ⟨hmodule, key, hlabel, hkey⟩ := h
  obtain ⟨hname, hlabels⟩ := pipe_notMem_labels m
  obtain ⟨hkind, hpipe⟩ := hlabels _ hlabel
  refine ⟨?_, hkind, ?_⟩
  · change '|' ∉ f.module.toList
    rwa [hmodule]
  · change '|' ∉ f.identityKey.toList
    rw [hkey, String.toList_append, List.mem_append, not_or]
    exact ⟨hpipe, FindingIdentity.pipe_notMem_portText f.port⟩

end BuiltinModule

/-- A run of a built-in module, with what it is given apart from its target. -/
inductive BuiltinRun
  | hostDiscovery (probes : Probes) (options : JsonFields)
  | portScan (probes : Probes) (options : JsonFields)
  | serviceDetect (services : Services) (priorFindings : List Finding)
  | protocolEnum (u : CharTables) (web : WebServices) (priorFindings : List Finding)

namespace BuiltinRun

def module : BuiltinRun → BuiltinModule
  | hostDiscovery .. => .hostDiscovery
  | portScan .. => .portScan
  | serviceDetect .. => .serviceDetect
  | protocolEnum .. => .protocolEnum

def result (clock : String → Option ℤ → ℚ) (target : ValidatedTarget) :
    BuiltinRun → Except Exn ModuleResult
  | hostDiscovery probes options => ScanLedger.hostDiscovery clock probes target options
  | portScan probes options => ScanLedger.portScan clock probes target options
  | serviceDetect services priorFindings =>
    ScanLedger.serviceDetect services target clock priorFindings
  | protocolEnum u web priorFindings => ScanLedger.protocolEnum u web target clock priorFindings

end BuiltinRun

section

variable {clock : String → Option ℤ → ℚ} {target : ValidatedTarget} {result : ModuleResult}
  {f : Finding}

theorem labels_hostDiscovery {probes : Probes} {options : JsonFields}
    (h : hostDiscovery clock probes target options = .ok result)
    (hf : f ∈ result.findings) : BuiltinModule.hostDiscovery.Labels f := by
  obtain ⟨ports, addresses, -, -, a, -, port, -, hproved⟩ := mem_hostDiscovery h hf
  obtain ⟨evidence, -, rfl⟩ := hproved.finding
  exact ⟨rfl, "alive", by simp [BuiltinModule.labels, aliveFinding], rfl⟩

theorem labels_portScan {probes : Probes} {options : JsonFields}
    (h : portScan clock probes target options = .ok result)
    (hf : f ∈ result.findings) : BuiltinModule.portScan.Labels f := by
  obtain ⟨⟨observations, budgetReached⟩, -, h⟩ := Raising.bind_eq_ok.mp h
  cases h
  obtain ⟨⟨host, group⟩, -, hf⟩ := List.mem_flatMap.mp hf
  rcases List.mem_append.mp hf with hf | hf
  · obtain ⟨port, -, rfl⟩ := List.mem_map.mp hf
    exact ⟨rfl, "tcp/", by simp [BuiltinModule.labels, portFinding], rfl⟩
  · rw [List.mem_singleton.mp hf]
    exact ⟨rfl, "tcp-summary", by simp [BuiltinModule.labels, summaryFinding], rfl⟩

theorem labels_serviceDetect {services : Services} {priorFindings : List Finding}
    (h : serviceDetect services target clock priorFindings = .ok result)
    (hf : f ∈ result.findings) : BuiltinModule.serviceDetect.Labels f := by
  obtain ⟨host, port, guess, banner, -, rfl⟩ := mem_serviceDetect h hf
  exact ⟨rfl, "service/", by simp [BuiltinModule.labels, serviceFinding], rfl⟩

theorem labels_protocolEnum {u : CharTables} {web : WebServices} {priorFindings : List Finding}
    (h : protocolEnum u web target clock priorFindings = .ok result)
    (hf : f ∈ result.findings) : BuiltinModule.protocolEnum.Labels f := by
  obtain ⟨host, port, -, hpublished⟩ := mem_protocolEnum h hf
  cases hpublished with
  | certificate tls h =>
    obtain ⟨der, -, rfl⟩ := Option.map_eq_some_iff.mp h
    cases parseCertificate web.x509 der with
    | none => exact ⟨rfl, "tls/", by simp [BuiltinModule.labels, sessionFinding], rfl⟩
    | some details => exact ⟨rfl, "tls/", by simp [BuiltinModule.labels, detailsFinding], rfl⟩
  | response response useTls h =>
    rw [List.mem_singleton.mp h]
    exact ⟨rfl, "http/", by simp [BuiltinModule.labels], rfl⟩
  | directives response h =>
    unfold robotsFinding at h
    dsimp only at h
    split_ifs at h
    cases h
    exact ⟨rfl, "robots/", by simp [BuiltinModule.labels], rfl⟩

/-- Each module labels its findings. -/
theorem labelled {run : BuiltinRun} (h : run.result clock target = .ok result)
    (hf : f ∈ result.findings) : run.module.Labels f := by
  cases run with
  | hostDiscovery probes options => exact labels_hostDiscovery h hf
  | portScan probes options => exact labels_portScan h hf
  | serviceDetect services priorFindings => exact labels_serviceDetect h hf
  | protocolEnum u web priorFindings => exact labels_protocolEnum h hf

end

/-- A finding that a built-in module observed in some run, of any scan. -/
def BuiltinFinding (f : Finding) : Prop :=
  ∃ (run : BuiltinRun) (clock : String → Option ℤ → ℚ) (target : ValidatedTarget)
    (result : ModuleResult), run.result clock target = .ok result ∧ f ∈ result.findings

theorem plain_of_builtin {f : Finding} (h : BuiltinFinding f) : f.identity.Plain := by
  obtain ⟨run, clock, target, result, hresult, hf⟩ := h
  exact (labelled hresult hf).plain

/-- **Fingerprints** tell the findings of the built-in modules apart: the text that is
hashed determines the identity, so on texts without a collision the hash does. -/
theorem fingerprint_identifies :
    (∀ i i' : FindingIdentity, i.Plain → i'.Plain → i.parts = i'.parts → i = i') ∧
      ∀ (sha256 : String → String) (texts : Set String), Set.InjOn sha256 texts →
        ∀ f f' : Finding, BuiltinFinding f → BuiltinFinding f' →
          f.identity.parts ∈ texts → f'.identity.parts ∈ texts →
            f.fingerprint sha256 = f'.fingerprint sha256 → f.identity = f'.identity := by
  refine ⟨fun i i' hi hi' h => FindingIdentity.parts_injOn hi hi' h, ?_⟩
  intro sha256 texts hno f f' hf hf' htext htext' h
  rw [fingerprint_eq, fingerprint_eq] at h
  have hparts : f.identity.parts = f'.identity.parts := hno htext htext' h
  exact FindingIdentity.parts_injOn (plain_of_builtin hf) (plain_of_builtin hf') hparts

/-- An address with a pipe in its scope id. -/
def pipedAddress : IPAddress := ⟨.v6, 1, some "a|", by decide, nofun, by decide⟩

def scopedAddress : IPAddress := ⟨.v6, 1, some "a", by decide, nofun, by decide⟩

/-- The finding that the first discovery port proves an address alive. -/
def aliveAt (a : IPAddress) : Finding :=
  aliveFinding (fun _ _ => 0) a 80 "tcp/80 accepted a connection"

theorem builtinFinding_aliveAt (a : IPAddress) : BuiltinFinding (aliveAt a) :=
  ⟨.hostDiscovery openProbes .nil, fun _ _ => 0, ⟨a.str, .ip, [a], none⟩,
    ⟨[aliveAt a], false, []⟩, rfl, List.mem_singleton_self _⟩

theorem fingerprint_identifies_piped :
    (aliveAt pipedAddress).identity.parts ≠ (aliveAt scopedAddress).identity.parts ∧
      (aliveAt pipedAddress).fingerprint id ≠ (aliveAt scopedAddress).fingerprint id := by
  have hne : (aliveAt pipedAddress).identity ≠ (aliveAt scopedAddress).identity := by
    intro h
    have haddress : pipedAddress = scopedAddress :=
      str_injective (congrArg FindingIdentity.host h)
    exact absurd haddress (by decide)
  have hpiped := builtinFinding_aliveAt pipedAddress
  have hscoped := builtinFinding_aliveAt scopedAddress
  refine ⟨fun h => hne ?_, fun h => hne ?_⟩
  · exact fingerprint_identifies.1 _ _ (plain_of_builtin hpiped) (plain_of_builtin hscoped) h
  · exact fingerprint_identifies.2 id Set.univ Function.injective_id.injOn _ _ hpiped hscoped
      trivial trivial h

end ScanLedger
