/-
# Host discovery

`app/modules/host_discovery.py`: a connect probe of each address on one port after
the other, until one of them gets an answer. Accepted or refused, an answer proves
the host alive, and the finding names the port that it came from
(`mem_hostDiscovery`).

Key definitions: `probeOnce`, `aliveFinding`, `probeHost`, `hostDiscovery`.
Key theorems: `probeHost_eq_some`, `mem_hostDiscovery`.
-/
import ScanLedger.PortScan

namespace ScanLedger

/-- `MODULE_NAME`. -/
def hostDiscoveryName : String := "host_discovery"

/-- `_probe_once`: the evidence, if the host answered. -/
def probeOnce (port : ℤ) : ProbeOutcome → Except Exn (Option String)
  | .accepted => .ok (some ("tcp/" ++ toString port ++ " accepted a connection"))
  | .refused => .ok (some ("tcp/" ++ toString port ++ " refused the connection"))
  | .timeout => .ok none
  | .osError => .ok none
  | .raised x => .error x

/-- `_alive_finding`. -/
def aliveFinding (clock : String → Option ℤ → ℚ) (address : IPAddress) (port : ℤ)
    (evidence : String) : Finding where
  host := address.str
  category := .liveHost
  kind := "host.live"
  title := address.str ++ " is alive"
  summary := "Responded on " ++ evidence ++ "."
  module := hostDiscoveryName
  identityKey := "alive"
  port := none
  normalizedValue := .object [("address", .str address.str), ("proved_by_port", .int port)]
  rawEvidence := some evidence
  confidence := some .high
  sources := []
  observedAt := clock address.str none

section

variable (clock : String → Option ℤ → ℚ) (probes : Probes)

/-- The probes of an address. -/
def probeHost (address : IPAddress) : List ℤ → Except Exn (Option Finding)
  | [] => .ok none
  | port :: ports =>
    if probes.cancelled address port then .ok none
    else do match ← probeOnce port (probes.connect address port) with
      | some evidence => return some (aliveFinding clock address port evidence)
      | none => probeHost address ports

def discoveryWarnings (budgetReached : Bool) : List String :=
  if budgetReached then ["the governor's probe budget was reached before every address was " ++
    "examined; hosts beyond that point were not tested"] else []

/-- `run`. -/
def hostDiscovery (target : ValidatedTarget) (options : JsonFields) : Except Exn ModuleResult := do
  let ports ← resolveDiscoveryPorts options
  let addresses ← (iterTargetAddresses target).list
  let (findings, budgetReached) ← collectOutcomes
    (inBoundedWaves (probeHost clock probes · ports) addresses defaultWaveSize)
  return { findings, cacheHit := false, warnings := discoveryWarnings budgetReached }

end

/-! ### What is found -/

section

variable {clock : String → Option ℤ → ℚ} {probes : Probes} {a : IPAddress} {f : Finding}

/-- The probe of this port was made and got an answer, and the finding says so. -/
structure ProvedBy (clock : String → Option ℤ → ℚ) (probes : Probes) (a : IPAddress)
    (port : ℤ) (f : Finding) : Prop where
  made : probes.cancelled a port = false
  answered : probes.connect a port = .accepted ∨ probes.connect a port = .refused
  finding : ∃ evidence, probeOnce port (probes.connect a port) = .ok (some evidence) ∧
    f = aliveFinding clock a port evidence

theorem answered_of_probeOnce {port : ℤ} {outcome : ProbeOutcome} {evidence : String}
    (h : probeOnce port outcome = .ok (some evidence)) :
    outcome = .accepted ∨ outcome = .refused := by
  cases outcome with
  | accepted => exact .inl rfl
  | refused => exact .inr rfl
  | timeout => cases h
  | osError => cases h
  | raised x => cases h

theorem probeHost_eq_some : ∀ {ports : List ℤ}, probeHost clock probes a ports = .ok (some f) →
    ∃ port ∈ ports, ProvedBy clock probes a port f
  | [], h => by cases h
  | port :: ports, h => by
    rw [probeHost] at h
    split_ifs at h with hcancelled
    · cases h
    · obtain ⟨evidence, hprobe, h⟩ := Raising.bind_eq_ok.mp h
      cases evidence with
      | none =>
        obtain ⟨port', hport', hproved⟩ := probeHost_eq_some h
        exact ⟨port', List.mem_cons_of_mem port hport', hproved⟩
      | some evidence =>
        cases h
        exact ⟨port, List.mem_cons_self, eq_false_of_ne_true hcancelled,
          answered_of_probeOnce hprobe, evidence, hprobe, rfl⟩

/-- **Alive** is what a probe of one of the ports proved. -/
theorem mem_hostDiscovery {target : ValidatedTarget} {options : JsonFields}
    {result : ModuleResult} (h : hostDiscovery clock probes target options = .ok result)
    (hf : f ∈ result.findings) : ∃ ports addresses, resolveDiscoveryPorts options = .ok ports ∧
      (iterTargetAddresses target).list = .ok addresses ∧
      ∃ a ∈ addresses, ∃ port ∈ ports, ProvedBy clock probes a port f := by
  obtain ⟨ports, hports, h⟩ := Raising.bind_eq_ok.mp h
  obtain ⟨addresses, haddresses, h⟩ := Raising.bind_eq_ok.mp h
  obtain ⟨⟨findings, budgetReached⟩, hcollected, h⟩ := Raising.bind_eq_ok.mp h
  cases h
  obtain ⟨a, ha, hprobe⟩ := mem_of_inBoundedWaves hcollected hf
  exact ⟨ports, addresses, hports, haddresses, a, ha, probeHost_eq_some hprobe⟩

end

end ScanLedger
