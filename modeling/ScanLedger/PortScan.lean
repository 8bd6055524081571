/-
# The port scan

`app/modules/port_scan.py`: a connect probe for each address and port, issued in
bounded waves, and the findings made of what the probes observed. What a probe
comes to, and whether it finds a cancel requested, is the environment's choice.
What is observed is reported in full: a summary for each host that counts its
ports by state, and a finding for each open one. What is not observed is
reported by a warning if the budget was reached; a probe that was skipped since
a cancel was requested leaves no trace (`portScan_reports_iff`).

Key definitions: `Probes`, `collectOutcomes`, `toFindings`, `portScan`, `TestsReported`.
Key theorems: `collectOutcomes_eq`, `scanPorts_eq`, `filter_observations`,
`portScan_reports_iff`.
-/
import ScanLedger.Domain
import ScanLedger.Expansion
import ScanLedger.Lib.Waves
import ScanLedger.Printing

namespace ScanLedger

/-! ### Probes -/

/-- What `guard.connect` comes to, by the clause that deals with it. -/
inductive ProbeOutcome
  | accepted
  /-- `ConnectionRefusedError`. -/
  | refused
  | timeout
  /-- Any other `OSError`. -/
  | osError
  | raised (x : Exn)
  deriving DecidableEq, Repr

/-- What each probe finds: whether a cancel was requested by then, and what its
connection comes to. -/
structure Probes where
  cancelled : IPAddress → ℤ → Bool
  connect : IPAddress → ℤ → ProbeOutcome

inductive PortState
  | opened
  | closed
  | filtered
  deriving DecidableEq, Repr

def PortState.text : PortState → String
  | .opened => "open"
  | .closed => "closed"
  | .filtered => "filtered"

structure PortObservation where
  address : String
  port : ℤ
  state : PortState
  deriving DecidableEq, Repr

/-- `_probe_state`. -/
def probeState : ProbeOutcome → Except Exn PortState
  | .refused => .ok .closed
  | .timeout => .ok .filtered
  | .osError => .ok .filtered
  | .accepted => .ok .opened
  | .raised x => .error x

def probe (probes : Probes) (pair : IPAddress × ℤ) : Except Exn (Option PortObservation) :=
  if probes.cancelled pair.1 pair.2 then .ok none
  else do
    let state ← probeState (probes.connect pair.1 pair.2)
    return some ⟨pair.1.str, pair.2, state⟩

/-! ### Outcomes -/

def defaultWaveSize : ℕ := 256

/-- What `in_bounded_waves` yields, wave by wave. -/
def inBoundedWaves {φ β : Type} (run : φ → Except Exn β) (factories : List φ) (waveSize : ℕ) :
    List (Except Exn β) :=
  (Waves.waves waveSize factories).flatMap fun wave => wave.map run

/-- The loop of the modules over the outcomes of their probes: it collects what
was found, notes whether the budget was reached, and raises any other
exception. -/
def collectOutcomes {β : Type} : List (Except Exn (Option β)) → Except Exn (List β × Bool)
  | [] => .ok ([], false)
  | .error (.budgetExceeded _) :: rest => do
    let (found, _) ← collectOutcomes rest
    return (found, true)
  | .error x :: _ => .error x
  | .ok none :: rest => collectOutcomes rest
  | .ok (some b) :: rest => do
    let (found, budgetReached) ← collectOutcomes rest
    return (b :: found, budgetReached)

/-! ### Findings -/

/-- `MODULE_NAME`. -/
def portScanName : String := "port_scan"

section

variable (clock : String → Option ℤ → ℚ) (host : String)

/-- The finding of an open port. -/
def portFinding (port : ℤ) : Finding where
  host := host
  port := some port
  category := .portService
  kind := "port.open"
  title := host ++ ":" ++ toString port ++ "/tcp is open"
  summary := "A TCP connect to port " ++ toString port ++ " was accepted."
  module := portScanName
  identityKey := "tcp/" ++ toString port
  normalizedValue := .object [("port", .int port), ("protocol", .str "tcp"),
    ("state", .str PortState.opened.text)]
  rawEvidence := some ("connect() to " ++ host ++ ":" ++ toString port ++ " succeeded")
  confidence := some .high
  sources := []
  observedAt := clock host (some port)

/-- The ports of the observations in a state. -/
def portsIn (state : PortState) (observations : List PortObservation) : List ℤ :=
  (observations.filter fun o => o.state = state).map (·.port)

def summaryFinding (observations : List PortObservation) : Finding :=
  let openPorts := (portsIn .opened observations).insertionSort (· ≤ ·)
  let closed := (portsIn .closed observations).length
  let filtered := (portsIn .filtered observations).length
  { host := host
    port := none
    category := .portService
    kind := "port.summary"
    title := host ++ ": " ++ toString openPorts.length ++ " open of " ++
      toString observations.length ++ " probed"
    summary := toString openPorts.length ++ " open, " ++ toString closed ++ " closed, " ++
      toString filtered ++ " filtered across " ++ toString observations.length ++
      " probed TCP ports."
    module := portScanName
    identityKey := "tcp-summary"
    normalizedValue := .object [("probed", .int observations.length),
      ("open", .array (openPorts.map .int)), ("closed_count", .int closed),
      ("filtered_count", .int filtered)]
    rawEvidence := none
    confidence := some .high
    sources := []
    observedAt := clock host none }

/-- The findings of one host. -/
def hostFindings (observations : List PortObservation) : List Finding :=
  ((portsIn .opened observations).insertionSort (· ≤ ·)).map (portFinding clock host) ++
    [summaryFinding clock host observations]

end

/-- `_to_findings`. -/
def toFindings (clock : String → Option ℤ → ℚ) (observations : List PortObservation) :
    List Finding :=
  (Groups.collect PortObservation.address id observations).flatMap fun group =>
    hostFindings clock group.1 group.2

/-! ### The module -/

/-- The probes of `run`, in order. -/
def factories (addresses : List IPAddress) (ports : List ℤ) : List (IPAddress × ℤ) :=
  addresses.flatMap fun a => ports.map fun port => (a, port)

/-- `run` up to its findings: what was observed, and whether the budget was
reached. -/
def scanPorts (probes : Probes) (target : ValidatedTarget) (options : JsonFields) :
    Except Exn (List PortObservation × Bool) := do
  let ports ← resolvePorts options
  let addresses ← (iterTargetAddresses target).list
  collectOutcomes (inBoundedWaves (probe probes) (factories addresses ports) defaultWaveSize)

/-- The warnings of `run`. -/
def portScanWarnings (budgetReached : Bool) : List String :=
  if budgetReached then ["the governor's probe budget was reached before every port was " ++
    "tested; untested ports are not reported as closed"] else []

/-- `run`. -/
def portScan (clock : String → Option ℤ → ℚ) (probes : Probes) (target : ValidatedTarget)
    (options : JsonFields) : Except Exn ModuleResult := do
  let (observations, budgetReached) ← scanPorts probes target options
  return {
    findings := toFindings clock observations
    cacheHit := false
    warnings := portScanWarnings budgetReached }

/-! ### What is observed -/

section

variable {probes : Probes} {a : IPAddress} {port : ℤ} {ports : List ℤ} {addresses : List IPAddress}

/-- The state a probe observes, if it observes one. -/
def Probes.state (probes : Probes) (a : IPAddress) (port : ℤ) : Option PortState :=
  if probes.cancelled a port then none else (probeState (probes.connect a port)).toOption

/-- The probe is made, and the governor's budget was reached. -/
def Probes.ReachesBudget (probes : Probes) (a : IPAddress) (port : ℤ) : Prop :=
  probes.cancelled a port = false ∧ ∃ e, probes.connect a port = .raised (.budgetExceeded e)

def observation (probes : Probes) (a : IPAddress) (port : ℤ) : Option PortObservation :=
  (probes.state a port).map fun state => ⟨a.str, port, state⟩

/-- What is observed of an address. -/
def hostObservations (probes : Probes) (ports : List ℤ) (a : IPAddress) : List PortObservation :=
  ports.filterMap (observation probes a)

/-- A probe that raises is made. -/
theorem probe_eq_error {x : Exn} (h : probe probes (a, port) = .error x) :
    probes.cancelled a port = false ∧ probes.connect a port = .raised x := by
  unfold probe at h
  split_ifs at h with hc
  refine ⟨by simpa using hc, ?_⟩
  cases ho : probes.connect a port <;> rw [ho] at h <;> cases h
  rfl

theorem probe_toOption : (probe probes (a, port)).toOption.join = observation probes a port := by
  unfold probe observation Probes.state
  dsimp only
  by_cases hc : probes.cancelled a port = true
  · rw [if_pos hc, if_pos hc]
    rfl
  · rw [if_neg hc, if_neg hc]
    cases probeState (probes.connect a port) <;> rfl

/-- The loop, where nothing but the budget is raised. -/
theorem collectOutcomes_eq {β : Type} : ∀ {outcomes : List (Except Exn (Option β))},
    (∀ x, .error x ∈ outcomes → ∃ e, x = .budgetExceeded e) →
      collectOutcomes outcomes = .ok (outcomes.filterMap fun r => r.toOption.join,
        outcomes.any fun r => r.toOption.isNone)
  | [], _ => rfl
  | r :: rest, h => by
    have ih := collectOutcomes_eq fun x hx => h x (List.mem_cons_of_mem r hx)
    cases r with
    | error x =>
      obtain ⟨e, rfl⟩ := h x List.mem_cons_self
      rw [collectOutcomes, ih]
      rfl
    | ok found =>
      cases found with
      | none =>
        rw [collectOutcomes, ih]
        rfl
      | some b =>
        rw [collectOutcomes, ih]
        rfl

/-- What the loop collects, some outcome brought. -/
theorem mem_of_collectOutcomes {β : Type} {outcomes : List (Except Exn (Option β))}
    {found : List β} {budgetReached : Bool} {b : β}
    (h : collectOutcomes outcomes = .ok (found, budgetReached)) (hb : b ∈ found) :
    .ok (some b) ∈ outcomes := by
  induction outcomes using collectOutcomes.induct generalizing found budgetReached with
  | case1 =>
    cases h
    cases hb
  | case2 e rest ih =>
    obtain ⟨⟨more, _⟩, hrest, h⟩ := Raising.bind_eq_ok.mp h
    cases h
    exact List.mem_cons_of_mem _ (ih hrest hb)
  | case3 x rest hx => cases x with
    | budgetExceeded e => exact absurd rfl (hx e)
    | _ => cases h
  | case4 rest ih => exact List.mem_cons_of_mem _ (ih h hb)
  | case5 b' rest ih =>
    obtain ⟨⟨more, _⟩, hrest, h⟩ := Raising.bind_eq_ok.mp h
    cases h
    rcases List.mem_cons.mp hb with rfl | hb
    · exact List.mem_cons_self
    · exact List.mem_cons_of_mem _ (ih hrest hb)
theorem inBoundedWaves_eq {φ β : Type} (run : φ → Except Exn β) (fs : List φ) (waveSize : ℕ) :
    inBoundedWaves run fs waveSize = fs.map run := by
  unfold inBoundedWaves
  rw [List.flatMap_def, ← List.map_flatten, Waves.flatten_waves]

/-- What a module collects, some factory of its waves brought. -/
theorem mem_of_inBoundedWaves {φ β : Type} {run : φ → Except Exn (Option β)} {fs : List φ}
    {waveSize : ℕ} {found : List β} {budgetReached : Bool} {b : β}
    (h : collectOutcomes (inBoundedWaves run fs waveSize) = .ok (found, budgetReached))
    (hb : b ∈ found) : ∃ f ∈ fs, run f = .ok (some b) := by
  have hmem := mem_of_collectOutcomes h hb
  rw [inBoundedWaves_eq] at hmem
  exact List.mem_map.mp hmem

theorem mem_factories : (a, port) ∈ factories addresses ports ↔ a ∈ addresses ∧ port ∈ ports := by
  simp [factories]

theorem filterMap_factories : (factories addresses ports).filterMap
    (fun pair => observation probes pair.1 pair.2) =
      addresses.flatMap (hostObservations probes ports) := by
  unfold factories
  rw [List.filterMap_flatMap]
  refine List.flatMap_congr fun a _ => ?_
  rw [List.filterMap_map]
  rfl

/-- Any exception that ends a probe is the budget's. -/
def Probes.OnlyBudget (probes : Probes) : Prop :=
  ∀ a port x, probes.connect a port = .raised x → ∃ e, x = .budgetExceeded e

theorem scanPorts_eq {target : ValidatedTarget} {options : JsonFields}
    (hports : resolvePorts options = .ok ports)
    (haddresses : (iterTargetAddresses target).list = .ok addresses) (h : probes.OnlyBudget) :
    scanPorts probes target options = .ok (addresses.flatMap (hostObservations probes ports),
      (factories addresses ports).any fun pair => (probe probes pair).toOption.isNone) := by
  have honly : ∀ x, .error x ∈ (factories addresses ports).map (probe probes) →
      ∃ e, x = .budgetExceeded e := by
    intro x hx
    obtain ⟨⟨a, port⟩, -, hprobe⟩ := List.mem_map.mp hx
    exact h a port x (probe_eq_error hprobe).2
  have hjoin : (fun pair => (probe probes pair).toOption.join) =
      fun pair : IPAddress × ℤ => observation probes pair.1 pair.2 :=
    funext fun pair => probe_toOption
  unfold scanPorts
  rw [hports, haddresses]
  change collectOutcomes (inBoundedWaves (probe probes) (factories addresses ports) _) = _
  rw [inBoundedWaves_eq, collectOutcomes_eq honly, List.filterMap_map, List.any_map,
    ← filterMap_factories, ← hjoin]
  rfl

theorem portScan_eq {clock : String → Option ℤ → ℚ} {target : ValidatedTarget}
    {options : JsonFields} {observations : List PortObservation} {budgetReached : Bool}
    (h : scanPorts probes target options = .ok (observations, budgetReached)) :
    portScan clock probes target options = .ok
      ⟨toFindings clock observations, false, portScanWarnings budgetReached⟩ := by
  unfold portScan
  rw [h]
  rfl

/-! ### Grouping by host -/

theorem address_of_mem {o : PortObservation} (h : o ∈ hostObservations probes ports a) :
    o.address = a.str := by
  obtain ⟨port, -, ho⟩ := List.mem_filterMap.mp h
  obtain ⟨state, -, rfl⟩ := Option.map_eq_some_iff.mp ho
  rfl

/-- The observations of an address are found by its text. -/
theorem filter_observations (hnodup : addresses.Nodup) (ha : a ∈ addresses) :
    (addresses.flatMap (hostObservations probes ports)).filter (fun o => o.address = a.str) =
      hostObservations probes ports a := by
  rw [Groups.filter_flatMap (fun _ _ => address_of_mem) a.str addresses,
    Groups.filter_name str_injective hnodup ha, List.flatMap_singleton]

theorem host_of_mem {clock : String → Option ℤ → ℚ} {host : String}
    {observations : List PortObservation} {f : Finding}
    (h : f ∈ hostFindings clock host observations) : f.host = host := by
  rcases List.mem_append.mp h with h | h
  · obtain ⟨port, -, rfl⟩ := List.mem_map.mp h
    rfl
  · rw [List.mem_singleton.mp h]
    rfl

variable {clock : String → Option ℤ → ℚ} {observations : List PortObservation} {host : String}

theorem toFindings_eq : toFindings clock observations =
    (observations.map (·.address)).eraseDups.flatMap fun host =>
      hostFindings clock host (observations.filter fun o => o.address = host) := by
  unfold toFindings
  rw [Groups.collect_eq, List.flatMap_map]
  simp

/-- The findings of a host are those made of its observations. -/
theorem filter_toFindings (h : host ∈ observations.map (·.address)) :
    (toFindings clock observations).filter (fun f => f.host = host) =
      hostFindings clock host (observations.filter fun o => o.address = host) := by
  have hkey : ∀ k, ∀ f ∈ hostFindings clock k (observations.filter fun o => o.address = k),
      f.host = id k := fun _ _ => host_of_mem
  have hone : (observations.map (·.address)).eraseDups.filter (fun k => id k = host) = [host] :=
    Groups.filter_name Function.injective_id (Groups.nodup_eraseDups _) (List.mem_eraseDups.mpr h)
  rw [toFindings_eq, Groups.filter_flatMap hkey host, hone, List.flatMap_singleton]

/-! ### Counting -/

variable (probes a) in
/-- The ports observed in a state. -/
theorem portsIn_hostObservations (state : PortState) : ∀ ports : List ℤ,
    portsIn state (hostObservations probes ports a) =
      ports.filter fun port => probes.state a port = some state
  | [] => rfl
  | port :: ports => by
    have ih := portsIn_hostObservations state ports
    unfold hostObservations portsIn at *
    cases hs : probes.state a port with
    | none =>
      have ho : observation probes a port = none := by rw [observation, hs]; rfl
      rw [List.filterMap_cons_none ho, ih, List.filter_cons_of_neg (by simp [hs])]
    | some found =>
      have ho : observation probes a port = some ⟨a.str, port, found⟩ := by
        rw [observation, hs]
        rfl
      rw [List.filterMap_cons_some ho]
      by_cases he : found = state
      · rw [List.filter_cons_of_pos (by simpa using he), List.map_cons, ih,
          List.filter_cons_of_pos (by simp [hs, he])]
      · rw [List.filter_cons_of_neg (by simpa using he), ih,
          List.filter_cons_of_neg (by simpa [hs] using he)]

variable (probes a) in
theorem length_hostObservations (ports : List ℤ) : (hostObservations probes ports a).length =
    ports.countP fun port => (probes.state a port).isSome := by
  unfold hostObservations
  rw [List.length_filterMap_eq_countP]
  refine List.countP_congr fun port _ => ?_
  rw [observation, Option.isSome_map]

/-- Every observation is in one state. -/
theorem length_eq_portsIn : ∀ observations : List PortObservation, observations.length =
    (portsIn .opened observations).length + (portsIn .closed observations).length +
      (portsIn .filtered observations).length
  | [] => rfl
  | o :: rest => by
    have ih := length_eq_portsIn rest
    unfold portsIn at *
    simp only [List.length_map] at *
    rw [List.length_cons, ih]
    cases hs : o.state <;> simp [hs] <;> omega

theorem mem_addresses : host ∈ (addresses.flatMap (hostObservations probes ports)).map (·.address) ↔
    ∃ a ∈ addresses, host = a.str ∧ ∃ port ∈ ports, (probes.state a port).isSome = true := by
  simp only [List.mem_map, List.mem_flatMap]
  constructor
  · rintro ⟨o, ⟨a, ha, ho⟩, rfl⟩
    refine ⟨a, ha, address_of_mem ho, ?_⟩
    obtain ⟨port, hport, he⟩ := List.mem_filterMap.mp ho
    obtain ⟨state, hstate, -⟩ := Option.map_eq_some_iff.mp he
    exact ⟨port, hport, by rw [hstate]; rfl⟩
  · rintro ⟨a, ha, rfl, port, hport, hsome⟩
    obtain ⟨state, hstate⟩ := Option.isSome_iff_exists.mp hsome
    have ho : observation probes a port = some ⟨a.str, port, state⟩ := by
      rw [observation, hstate]
      rfl
    exact ⟨_, ⟨a, ha, List.mem_filterMap.mpr ⟨port, hport, ho⟩⟩, rfl⟩

end

/-! ### What the module reports -/

section

variable (probes : Probes) (addresses : List IPAddress) (ports : List ℤ)

/-- The host's summary counts the ports that were observed, state by state. -/
structure Summarises (a : IPAddress) (f : Finding) : Prop where
  probed : f.normalizedValue.field "probed" =
    some (.int (ports.countP fun port => (probes.state a port).isSome))
  counts : ∃ (opened : List ℤ) (closed filtered : ℕ),
    f.normalizedValue.field "open" = some (.array (opened.map .int)) ∧
    f.normalizedValue.field "closed_count" = some (.int closed) ∧
    f.normalizedValue.field "filtered_count" = some (.int filtered) ∧
    (ports.countP fun port => (probes.state a port).isSome) = opened.length + closed + filtered

/-- The result says what was tested, and what was not. -/
structure TestsReported (observations : List PortObservation) (result : ModuleResult) : Prop where
  summary : ∀ a ∈ addresses, (∃ port ∈ ports, (probes.state a port).isSome = true) →
    ∃ f, (result.findings.filter fun f => f.kind = "port.summary" ∧ f.host = a.str) = [f] ∧
      Summarises probes ports a f
  opened : ∀ a ∈ addresses, ∀ port ∈ ports, probes.state a port = some .opened →
    (result.findings.filter fun f =>
      f.kind = "port.open" ∧ f.host = a.str ∧ f.port = some port).length = 1
  others : ∀ f ∈ result.findings, ∃ a ∈ addresses, f.host = a.str ∧
    ((f.kind = "port.summary" ∧ ∃ port ∈ ports, (probes.state a port).isSome = true) ∨
      (f.kind = "port.open" ∧ ∃ port ∈ ports, f.port = some port ∧
        probes.state a port = some .opened))
  complete : result.warnings = [] → ∀ a ∈ addresses, ∀ port ∈ ports,
    (observations.filter fun o => o.address = a.str ∧ o.port = port).length = 1

end

section

variable {probes : Probes} {addresses : List IPAddress} {ports : List ℤ}
  {clock : String → Option ℤ → ℚ} {a : IPAddress} {port : ℤ}

theorem filter_host {P : Finding → Prop} [DecidablePred P] {fs : List Finding} {host : String} :
    fs.filter (fun f => P f ∧ f.host = host) = (fs.filter fun f => f.host = host).filter P := by
  rw [List.filter_filter]
  refine List.filter_congr fun f _ => ?_
  simp

/-- The findings of an address, among those of all. -/
theorem findings_of_address (hnodup : addresses.Nodup) (ha : a ∈ addresses)
    (hsome : ∃ port ∈ ports, (probes.state a port).isSome = true) :
    (toFindings clock (addresses.flatMap (hostObservations probes ports))).filter
        (fun f => f.host = a.str) =
      hostFindings clock a.str (hostObservations probes ports a) := by
  rw [filter_toFindings (mem_addresses.mpr ⟨a, ha, rfl, hsome⟩), filter_observations hnodup ha]

theorem summarises (a : IPAddress) : Summarises probes ports a
    (summaryFinding clock a.str (hostObservations probes ports a)) := by
  have hlen := length_hostObservations probes a ports
  refine ⟨?_, _, _, _, rfl, rfl, rfl, ?_⟩
  · rw [← hlen]
    rfl
  · rw [← hlen, List.length_insertionSort]
    exact length_eq_portsIn _

theorem filter_summary {host : String} {observations : List PortObservation} :
    (hostFindings clock host observations).filter (fun f => f.kind = "port.summary") =
      [summaryFinding clock host observations] := by
  unfold hostFindings
  rw [List.filter_append, List.filter_eq_nil_iff.mpr fun f hf => ?_]
  · rfl
  · obtain ⟨port, -, rfl⟩ := List.mem_map.mp hf
    simp [portFinding]

theorem filter_opened {host : String} {observations : List PortObservation}
    (hnodup : (portsIn .opened observations).Nodup) (hport : port ∈ portsIn .opened observations) :
    ((hostFindings clock host observations).filter fun f =>
      f.kind = "port.open" ∧ f.port = some port) = [portFinding clock host port] := by
  have hsorted := List.perm_insertionSort (· ≤ ·) (portsIn .opened observations)
  unfold hostFindings
  rw [List.filter_append, List.filter_map]
  have hone : ((portsIn .opened observations).insertionSort (· ≤ ·)).filter
      ((fun f : Finding => decide (f.kind = "port.open" ∧ f.port = some port)) ∘
        portFinding clock host) = [port] := by
    have hname := Groups.filter_name Function.injective_id (hsorted.nodup_iff.mpr hnodup)
      (hsorted.mem_iff.mpr hport)
    rw [← hname]
    refine List.filter_congr fun p _ => ?_
    simp [portFinding]
  rw [hone]
  simp [summaryFinding]

/-- Whatever the probes find, what is observed is reported. -/
theorem reports_findings (hnodup : addresses.Nodup) (hports : ports.Nodup)
    {result : ModuleResult} (hresult : result.findings =
      toFindings clock (addresses.flatMap (hostObservations probes ports)))
    (hcomplete : result.warnings = [] → ∀ a ∈ addresses, ∀ port ∈ ports,
      ((addresses.flatMap (hostObservations probes ports)).filter fun o =>
        o.address = a.str ∧ o.port = port).length = 1) :
    TestsReported probes addresses ports (addresses.flatMap (hostObservations probes ports))
      result := by
  refine ⟨fun a ha hsome => ?_, fun a ha port hport hopen => ?_, fun f hf => ?_, hcomplete⟩
  · refine ⟨summaryFinding clock a.str (hostObservations probes ports a), ?_, summarises a⟩
    rw [hresult, filter_host, findings_of_address hnodup ha hsome, filter_summary]
  · have hsome : ∃ port ∈ ports, (probes.state a port).isSome = true :=
      ⟨port, hport, by rw [hopen]; rfl⟩
    have hopened := portsIn_hostObservations probes a .opened ports
    have hmem : port ∈ portsIn .opened (hostObservations probes ports a) := by
      rw [hopened]
      exact List.mem_filter.mpr ⟨hport, by simpa using hopen⟩
    have hfilter : (result.findings.filter fun f =>
        f.kind = "port.open" ∧ f.host = a.str ∧ f.port = some port) =
        [portFinding clock a.str port] := by
      rw [← filter_opened (hopened ▸ hports.filter _) hmem,
        ← findings_of_address hnodup ha hsome, ← hresult, ← filter_host]
      refine List.filter_congr fun f _ => ?_
      simp only [decide_eq_decide]
      tauto
    rw [hfilter]
    rfl
  · rw [hresult, toFindings_eq] at hf
    obtain ⟨host, hhost, hf⟩ := List.mem_flatMap.mp hf
    obtain ⟨a, ha, rfl, hsome⟩ := mem_addresses.mp (List.mem_eraseDups.mp hhost)
    rw [filter_observations hnodup ha] at hf
    refine ⟨a, ha, host_of_mem hf, ?_⟩
    rcases List.mem_append.mp hf with hf | hf
    · obtain ⟨port, hport, rfl⟩ := List.mem_map.mp hf
      have hmem := (List.mem_insertionSort _).mp hport
      rw [portsIn_hostObservations, List.mem_filter] at hmem
      exact Or.inr ⟨rfl, port, hmem.1, rfl, by simpa using hmem.2⟩
    · rw [List.mem_singleton.mp hf]
      exact Or.inl ⟨rfl, hsome⟩

/-- The observations of one pair. -/
theorem filter_pair (hnodup : addresses.Nodup) (hports : ports.Nodup) (ha : a ∈ addresses)
    (hport : port ∈ ports) :
    ((addresses.flatMap (hostObservations probes ports)).filter fun o =>
      o.address = a.str ∧ o.port = port) = (observation probes a port).toList := by
  have hkey : ∀ p, ∀ o ∈ (observation probes a p).toList, o.port = id p := by
    intro p o ho
    obtain ⟨state, -, rfl⟩ := Option.map_eq_some_iff.mp (Option.mem_toList.mp ho)
    rfl
  have hone : ports.filter (fun p => id p = port) = [port] :=
    Groups.filter_name Function.injective_id hports hport
  have hsplit : (addresses.flatMap (hostObservations probes ports)).filter
      (fun o => o.address = a.str ∧ o.port = port) =
      ((addresses.flatMap (hostObservations probes ports)).filter
        fun o => o.address = a.str).filter fun o => o.port = port := by
    rw [List.filter_filter]
    refine List.filter_congr fun o _ => ?_
    simp [and_comm]
  rw [hsplit, filter_observations hnodup ha, hostObservations, List.filterMap_eq_flatMap_toList,
    Groups.filter_flatMap hkey port, hone, List.flatMap_singleton]

/-- Without a warning, all is observed exactly if no probe was skipped. -/
theorem complete_iff (hnodup : addresses.Nodup) (hports : ports.Nodup) (h : probes.OnlyBudget)
    (hbudget : ¬ ∃ a ∈ addresses, ∃ port ∈ ports, probes.ReachesBudget a port) :
    (∀ a ∈ addresses, ∀ port ∈ ports,
      ((addresses.flatMap (hostObservations probes ports)).filter fun o =>
        o.address = a.str ∧ o.port = port).length = 1) ↔
      ∀ a ∈ addresses, ∀ port ∈ ports, probes.cancelled a port = false := by
  refine forall₂_congr fun a ha => forall₂_congr fun port hport => ?_
  rw [filter_pair hnodup hports ha hport, observation, Probes.state]
  by_cases hc : probes.cancelled a port = true
  · rw [if_pos hc, hc]
    exact iff_of_false (by simp) (by simp)
  · have hfalse : probes.cancelled a port = false := by simpa using hc
    rw [if_neg hc]
    refine iff_of_true ?_ hfalse
    cases ho : probes.connect a port with
    | raised x =>
      obtain ⟨e, rfl⟩ := h a port x ho
      exact absurd ⟨a, ha, port, hport, hfalse, e, ho⟩ hbudget
    | accepted => rfl
    | refused => rfl
    | timeout => rfl
    | osError => rfl

variable (addresses ports) in
/-- The loop notes the budget if some probe reached it. -/
theorem any_isNone_iff (h : probes.OnlyBudget) :
    ((factories addresses ports).any fun pair => (probe probes pair).toOption.isNone) = true ↔
      ∃ a ∈ addresses, ∃ port ∈ ports, probes.ReachesBudget a port := by
  rw [List.any_eq_true]
  constructor
  · rintro ⟨⟨a, port⟩, hmem, hnone⟩
    obtain ⟨ha, hport⟩ := mem_factories.mp hmem
    cases hp : probe probes (a, port) with
    | ok found =>
      rw [hp] at hnone
      cases hnone
    | error x =>
      obtain ⟨hc, ho⟩ := probe_eq_error hp
      obtain ⟨e, rfl⟩ := h a port x ho
      exact ⟨a, ha, port, hport, hc, e, ho⟩
  · rintro ⟨a, ha, port, hport, hc, e, ho⟩
    refine ⟨(a, port), mem_factories.mpr ⟨ha, hport⟩, ?_⟩
    unfold probe
    dsimp only
    rw [hc, ho]
    rfl

end

/-- **The port scan** reports what was tested and what was not, exactly if no
probe was skipped by a cancel or some probe reached the budget. -/
theorem portScan_reports_iff (clock : String → Option ℤ → ℚ) (target : ValidatedTarget)
    (options : JsonFields) (addresses : List IPAddress) (ports : List ℤ)
    (haddresses : (iterTargetAddresses target).list = .ok addresses) (hnodup : addresses.Nodup)
    (hports : resolvePorts options = .ok ports) (probes : Probes) (h : probes.OnlyBudget) :
    ∃ observations budgetReached result,
      scanPorts probes target options = .ok (observations, budgetReached) ∧
      portScan clock probes target options = .ok result ∧
      (TestsReported probes addresses ports observations result ↔
        (∀ a ∈ addresses, ∀ port ∈ ports, probes.cancelled a port = false) ∨
          ∃ a ∈ addresses, ∃ port ∈ ports, probes.ReachesBudget a port) := by
  have hscan := scanPorts_eq hports haddresses h
  have hdistinct := (portsChecked_of_resolvePorts hports).2.1
  have hbudget := any_isNone_iff addresses ports h
  refine ⟨_, _, _, hscan, portScan_eq hscan, ?_⟩
  by_cases hreached : ∃ a ∈ addresses, ∃ port ∈ ports, probes.ReachesBudget a port
  · refine iff_of_true (reports_findings hnodup hdistinct rfl fun hwarnings => ?_) (Or.inr hreached)
    rw [hbudget.mpr hreached] at hwarnings
    cases hwarnings
  · have hnone := Bool.eq_false_iff.mpr (hbudget.not.mpr hreached)
    have hcomplete := complete_iff hnodup hdistinct h hreached
    constructor
    · intro hreports
      have hwarnings := congrArg portScanWarnings hnone
      exact Or.inl (hcomplete.mp (hreports.complete hwarnings))
    · rintro (hcancelled | hreached')
      · exact reports_findings hnodup hdistinct rfl fun _ => hcomplete.mpr hcancelled
      · exact absurd hreached' hreached

/-- Every port of the lab host is open. -/
def openProbes : Probes := ⟨fun _ _ => false, fun _ _ => .accepted⟩

theorem portScan_reports_iff_lab : ∃ observations budgetReached result,
    scanPorts openProbes labTarget .nil = .ok (observations, budgetReached) ∧
    portScan (fun _ _ => 0) openProbes labTarget .nil = .ok result ∧
    (TestsReported openProbes [labAddress] top100Ports observations result ↔
      (∀ a ∈ [labAddress], ∀ port ∈ top100Ports, openProbes.cancelled a port = false) ∨
        ∃ a ∈ [labAddress], ∃ port ∈ top100Ports, openProbes.ReachesBudget a port) :=
  portScan_reports_iff (fun _ _ => 0) labTarget .nil [labAddress] top100Ports rfl
    (List.nodup_singleton _) rfl openProbes nofun

theorem labTarget_validated :
    labValidation "10.10.0.5" = (.ok labTarget, (labValidation "10.10.0.5").2) := by
  have htarget : (labValidation "10.10.0.5").1.toOption = some labTarget := by decide +kernel
  have hok := Option.isSome_of_eq_some htarget
  refine Prod.ext ?_ rfl
  rw [Raising.eq_ok_get hok]
  exact congrArg Except.ok (Option.get_of_eq_some hok htarget)

def wellKnownOptions : JsonFields := .cons "port_selection" (.str "well-known") .nil

/-- A cancel is requested while the first wave of probes is under way. -/
def cancelledProbes : Probes := ⟨fun _ port => decide (256 < port), fun _ _ => .accepted⟩

/-- The scan of the lab host then has a wave of its ports observed and no
warning. -/
theorem not_portScan_reports : ¬ ∀ (scope : ScopeProfile) (rawTarget : String)
    (getaddrinfo : String → Except LookupError (List String)) (env : Env) (c c' : Call)
    (target : ValidatedTarget),
    (validateTarget scope rawTarget).run (handle (env.withResolver getaddrinfo)) c =
      (.ok target, c') →
    ∀ (clock : String → Option ℤ → ℚ) (options : JsonFields) (addresses : List IPAddress)
      (ports : List ℤ),
    (iterTargetAddresses target).list = .ok addresses → addresses.Nodup →
    resolvePorts options = .ok ports → ∀ probes : Probes, probes.OnlyBudget →
    ∃ observations budgetReached result,
      scanPorts probes target options = .ok (observations, budgetReached) ∧
      portScan clock probes target options = .ok result ∧
      TestsReported probes addresses ports observations result := by
  intro h
  have honly : cancelledProbes.OnlyBudget := nofun
  have hnone :
      ¬ ∃ a ∈ [labAddress], ∃ port ∈ wellKnownRange, cancelledProbes.ReachesBudget a port := by
    rintro ⟨_, -, _, -, -, _, ho⟩
    cases ho
  have hdistinct : [labAddress].Nodup := List.nodup_singleton _
  have hresolve : resolvePorts wellKnownOptions = .ok wellKnownRange := rfl
  have hports := portsChecked_of_resolvePorts hresolve
  have hlist : (iterTargetAddresses labTarget).list = .ok [labAddress] := rfl
  have hscan := scanPorts_eq hresolve hlist honly
  obtain ⟨observations, budgetReached, result, hobserved, hresult, hreports⟩ :=
    h labScope "10.10.0.5" noNames (.calm []) (.new false) _ labTarget labTarget_validated
      (fun _ _ => 0) wellKnownOptions [labAddress] wellKnownRange hlist hdistinct hresolve
      cancelledProbes honly
  rw [hscan] at hobserved
  obtain ⟨rfl, rfl⟩ := Prod.mk.inj (Except.ok.inj hobserved)
  rw [portScan_eq hscan] at hresult
  have hbudget := Bool.eq_false_iff.mpr ((any_isNone_iff _ _ honly).not.mpr hnone)
  rw [← Except.ok.inj hresult, hbudget] at hreports
  have hcomplete := hreports.complete rfl
  have hlast : (1024 : ℤ) ∈ wellKnownRange :=
    List.mem_map.mpr ⟨1024, List.mem_range'_1.mpr ⟨by decide, by decide⟩, rfl⟩
  have hcancelled := (complete_iff hdistinct hports.2.1 honly hnone).mp hcomplete labAddress
    List.mem_cons_self 1024 hlast
  cases hcancelled

end ScanLedger
