/-
# From open ports to services

`app/modules/service_detect.py`, and `open_ports_by_host` of
`app/modules/base.py`: the open ports that the port scan found, host by host,
and for each of them a stream to the address that the host's text names in the
target. What a stream comes to is the environment's choice, and so is what the
fingerprint patterns make of a banner.

The text of an address determines it, so each observed address is found again,
but for one: the address of a network with a scope id, which the expansion of
the target yields and the members of the network are without (`flows_iff`).

Key definitions: `openPortsByHost`, `addressFor`, `identify`, `streamCalls`, `Flows`.
Key theorems: `serviceDetect_congr`, `mem_openPairs`, `mem_openFactories`, `mem_serviceDetect`,
`addressFor_eq`, `flows_iff`.
-/
import ScanLedger.PortScan
import ScanLedger.Reach

namespace ScanLedger

/-! ### The open ports -/

/-- The open ports among the findings, with their hosts. -/
def openPairs (priorFindings : List Finding) : List (String × ℤ) :=
  priorFindings.filterMap fun f =>
    if f.kind = "port.open" then f.port.map fun port => (f.host, port) else none

def openPortsByHost (priorFindings : List Finding) : List (String × List ℤ) :=
  (Groups.collect Prod.fst Prod.snd (openPairs priorFindings)).map fun group =>
    (group.1, group.2.insertionSort (· ≤ ·))

/-- The probes of `run`, in order. -/
def openFactories (priorFindings : List Finding) : List (String × ℤ) :=
  (openPortsByHost priorFindings).flatMap fun group => group.2.map fun port => (group.1, port)

/-! ### One service -/

structure ServiceGuess where
  service : String
  product : Option String
  version : Option String
  confidence : Confidence
  deriving DecidableEq, Repr

def wellKnownServiceNames : List (ℤ × String) :=
  [(21, "ftp"), (22, "ssh"), (23, "telnet"), (25, "smtp"), (53, "dns"), (80, "http"),
    (110, "pop3"), (135, "msrpc"), (139, "netbios-ssn"), (143, "imap"), (443, "https"),
    (445, "microsoft-ds"), (993, "imaps"), (995, "pop3s"), (1433, "ms-sql"), (3306, "mysql"),
    (3389, "ms-wbt-server"), (5432, "postgresql"), (5900, "vnc"), (6379, "redis"),
    (8080, "http-proxy"), (8443, "https-alt"), (9200, "elasticsearch"), (27017, "mongodb")]

def serviceNameForPort (port : ℤ) : Option ServiceGuess :=
  (wellKnownServiceNames.lookup port).map fun name => ⟨name, none, none, .low⟩

def tlsPorts : List ℤ := [443, 465, 636, 993, 995, 8443]

/-- What an attempt to open a stream and read a banner from it comes to. -/
inductive StreamOutcome
  /-- What `_read_banner` returns or raises. -/
  | opened (banner : Except Exn String)
  /-- A timeout, or another `OSError`. -/
  | failed
  | raised (x : Exn)

/-- What each stream comes to, whether a cancel was requested by then, and what
the patterns make of a banner. -/
structure Services where
  cancelled : String → ℤ → Bool
  stream : IPAddress → ℤ → StreamOutcome
  fingerprint : String → ℤ → Option ServiceGuess

/-- `_address_for`. -/
def addressFor (target : ValidatedTarget) (host : String) : Option IPAddress :=
  (target.addresses.find? fun candidate => candidate.str = host).orElse fun _ =>
    match target.network with
    | some network => network.members.find? fun candidate => candidate.str = host
    | none => none

/-- A text that is there and not empty. -/
def truthy : Option String → Option String
  | some text => if text.isEmpty then none else some text
  | none => none

/-- `_service_finding`. -/
def serviceFinding (clock : String → Option ℤ → ℚ) (host : String) (port : ℤ)
    (guess : ServiceGuess) (banner : String) (useTls : Bool) : Finding :=
  let described := (truthy guess.product).getD guess.service
  let version := match truthy guess.version with
    | some version => " " ++ version
    | none => ""
  let transport := if useTls then "tls" else "tcp"
  { host := host
    port := some port
    category := .portService
    kind := "service.detected"
    title := host ++ ":" ++ toString port ++ "/tcp runs " ++ described ++ version
    summary := "Identified as " ++ described ++ version ++ " (" ++ guess.confidence.text ++
      " confidence, " ++ transport ++ ")." ++
      (if (truthy guess.version).isSome then "" else " The service did not state a version.")
    module := "service_detect"
    identityKey := "service/" ++ toString port
    normalizedValue := .object [("port", .int port), ("service", .str guess.service),
      ("product", .optional .str guess.product), ("version", .optional .str guess.version),
      ("transport", .str transport)]
    rawEvidence := if banner.isEmpty then none else some (String.ofList (banner.toList.take 2000))
    confidence := some guess.confidence
    sources := []
    observedAt := clock host (some port) }

section

variable (services : Services) (target : ValidatedTarget)

/-- The stream `_identify` opens, if it opens one. -/
def streamCall (factory : String × ℤ) : Option (IPAddress × ℤ) :=
  if services.cancelled factory.1 factory.2 then none
  else (addressFor target factory.1).map fun a => (a, factory.2)

/-- The guess from a banner, or else from the port. -/
def guessService (banner : String) (port : ℤ) : ServiceGuess :=
  match if banner.isEmpty then none else services.fingerprint banner port with
  | some guess => guess
  | none => (serviceNameForPort port).getD ⟨"unknown", none, none, .low⟩

/-- `_identify`. -/
def identify (clock : String → Option ℤ → ℚ) (factory : String × ℤ) :
    Except Exn (Option Finding) :=
  match streamCall services target factory with
  | none => .ok none
  | some (a, port) => match services.stream a port with
    | .raised x => .error x
    | .failed => .ok none
    | .opened banner => do
      let banner ← banner
      return some (serviceFinding clock factory.1 port (guessService services banner port) banner
        (decide (port ∈ tlsPorts)))

/-! ### The module -/

def serviceWaveSize : ℕ := 32

/-- `run`. -/
def serviceDetect (clock : String → Option ℤ → ℚ) (priorFindings : List Finding) :
    Except Exn ModuleResult :=
  if (openPortsByHost priorFindings).isEmpty then
    .ok ⟨[], false, ["no open ports were available from this scan, so no service " ++
      "could be identified"]⟩
  else do
    let (findings, budgetReached) ← collectOutcomes
      (inBoundedWaves (identify services target clock) (openFactories priorFindings)
        serviceWaveSize)
    return ⟨findings, false, if budgetReached then
      ["the governor's probe budget was reached; some open ports were not identified"] else []⟩

/-- An outcome that the loop of `run` raises. -/
def endsLoop {β : Type} : Except Exn β → Bool
  | .error (.budgetExceeded _) => false
  | .error _ => true
  | .ok _ => false

/-- The streams that `run` opens, wave by wave until an outcome is raised. -/
def streamCalls (clock : String → Option ℤ → ℚ) (priorFindings : List Finding) :
    List (IPAddress × ℤ) :=
  (Waves.issued (fun factory => endsLoop (identify services target clock factory))
    (Waves.waves serviceWaveSize (openFactories priorFindings))).filterMap
      (streamCall services target)

end

/-! ### What the loop looks at -/

section

variable {φ β : Type} {services services' : Services} {target : ValidatedTarget}
  {clock : String → Option ℤ → ℚ} {priorFindings : List Finding}

/-- Nothing after an outcome that ends the loop. -/
theorem collectOutcomes_of_ends : ∀ {outcomes : List (Except Exn (Option β))},
    outcomes.any endsLoop = true → ∀ rest,
      collectOutcomes (outcomes ++ rest) = collectOutcomes outcomes
  | r :: outcomes, h, rest => by
    rw [List.any_cons, Bool.or_eq_true] at h
    cases r with
    | error x =>
      cases x with
      | budgetExceeded e =>
        have ih := collectOutcomes_of_ends (h.resolve_left Bool.false_ne_true) rest
        rw [List.cons_append, collectOutcomes, collectOutcomes, ih]
      | _ => rfl
    | ok found =>
      have ih := collectOutcomes_of_ends (h.resolve_left Bool.false_ne_true) rest
      cases found with
      | none => rw [List.cons_append, collectOutcomes, collectOutcomes, ih]
      | some b => rw [List.cons_append, collectOutcomes, collectOutcomes, ih]

theorem collectOutcomes_append_congr {rest rest' : List (Except Exn (Option β))}
    (h : collectOutcomes rest = collectOutcomes rest') :
    ∀ outcomes : List (Except Exn (Option β)),
      collectOutcomes (outcomes ++ rest) = collectOutcomes (outcomes ++ rest')
  | [] => h
  | r :: outcomes => by
    have ih := collectOutcomes_append_congr h outcomes
    cases r with
    | error x =>
      cases x with
      | budgetExceeded e => rw [List.cons_append, List.cons_append, collectOutcomes, ih]; rfl
      | _ => rfl
    | ok found =>
      cases found with
      | none => rw [List.cons_append, List.cons_append, collectOutcomes, ih]; rfl
      | some b => rw [List.cons_append, List.cons_append, collectOutcomes, ih]; rfl

/-- The loop looks at the outcomes of what is issued. -/
theorem collectOutcomes_issued (run : φ → Except Exn (Option β)) : ∀ ws : List (List φ),
    collectOutcomes (ws.flatMap fun wave => wave.map run) =
      collectOutcomes ((Waves.issued (fun f => endsLoop (run f)) ws).map run)
  | [] => rfl
  | wave :: rest => by
    have ih := collectOutcomes_issued run rest
    rw [List.flatMap_cons, Waves.issued, List.map_append]
    by_cases hany : (wave.any fun f => endsLoop (run f)) = true
    · have hends : (wave.map run).any endsLoop = true := by rwa [List.any_map]
      rw [if_pos hany, List.map_nil, List.append_nil, collectOutcomes_of_ends hends]
    · rw [if_neg hany]
      exact collectOutcomes_append_congr ih _

/-- The module's result depends on the streams in `streamCalls` only. -/
theorem serviceDetect_congr (hcancel : services.cancelled = services'.cancelled)
    (hfingerprint : services.fingerprint = services'.fingerprint)
    (h : ∀ pair ∈ streamCalls services target clock priorFindings,
      services.stream pair.1 pair.2 = services'.stream pair.1 pair.2) :
    serviceDetect services target clock priorFindings =
      serviceDetect services' target clock priorFindings := by
  have hcall : streamCall services target = streamCall services' target := by
    unfold streamCall
    rw [hcancel]
  have hidentify : ∀ factory ∈ Waves.issued
      (fun factory => endsLoop (identify services target clock factory))
      (Waves.waves serviceWaveSize (openFactories priorFindings)),
      identify services target clock factory = identify services' target clock factory := by
    intro factory hissued
    unfold identify
    rw [← hcall]
    cases hpair : streamCall services target factory with
    | none => rfl
    | some pair =>
      have hstream := h pair (List.mem_filterMap.mpr ⟨factory, hissued, hpair⟩)
      dsimp only
      rw [hstream]
      unfold guessService
      rw [hfingerprint]
  have hissued := Waves.issued_congr fun factory hf => congrArg endsLoop (hidentify factory hf)
  unfold serviceDetect inBoundedWaves
  rw [collectOutcomes_issued, collectOutcomes_issued, ← hissued, List.map_congr_left hidentify]

end

/-! ### From observations to probes -/

section

variable {clock : String → Option ℤ → ℚ} {observations : List PortObservation}
  {priorFindings : List Finding} {host : String} {port : ℤ}

/-- The open ports of one host's findings. -/
theorem openPairs_hostFindings (host : String) (observations : List PortObservation) :
    openPairs (hostFindings clock host observations) =
      ((portsIn .opened observations).insertionSort (· ≤ ·)).map fun port => (host, port) := by
  unfold openPairs hostFindings
  rw [List.filterMap_append, List.filterMap_map]
  have hports : ∀ ports : List ℤ, (ports.filterMap ((fun f : Finding =>
      if f.kind = "port.open" then f.port.map fun port => (f.host, port) else none) ∘
        portFinding clock host)) = ports.map fun port => (host, port) := fun ports => by
    rw [← List.filterMap_eq_map]
    rfl
  rw [hports]
  simp [summaryFinding]

theorem openPairs_toFindings : openPairs (toFindings clock observations) =
    Groups.pairs (observations.map (·.address)).eraseDups fun host =>
      (portsIn .opened (observations.filter fun o => o.address = host)).insertionSort (· ≤ ·) := by
  rw [toFindings_eq]
  unfold openPairs
  rw [List.filterMap_flatMap]
  exact List.flatMap_congr fun host _ => openPairs_hostFindings host _

/-- The open ports of the findings are those observed open. -/
theorem mem_openPairs : (host, port) ∈ openPairs (toFindings clock observations) ↔
    (⟨host, port, .opened⟩ : PortObservation) ∈ observations := by
  rw [openPairs_toFindings, Groups.mem_pairs]
  simp only [List.mem_eraseDups, List.mem_map, List.mem_insertionSort, portsIn, List.mem_filter,
    decide_eq_true_eq]
  constructor
  · rintro ⟨-, o, ⟨⟨ho, rfl⟩, hopened⟩, rfl⟩
    rw [← hopened]
    exact ho
  · intro ho
    exact ⟨⟨_, ho, rfl⟩, _, ⟨⟨ho, rfl⟩, rfl⟩, rfl⟩

/-- Ports of one host, of pairs observed once. -/
theorem nodup_portsIn (h : (observations.map fun o => (o.address, o.port)).Nodup)
    (host : String) (state : PortState) :
    (portsIn state (observations.filter fun o => o.address = host)).Nodup := by
  have hpairs : (observations.filter fun o => o.address = host).Pairwise
      fun o o' => (o.address, o.port) ≠ (o'.address, o'.port) :=
    (List.pairwise_map.mp h).filter _
  unfold portsIn
  refine List.pairwise_map.mpr ((hpairs.filter _).imp_of_mem fun ho ho' hne he => hne ?_)
  have h1 := of_decide_eq_true (List.mem_filter.mp (List.mem_filter.mp ho).1).2
  have h2 := of_decide_eq_true (List.mem_filter.mp (List.mem_filter.mp ho').1).2
  rw [h1, h2, he]

variable (clock) in
/-- Pairs observed once are found open once. -/
theorem nodup_openPairs (h : (observations.map fun o => (o.address, o.port)).Nodup) :
    (openPairs (toFindings clock observations)).Nodup := by
  rw [openPairs_toFindings]
  exact Groups.nodup_pairs (Groups.nodup_eraseDups _) fun host _ =>
    (List.perm_insertionSort _ _).nodup_iff.mpr (nodup_portsIn h host .opened)

theorem openFactories_eq : openFactories priorFindings =
    Groups.pairs ((openPairs priorFindings).map Prod.fst).eraseDups fun host =>
      (((openPairs priorFindings).filter fun pair => pair.1 = host).map Prod.snd).insertionSort
        (· ≤ ·) := by
  unfold openFactories openPortsByHost
  rw [Groups.collect_eq, List.map_map, List.flatMap_map]
  rfl

/-- The module probes the open ports. -/
theorem mem_openFactories :
    (host, port) ∈ openFactories priorFindings ↔ (host, port) ∈ openPairs priorFindings := by
  rw [openFactories_eq, Groups.mem_pairs]
  simp only [List.mem_eraseDups, List.mem_map, List.mem_insertionSort, List.mem_filter,
    decide_eq_true_eq]
  constructor
  · rintro ⟨-, pair, ⟨hpair, rfl⟩, rfl⟩
    exact hpair
  · intro hpair
    exact ⟨⟨_, hpair, rfl⟩, _, ⟨hpair, rfl⟩, rfl⟩

theorem nodup_openFactories (h : (openPairs priorFindings).Nodup) :
    (openFactories priorFindings).Nodup := by
  rw [openFactories_eq]
  refine Groups.nodup_pairs (Groups.nodup_eraseDups _) fun host _ =>
    (List.perm_insertionSort _ _).nodup_iff.mpr ?_
  refine (h.filter _).map_on fun pair hpair pair' hpair' he => ?_
  have h1 := of_decide_eq_true (List.mem_filter.mp hpair).2
  have h2 := of_decide_eq_true (List.mem_filter.mp hpair').2
  exact Prod.ext (h1.trans h2.symm) he

end

/-! ### What is found -/

section

variable {services : Services} {target : ValidatedTarget} {clock : String → Option ℤ → ℚ}
  {f : Finding}

theorem identify_eq_some {factory : String × ℤ}
    (h : identify services target clock factory = .ok (some f)) : ∃ guess banner, f =
      serviceFinding clock factory.1 factory.2 guess banner (decide (factory.2 ∈ tlsPorts)) := by
  cases hcall : streamCall services target factory with
  | none =>
    unfold identify at h
    rw [hcall] at h
    cases h
  | some pair =>
    obtain ⟨a, port⟩ := pair
    have hport : port = factory.2 := by
      unfold streamCall at hcall
      split_ifs at hcall with hcancelled
      obtain ⟨_, -, hpair⟩ := Option.map_eq_some_iff.mp hcall
      exact (Prod.mk.inj hpair).2.symm
    unfold identify at h
    rw [hcall, hport] at h
    dsimp only at h
    split at h
    · cases h
    · cases h
    · obtain ⟨banner, -, h⟩ := Raising.bind_eq_ok.mp h
      cases h
      exact ⟨_, banner, rfl⟩

/-- A service is found at an open port. -/
theorem mem_serviceDetect {priorFindings : List Finding} {result : ModuleResult}
    (h : serviceDetect services target clock priorFindings = .ok result)
    (hf : f ∈ result.findings) : ∃ host port guess banner,
      (host, port) ∈ openPairs priorFindings ∧
        f = serviceFinding clock host port guess banner (decide (port ∈ tlsPorts)) := by
  unfold serviceDetect at h
  split_ifs at h with hnone
  · cases h
    cases hf
  · obtain ⟨⟨findings, budgetReached⟩, hcollected, h⟩ := Raising.bind_eq_ok.mp h
    cases h
    obtain ⟨⟨host, port⟩, hfactory, hidentify⟩ := mem_of_inBoundedWaves hcollected hf
    obtain ⟨guess, banner, hfinding⟩ := identify_eq_some hidentify
    exact ⟨host, port, guess, banner, mem_openFactories.mp hfactory, hfinding⟩

end

/-! ### From hosts to addresses -/

section

variable {target : ValidatedTarget} {a : IPAddress} {host : String} {port : ℤ}

theorem find?_str {addresses : List IPAddress} (h : a ∈ addresses) :
    addresses.find? (fun candidate => candidate.str = a.str) = some a := by
  cases hfind : addresses.find? fun candidate => candidate.str = a.str with
  | none => exact absurd (decide_eq_true rfl) (List.find?_eq_none.mp hfind a h)
  | some b =>
    have hstr : b.str = a.str := by simpa using List.find?_some hfind
    rw [str_injective hstr]

theorem str_addressFor (h : addressFor target host = some a) : a.str = host := by
  unfold addressFor at h
  cases hfind : target.addresses.find? fun candidate => candidate.str = host with
  | some b =>
    rw [hfind] at h
    cases h
    simpa using List.find?_some hfind
  | none =>
    rw [hfind, Option.orElse_none] at h
    split at h
    · simpa using List.find?_some h
    · cases h

/-- An address of the target is found again by its text. -/
theorem addressFor_eq (h : a ∈ target.addresses ∨
    ∃ n, target.network = some n ∧ a ∈ n.members) : addressFor target a.str = some a := by
  unfold addressFor
  cases hfind : target.addresses.find? fun candidate => candidate.str = a.str with
  | some b =>
    have hstr : b.str = a.str := by simpa using List.find?_some hfind
    rw [str_injective hstr]
    rfl
  | none =>
    rcases h with h | ⟨n, hn, h⟩
    · rw [find?_str h] at hfind
      cases hfind
    · simp only [hn, find?_str h]
      rfl

/-- A network of one or two addresses, with a scope id in its address. -/
def ScopedAddress (target : ValidatedTarget) : Prop :=
  ∃ n, target.network = some n ∧ n.numAddresses ≤ 2 ∧ n.networkAddress.scopeId ≠ none

/-- The addresses that the expansion yields are found, one with a scope id in a
network apart. -/
theorem addressFor_of_yielded (h : ¬ ScopedAddress target)
    (ha : a ∈ (iterTargetAddresses target).yielded) : addressFor target a.str = some a := by
  refine addressFor_eq ?_
  cases hn : target.network with
  | none =>
    unfold iterTargetAddresses at ha
    simp only [hn] at ha
    exact Or.inl ha
  | some n =>
    refine Or.inr ⟨n, rfl, mem_members.mpr ⟨contains_of_yielded hn ha, ?_⟩⟩
    unfold iterTargetAddresses at ha
    simp only [hn] at ha
    split_ifs at ha with hmax htwo
    · cases ha
    · rw [List.mem_singleton.mp ha]
      by_contra hscope
      exact h ⟨n, hn, htwo, hscope⟩
    · exact scopeId_of_mem_hosts (not_le.mp htwo) ha

/-- No address with a scope id is found in a network. -/
theorem addressFor_scoped (halone : ∀ n, target.network = some n → target.addresses = [])
    (h : ScopedAddress target) (ha : a ∈ (iterTargetAddresses target).yielded) :
    addressFor target a.str = none := by
  obtain ⟨n, hn, htwo, hscope⟩ := h
  cases hfound : addressFor target a.str with
  | none => rfl
  | some b =>
    have hb : b ∈ n.members := by
      unfold addressFor at hfound
      rw [halone n hn] at hfound
      simp only [hn] at hfound
      exact List.mem_of_find?_eq_some hfound
    have hmax : ¬ maxExpandedAddresses < n.numAddresses := by
      unfold maxExpandedAddresses
      omega
    have hfirst : a = n.networkAddress := by
      unfold iterTargetAddresses at ha
      simp only [hn, if_neg hmax, if_pos htwo] at ha
      exact List.mem_singleton.mp ha
    rw [← hfirst, ← str_injective (str_addressFor hfound)] at hscope
    exact absurd (mem_members.mp hb).2 hscope

end

/-! ### The streams -/

/-- An observation of the port scan, before its address is written out. -/
structure Observed where
  address : IPAddress
  port : ℤ
  state : PortState

def Observed.text (o : Observed) : PortObservation := ⟨o.address.str, o.port, o.state⟩

/-- The streams are those to the pairs observed open, each once, and all in the
target. -/
structure Flows (target : ValidatedTarget) (observed : List Observed)
    (calls : List (IPAddress × ℤ)) : Prop where
  once : calls.Nodup
  opened : ∀ a port, (a, port) ∈ calls ↔ ⟨a, port, .opened⟩ ∈ observed
  inside : ∀ a port, (a, port) ∈ calls → target.covers a = true

/-- The exceptions that end the loop, on a stream. -/
def StreamOutcome.ends : StreamOutcome → Bool
  | .opened banner => endsLoop banner
  | .failed => false
  | .raised x => endsLoop (.error x : Except Exn Unit)

/-- No stream before the last wave raises what ends the loop. -/
def Uninterrupted (services : Services) (target : ValidatedTarget)
    (priorFindings : List Finding) : Prop :=
  ∀ wave ∈ (Waves.waves serviceWaveSize (openFactories priorFindings)).dropLast,
    ∀ factory ∈ wave, ∀ pair, streamCall services target factory = some pair →
      (services.stream pair.1 pair.2).ends = false

section

variable {services : Services} {target : ValidatedTarget} {priorFindings : List Finding}
  {clock : String → Option ℤ → ℚ} {factory : String × ℤ} {pair : IPAddress × ℤ}

theorem endsLoop_identify : endsLoop (identify services target clock factory) = false ↔
    ∀ pair, streamCall services target factory = some pair →
      (services.stream pair.1 pair.2).ends = false := by
  unfold identify
  cases hcall : streamCall services target factory with
  | none => exact iff_of_true rfl nofun
  | some pair =>
    have hone : (∀ pair', some pair = some pair' →
        (services.stream pair'.1 pair'.2).ends = false) ↔
          (services.stream pair.1 pair.2).ends = false :=
      ⟨fun h => h pair rfl, fun h pair' he => Option.some.inj he ▸ h⟩
    rw [hone]
    dsimp only
    cases services.stream pair.1 pair.2 with
    | failed => exact Iff.rfl
    | raised x => cases x <;> exact Iff.rfl
    | opened banner =>
      cases banner with
      | ok text => exact Iff.rfl
      | error x => cases x <;> exact Iff.rfl

variable (clock) in
/-- All factories are issued exactly if no stream ends the loop early. -/
theorem issued_eq_factories_iff :
    Waves.issued (fun factory => endsLoop (identify services target clock factory))
        (Waves.waves serviceWaveSize (openFactories priorFindings)) =
      openFactories priorFindings ↔ Uninterrupted services target priorFindings := by
  have hne : ∀ w ∈ Waves.waves serviceWaveSize (openFactories priorFindings), w ≠ [] :=
    fun w hw => (Waves.length_le_of_mem_waves (by decide) w hw).1
  have hissued := Waves.issued_eq_iff
    (fun factory => endsLoop (identify services target clock factory)) hne
  rw [Waves.flatten_waves] at hissued
  rw [hissued]
  refine forall₂_congr fun w _ => forall₂_congr fun factory _ => ?_
  exact endsLoop_identify

theorem streamCall_eq (hcancel : ∀ host port, services.cancelled host port = false) :
    streamCall services target factory =
      (addressFor target factory.1).map fun a => (a, factory.2) := by
  rw [streamCall, hcancel]
  exact if_neg Bool.false_ne_true

/-- A stream tells the factory that opened it. -/
theorem factory_of_streamCall (hcancel : ∀ host port, services.cancelled host port = false)
    (h : streamCall services target factory = some pair) : factory = (pair.1.str, pair.2) := by
  rw [streamCall_eq hcancel] at h
  obtain ⟨a, ha, rfl⟩ := Option.map_eq_some_iff.mp h
  exact Prod.ext (str_addressFor ha).symm rfl

theorem mem_streamCalls (hcancel : ∀ host port, services.cancelled host port = false) :
    pair ∈ streamCalls services target clock priorFindings ↔
      (pair.1.str, pair.2) ∈ Waves.issued
          (fun factory => endsLoop (identify services target clock factory))
          (Waves.waves serviceWaveSize (openFactories priorFindings)) ∧
        addressFor target pair.1.str = some pair.1 := by
  unfold streamCalls
  rw [List.mem_filterMap]
  constructor
  · rintro ⟨factory, hissued, hcall⟩
    have hfactory := factory_of_streamCall hcancel hcall
    subst hfactory
    refine ⟨hissued, ?_⟩
    rw [streamCall_eq hcancel] at hcall
    obtain ⟨a, ha, he⟩ := Option.map_eq_some_iff.mp hcall
    rw [ha, ← (Prod.mk.inj he).1]
  · rintro ⟨hissued, ha⟩
    refine ⟨_, hissued, ?_⟩
    rw [streamCall_eq hcancel, ha]
    rfl

theorem nodup_streamCalls (hcancel : ∀ host port, services.cancelled host port = false)
    (h : (openFactories priorFindings).Nodup) :
    (streamCalls services target clock priorFindings).Nodup := by
  have hprefix := Waves.issued_prefix
    (fun factory => endsLoop (identify services target clock factory))
    (Waves.waves serviceWaveSize (openFactories priorFindings))
  rw [Waves.flatten_waves] at hprefix
  refine List.Nodup.filterMap ?_ (h.sublist hprefix.sublist)
  intro factory factory' pair hpair hpair'
  rw [factory_of_streamCall hcancel hpair, factory_of_streamCall hcancel hpair']

/-- All factories are issued if each of them is. -/
theorem issued_eq_of_mem (h : (openFactories priorFindings).Nodup)
    (hall : ∀ factory ∈ openFactories priorFindings, factory ∈ Waves.issued
      (fun factory => endsLoop (identify services target clock factory))
      (Waves.waves serviceWaveSize (openFactories priorFindings))) :
    Waves.issued (fun factory => endsLoop (identify services target clock factory))
        (Waves.waves serviceWaveSize (openFactories priorFindings)) =
      openFactories priorFindings := by
  have hprefix := Waves.issued_prefix
    (fun factory => endsLoop (identify services target clock factory))
    (Waves.waves serviceWaveSize (openFactories priorFindings))
  rw [Waves.flatten_waves] at hprefix
  exact hprefix.eq_of_length_le (List.Nodup.length_le_of_subset h hall)

end

/-! ### From the port scan to the streams -/

section

variable {services : Services} {target : ValidatedTarget} {observed : List Observed}
  {clock : String → Option ℤ → ℚ} {a : IPAddress} {port : ℤ}

/-- Pairs that are distinct stay so when their addresses are written out. -/
theorem nodup_text (h : (observed.map fun o => (o.address, o.port)).Nodup) :
    ((observed.map Observed.text).map fun o => (o.address, o.port)).Nodup := by
  have hinj : Function.Injective fun pair : IPAddress × ℤ => (pair.1.str, pair.2) :=
    fun pair pair' he => by
      obtain ⟨h1, h2⟩ := Prod.mk.inj he
      exact Prod.ext (str_injective h1) h2
  have hmap := h.map hinj
  rw [List.map_map] at hmap ⊢
  exact hmap

theorem mem_text : (⟨a.str, port, .opened⟩ : PortObservation) ∈ observed.map Observed.text ↔
    (⟨a, port, .opened⟩ : Observed) ∈ observed := by
  rw [List.mem_map]
  constructor
  · rintro ⟨o, ho, he⟩
    obtain ⟨h1, h2, h3⟩ := PortObservation.mk.inj he
    rw [← str_injective h1, ← h2, ← h3]
    exact ho
  · intro ho
    exact ⟨_, ho, rfl⟩

/-- The probes are for the pairs observed open. -/
theorem mem_factories_iff {factory : String × ℤ} :
    factory ∈ openFactories (toFindings clock (observed.map Observed.text)) ↔
      ∃ a port, factory = (a.str, port) ∧ (⟨a, port, .opened⟩ : Observed) ∈ observed := by
  obtain ⟨host, port⟩ := factory
  rw [mem_openFactories, mem_openPairs]
  constructor
  · intro ho
    obtain ⟨o, hmem, he⟩ := List.mem_map.mp ho
    obtain ⟨h1, h2, h3⟩ := PortObservation.mk.inj he
    refine ⟨o.address, o.port, by rw [← h1, ← h2], ?_⟩
    rw [← h3]
    exact hmem
  · rintro ⟨a, p, he, ho⟩
    obtain ⟨rfl, rfl⟩ := Prod.mk.inj he
    exact mem_text.mpr ho

end

/-- **Flow.** The open ports reach the streams, each at its address, exactly if
no address with a scope id was found open in a network, and no stream ends the
loop before the last wave. -/
theorem flows_iff (scope : ScopeProfile) (rawTarget : String) (env : Env) (c c' : Call)
    (target : ValidatedTarget)
    (h : (validateTarget scope rawTarget).run (handle env) c = (.ok target, c'))
    (addresses : List IPAddress) (haddresses : (iterTargetAddresses target).list = .ok addresses)
    (observed : List Observed) (hon : ∀ o ∈ observed, o.address ∈ addresses)
    (hdistinct : (observed.map fun o => (o.address, o.port)).Nodup)
    (clock : String → Option ℤ → ℚ) (services : Services)
    (hcancel : ∀ host port, services.cancelled host port = false) :
    Flows target observed (streamCalls services target clock
        (toFindings clock (observed.map Observed.text))) ↔
      ((∃ o ∈ observed, o.state = .opened) → ¬ ScopedAddress target) ∧
        Uninterrupted services target (toFindings clock (observed.map Observed.text)) := by
  have halone := (valid_of_run h).alone
  have hyielded : ∀ o ∈ observed, o.address ∈ (iterTargetAddresses target).yielded := by
    intro o ho
    unfold Generated.list at haddresses
    split at haddresses
    · rw [Except.ok.inj haddresses]
      exact hon o ho
    · cases haddresses
  have hnodup := nodup_openFactories (nodup_openPairs clock (nodup_text hdistinct))
  rw [← issued_eq_factories_iff clock]
  constructor
  · intro hflows
    constructor
    · rintro ⟨⟨a, port, state⟩, ho, rfl⟩ hscoped
      have hcall := (mem_streamCalls hcancel).mp ((hflows.opened a port).mpr ho)
      have hnone := addressFor_scoped halone hscoped (hyielded _ ho)
      rw [hcall.2] at hnone
      cases hnone
    · refine issued_eq_of_mem hnodup fun factory hfactory => ?_
      obtain ⟨a, port, rfl, ho⟩ := mem_factories_iff.mp hfactory
      exact ((mem_streamCalls hcancel).mp ((hflows.opened a port).mpr ho)).1
  · rintro ⟨hscoped, hissued⟩
    have hopened : ∀ a port, (a, port) ∈ streamCalls services target clock
        (toFindings clock (observed.map Observed.text)) ↔ ⟨a, port, .opened⟩ ∈ observed := by
      intro a port
      rw [mem_streamCalls hcancel, hissued, mem_openFactories, mem_openPairs, mem_text]
      refine and_iff_left_of_imp fun ho => ?_
      exact addressFor_of_yielded (hscoped ⟨_, ho, rfl⟩) (hyielded _ ho)
    refine ⟨nodup_streamCalls hcancel hnodup, hopened, fun a port hcall => ?_⟩
    exact covers_of_yielded (hyielded _ ((hopened a port).mp hcall))

/-- One port of the lab's pair, observed open. -/
def labObserved : List Observed := [⟨addressLit "10.10.0.4", 80, .opened⟩]

/-- Every stream opens, and nothing is read from it. -/
def silentServices : Services := ⟨fun _ _ => false, fun _ _ => .opened (.ok ""), fun _ _ => none⟩

theorem flows_iff_lab : Flows labPair labObserved (streamCalls silentServices labPair
      (fun _ _ => 0) (toFindings (fun _ _ => 0) (labObserved.map Observed.text))) ↔
    ((∃ o ∈ labObserved, o.state = .opened) → ¬ ScopedAddress labPair) ∧
      Uninterrupted silentServices labPair
        (toFindings (fun _ _ => 0) (labObserved.map Observed.text)) :=
  flows_iff labScope "10.10.0.4/31" _ (.new false) _ labPair labPair_validated
    [addressLit "10.10.0.4"] (by decide +kernel) labObserved (by decide +kernel)
    (List.nodup_singleton _) (fun _ _ => 0) silentServices fun _ _ => rfl

/-- A link's scope. -/
def linkScope : ScopeProfile :=
  (ScopeProfile.create "link" ["fe80::/64"] false true).toOption.get (by decide +kernel)

def linkValidation : Except Exn ValidatedTarget × Call :=
  (validateTarget linkScope "fe80::1%eth0/128").run (handle (.calm [])) (.new false)

/-- A network of one address, with a scope id. -/
def linkTarget : ValidatedTarget := linkValidation.1.toOption.get (by decide +kernel)

theorem linkTarget_validated : linkValidation = (.ok linkTarget, linkValidation.2) :=
  Prod.ext (Raising.eq_ok_get _) rfl

def linkAddress : IPAddress := addressLit "fe80::1%eth0"

/-- An open port of a scoped address is lost. -/
theorem not_flows : ¬ ∀ (scope : ScopeProfile) (rawTarget : String) (env : Env) (c c' : Call)
    (target : ValidatedTarget),
    (validateTarget scope rawTarget).run (handle env) c = (.ok target, c') →
    ∀ addresses : List IPAddress, (iterTargetAddresses target).list = .ok addresses →
    ∀ observed : List Observed, (∀ o ∈ observed, o.address ∈ addresses) →
    (observed.map fun o => (o.address, o.port)).Nodup →
    ∀ (clock : String → Option ℤ → ℚ) (services : Services),
    (∀ host port, services.cancelled host port = false) →
      Flows target observed (streamCalls services target clock
        (toFindings clock (observed.map Observed.text))) := by
  intro h
  have hlist : (iterTargetAddresses linkTarget).list = .ok [linkAddress] := by decide +kernel
  have hflows := h linkScope "fe80::1%eth0/128" (.calm []) (.new false) _ linkTarget
    linkTarget_validated [linkAddress] hlist [⟨linkAddress, 80, .opened⟩]
    (fun o ho => by rw [List.mem_singleton.mp ho]; exact List.mem_cons_self)
    (List.nodup_singleton _) (fun _ _ => 0) silentServices fun _ _ => rfl
  have hcall := (mem_streamCalls fun _ _ => rfl).mp
    ((hflows.opened linkAddress 80).mpr List.mem_cons_self)
  have hnone : addressFor linkTarget linkAddress.str = none := by decide +kernel
  rw [hcall.2] at hnone
  cases hnone

end ScanLedger
