/-
# The evidence of a scan

What the built-in modules find in one scan, taken together. Each module reads what the
modules before it found, and a module of the scan runs once, so that no two findings
of the scan have one identity (`evidence_distinct`); what a service answers is
stored beside the open port it was asked on, and that port was probed.

Key definitions: `BuiltinEnv`, `BuiltinEnv.Meets`, `Distinct`, `Traced`, `Evidence`.
Key theorems: `Evidence.step`, `Evidence.attemptsOf`, `evidence_distinct`, `evidence_traced`.
-/
import ScanLedger.Identity
import ScanLedger.Outcome

namespace ScanLedger

/-! ### What the modules meet -/

/-- What the built-in modules meet in a scan: the options and the clock of each, what
their probes come to, and what services answer. -/
structure BuiltinEnv where
  options : BuiltinModule → JsonFields
  clock : BuiltinModule → String → Option ℤ → ℚ
  discovery : Probes
  scan : Probes
  services : Services
  tables : CharTables
  web : WebServices

namespace BuiltinEnv

/-- The run of a module, on what was found before it. -/
def run (b : BuiltinEnv) (priorFindings : List Finding) : BuiltinModule → BuiltinRun
  | .hostDiscovery => .hostDiscovery b.discovery (b.options .hostDiscovery)
  | .portScan => .portScan b.scan (b.options .portScan)
  | .serviceDetect => .serviceDetect b.services priorFindings
  | .protocolEnum => .protocolEnum b.tables b.web priorFindings

def result (b : BuiltinEnv) (target : ValidatedTarget) (m : BuiltinModule)
    (priorFindings : List Finding) : Except Exn ModuleResult :=
  (b.run priorFindings m).result (b.clock m) target

/-- The modules of a scan end as the built-in ones do. -/
def Meets (b : BuiltinEnv) (target : ValidatedTarget) (env : OutcomeEnv) : Prop :=
  ∀ (m : BuiltinModule) (metadata : ModuleMetadata) (prior : List Finding),
    metadata.name = m.name → env.ends metadata prior = b.result target m prior

theorem module_run (b : BuiltinEnv) (prior : List Finding) (m : BuiltinModule) :
    (b.run prior m).module = m := by
  cases m <;> rfl

theorem labels_result {b : BuiltinEnv} {target : ValidatedTarget} {m : BuiltinModule}
    {prior : List Finding} {result : ModuleResult} (h : b.result target m prior = .ok result) :
    ∀ f ∈ result.findings, m.Labels f := fun f hf => by
  have hlabels := labelled h hf
  rwa [module_run] at hlabels

end BuiltinEnv

/-! ### What is collected -/

/-- What a module collects it owes to some of its factories, one for each. -/
theorem collected {φ β : Type} {run : φ → Except Exn (Option β)} :
    ∀ {fs : List φ} {found : List β} {budgetReached : Bool},
      collectOutcomes (fs.map run) = .ok (found, budgetReached) → ∃ fs' : List φ,
        fs'.Sublist fs ∧ List.Forall₂ (fun f b => run f = .ok (some b)) fs' found
  | [], _, _, h => by
    cases h
    exact ⟨[], .refl _, .nil⟩
  | f :: fs, found, budgetReached, h => by
    rw [List.map_cons] at h
    cases hf : run f with
    | error x =>
      rw [hf] at h
      cases x with
      | budgetExceeded e =>
        obtain ⟨⟨more, _⟩, hrest, h⟩ := Raising.bind_eq_ok.mp h
        cases h
        obtain ⟨fs', hsub, hfs'⟩ := collected hrest
        exact ⟨fs', hsub.cons f, hfs'⟩
      | _ => cases h
    | ok b =>
      rw [hf] at h
      cases b with
      | none =>
        obtain ⟨fs', hsub, hfs'⟩ := collected h
        exact ⟨fs', hsub.cons f, hfs'⟩
      | some b =>
        obtain ⟨⟨more, _⟩, hrest, h⟩ := Raising.bind_eq_ok.mp h
        cases h
        obtain ⟨fs', hsub, hfs'⟩ := collected hrest
        exact ⟨f :: fs', hsub.cons_cons f, hfs'.cons hf⟩

theorem map_eq_of_forall₂ {α β κ : Type} {R : α → β → Prop} {name : α → κ} {key : β → κ}
    (hkey : ∀ a b, R a b → key b = name a) {as : List α} {bs : List β}
    (h : List.Forall₂ R as bs) : bs.map key = as.map name := by
  induction h with
  | nil => rfl
  | cons hab _ ih => rw [List.map_cons, List.map_cons, hkey _ _ hab, ih]

theorem exists_of_forall₂ {α β : Type} {R : α → β → Prop} {as : List α} {bs : List β}
    (h : List.Forall₂ R as bs) {b : β} (hb : b ∈ bs) : ∃ a ∈ as, R a b := by
  induction h with
  | nil => cases hb
  | cons hab _ ih =>
    rcases List.mem_cons.mp hb with rfl | hb
    · exact ⟨_, List.mem_cons_self, hab⟩
    · obtain ⟨a, ha, hr⟩ := ih hb
      exact ⟨a, List.mem_cons_of_mem _ ha, hr⟩

/-- What is collected has distinct keys if the factories have distinct names. -/
theorem nodup_collected {φ β κ : Type} {run : φ → Except Exn (Option β)} (name : φ → κ)
    {key : β → κ} {fs : List φ} {waveSize : ℕ} {found : List β} {budgetReached : Bool}
    (h : collectOutcomes (inBoundedWaves run fs waveSize) = .ok (found, budgetReached))
    (hkey : ∀ f b, run f = .ok (some b) → key b = name f) (hname : (fs.map name).Nodup) :
    (found.map key).Nodup := by
  rw [inBoundedWaves_eq] at h
  obtain ⟨fs', hsub, hfs'⟩ := collected h
  rw [map_eq_of_forall₂ hkey hfs']
  exact hname.sublist (hsub.map name)

/-! ### One module -/

/-- No two findings have one identity. -/
def Distinct (findings : List Finding) : Prop := (findings.map Finding.identity).Nodup

section

variable {clock : String → Option ℤ → ℚ} {target : ValidatedTarget} {result : ModuleResult}
  {addresses : List IPAddress}

theorem nodup_addresses (h : target.network = none → target.addresses.Nodup)
    (haddresses : (iterTargetAddresses target).list = .ok addresses) : addresses.Nodup := by
  unfold iterTargetAddresses at haddresses
  cases hn : target.network with
  | none =>
    rw [hn] at haddresses
    cases haddresses
    exact h hn
  | some n =>
    rw [hn] at haddresses
    dsimp only at haddresses
    split_ifs at haddresses with hmax htwo
    · cases haddresses
    · cases haddresses
      exact List.nodup_singleton _
    · cases haddresses
      exact (hosts_covers (not_le.mp htwo)).once.of_map _

theorem distinct_of_hosts {findings : List Finding} (h : (findings.map (·.host)).Nodup) :
    Distinct findings :=
  List.Nodup.of_map FindingIdentity.host (by rwa [List.map_map])

theorem distinct_hostDiscovery {probes : Probes} {options : JsonFields}
    (hnodup : target.network = none → target.addresses.Nodup)
    (h : hostDiscovery clock probes target options = .ok result) : Distinct result.findings := by
  obtain ⟨ports, -, h⟩ := Raising.bind_eq_ok.mp h
  obtain ⟨addresses, haddresses, h⟩ := Raising.bind_eq_ok.mp h
  obtain ⟨⟨findings, budgetReached⟩, hcollected, h⟩ := Raising.bind_eq_ok.mp h
  cases h
  refine distinct_of_hosts (nodup_collected IPAddress.str hcollected ?_ ?_)
  · intro a f hprobe
    obtain ⟨port, -, hproved⟩ := probeHost_eq_some hprobe
    obtain ⟨evidence, -, rfl⟩ := hproved.finding
    rfl
  · exact (nodup_addresses hnodup haddresses).map str_injective

/-- The findings of one host, its ports being distinct. -/
theorem distinct_hostFindings {host : String} {observations : List PortObservation}
    (h : (portsIn .opened observations).Nodup) :
    Distinct (hostFindings clock host observations) := by
  unfold Distinct hostFindings
  rw [List.map_append, List.nodup_append]
  refine ⟨?_, List.nodup_singleton _, ?_⟩
  · rw [List.map_map]
    refine ((List.perm_insertionSort _ _).nodup_iff.mpr h).map fun port port' he => ?_
    exact Option.some.inj (congrArg FindingIdentity.port he)
  · intro i hi i' hi' he
    obtain ⟨f, hf, rfl⟩ := List.mem_map.mp hi
    obtain ⟨port, -, rfl⟩ := List.mem_map.mp hf
    rw [List.map_singleton, List.mem_singleton] at hi'
    rw [hi'] at he
    exact absurd (congrArg FindingIdentity.port he) nofun

theorem distinct_toFindings {observations : List PortObservation}
    (h : (observations.map fun o => (o.address, o.port)).Nodup) :
    Distinct (toFindings clock observations) := by
  rw [toFindings_eq]
  unfold Distinct
  rw [List.map_flatMap, List.nodup_flatMap]
  refine ⟨fun host _ => distinct_hostFindings (nodup_portsIn h host .opened),
    (Groups.nodup_eraseDups _).imp fun {host host'} hne => ?_⟩
  intro i hi hi'
  obtain ⟨f, hf, rfl⟩ := List.mem_map.mp hi
  obtain ⟨f', hf', he⟩ := List.mem_map.mp hi'
  have hhost := congrArg FindingIdentity.host he
  exact hne ((host_of_mem hf).symm.trans (hhost.symm.trans (host_of_mem hf')))

/-- Of each address and port one thing is observed. -/
theorem nodup_observations {probes : Probes} {options : JsonFields}
    {observations : List PortObservation} {budgetReached : Bool}
    (hnodup : target.network = none → target.addresses.Nodup)
    (h : scanPorts probes target options = .ok (observations, budgetReached)) :
    (observations.map fun o => (o.address, o.port)).Nodup := by
  obtain ⟨ports, hports, h⟩ := Raising.bind_eq_ok.mp h
  obtain ⟨addresses, haddresses, hcollected⟩ := Raising.bind_eq_ok.mp h
  refine nodup_collected (fun pair => (pair.1.str, pair.2)) hcollected ?_ ?_
  · rintro ⟨a, port⟩ o hprobe
    unfold probe at hprobe
    split_ifs at hprobe
    · cases hprobe
    · obtain ⟨state, -, ho⟩ := Raising.bind_eq_ok.mp hprobe
      cases ho
      rfl
  · have hpairs : (factories addresses ports).Nodup :=
      Groups.nodup_pairs (nodup_addresses hnodup haddresses) fun _ _ =>
        (portsChecked_of_resolvePorts hports).2.1
    refine hpairs.map fun pair pair' he => ?_
    exact Prod.ext (str_injective (Prod.mk.inj he).1) (Prod.mk.inj he).2

theorem distinct_portScan {probes : Probes} {options : JsonFields}
    (hnodup : target.network = none → target.addresses.Nodup)
    (h : portScan clock probes target options = .ok result) : Distinct result.findings := by
  obtain ⟨⟨observations, budgetReached⟩, hobservations, h⟩ := Raising.bind_eq_ok.mp h
  cases h
  exact distinct_toFindings (nodup_observations hnodup hobservations)

variable {priorFindings : List Finding}

theorem distinct_serviceDetect {services : Services} (hprior : (openPairs priorFindings).Nodup)
    (h : serviceDetect services target clock priorFindings = .ok result) :
    Distinct result.findings := by
  unfold serviceDetect at h
  split_ifs at h with hnone
  · cases h
    exact List.nodup_nil
  · obtain ⟨⟨findings, budgetReached⟩, hcollected, h⟩ := Raising.bind_eq_ok.mp h
    cases h
    have hpairs : (findings.map fun f => (f.host, f.port)).Nodup := by
      refine nodup_collected (fun pair => (pair.1, some pair.2)) hcollected ?_ ?_
      · rintro ⟨host, port⟩ f hidentify
        obtain ⟨guess, banner, rfl⟩ := identify_eq_some hidentify
        rfl
      · refine (nodup_openFactories hprior).map fun pair pair' he => ?_
        exact Prod.ext (Prod.mk.inj he).1 (Option.some.inj (Prod.mk.inj he).2)
    refine List.Nodup.of_map (fun i : FindingIdentity => (i.host, i.port)) ?_
    rwa [List.map_map]

variable {u : CharTables} {web : WebServices} {host : String} {port : ℤ} {found : List Finding}

theorem kind_of_certificate {x509 : X509} {tls : TlsInfo} {f : Finding}
    (h : certificateFinding clock host port x509 tls = some f) :
    f.kind = "tls.session" ∨ f.kind = "tls.cert" := by
  obtain ⟨der, -, rfl⟩ := Option.map_eq_some_iff.mp h
  cases parseCertificate x509 der with
  | none => exact Or.inl rfl
  | some details => exact Or.inr rfl

theorem kind_of_robots {response : HttpResponse} {f : Finding}
    (h : robotsFinding clock host port response = some f) : f.kind = "http.robots" := by
  unfold robotsFinding at h
  dsimp only at h
  split_ifs at h
  cases h
  rfl

/-- A port has one finding of a kind. -/
theorem nodup_kinds (h : enumerate u web target clock (host, port) = .ok found) :
    (found.map (·.kind)).Nodup := by
  unfold enumerate at h
  dsimp only at h
  split_ifs at h with hcancelled
  · cases h
    exact List.nodup_nil
  split at h
  · cases h
    exact List.nodup_nil
  split at h
  · cases h
  · cases h
    exact List.nodup_nil
  · rename_i tls exchange _
    obtain ⟨exchange, -, h⟩ := Raising.bind_eq_ok.mp h
    obtain ⟨robots, hrobots, h⟩ := Raising.bind_eq_ok.mp h
    cases h
    have hdirectives : robots.toList.map (·.kind) = [] ∨
        robots.toList.map (·.kind) = ["http.robots"] := by
      cases robots with
      | none => exact Or.inl rfl
      | some f =>
        obtain ⟨response, hresponse⟩ := directives_of_fetchPath hrobots
        exact Or.inr (by rw [Option.toList_some, List.map_singleton, kind_of_robots hresponse])
    have hresponses : ∀ responses : Option HttpResponse,
        (responses.toList.flatMap fun response =>
          httpFindings clock host port response (decide (port ∈ tlsPorts))).map (·.kind) = [] ∨
        (responses.toList.flatMap fun response =>
          httpFindings clock host port response (decide (port ∈ tlsPorts))).map (·.kind) =
            ["http.response"]
      | none => Or.inl rfl
      | some _ => Or.inr rfl
    have hcertificate : ∃ kinds : List String,
        (tls.bind (certificateFinding clock host port web.x509)).toList.map (·.kind) = kinds ∧
          (kinds = [] ∨ kinds = ["tls.session"] ∨ kinds = ["tls.cert"]) := by
      refine ⟨_, rfl, ?_⟩
      cases hc : tls.bind (certificateFinding clock host port web.x509) with
      | none => exact Or.inl rfl
      | some f =>
        obtain ⟨info, -, hinfo⟩ := Option.bind_eq_some_iff.mp hc
        rcases kind_of_certificate hinfo with hkind | hkind
        · exact Or.inr (Or.inl (by rw [Option.toList_some, List.map_singleton, hkind]))
        · exact Or.inr (Or.inr (by rw [Option.toList_some, List.map_singleton, hkind]))
    obtain ⟨kinds, hkinds, hcases⟩ := hcertificate
    rw [List.map_append, List.map_append, hkinds]
    rcases hcases with rfl | rfl | rfl <;> rcases hresponses (fetch u exchange) with hr | hr <;>
      rcases hdirectives with hd | hd <;> rw [hr, hd] <;> decide

/-- What a service publishes is found at its port. -/
theorem Published.place {x509 : X509} {f : Finding} (h : Published clock x509 host port f) :
    (f.host, f.port) = (host, some port) := by
  cases h with
  | certificate tls h =>
    obtain ⟨der, -, rfl⟩ := Option.map_eq_some_iff.mp h
    cases parseCertificate x509 der <;> rfl
  | response response useTls h =>
    rw [List.mem_singleton.mp h]
  | directives response h =>
    unfold robotsFinding at h
    dsimp only at h
    split_ifs at h
    cases h
    rfl

theorem place_of_enumerate {factory : String × ℤ} {f : Finding}
    (h : enumerate u web target clock factory = .ok found) (hf : f ∈ found) :
    (f.host, f.port) = (factory.1, some factory.2) :=
  (mem_of_enumerate h hf).place

/-- Ports that are distinct have distinct findings. -/
theorem distinct_flatten {fs : List (String × ℤ)} {found : List (List Finding)}
    (h : List.Forall₂ (fun f b => enumerate u web target clock f = .ok b) fs found)
    (hnodup : fs.Nodup) : Distinct found.flatten := by
  unfold Distinct
  induction h with
  | nil => exact List.nodup_nil
  | @cons pair findings fs found hrun hrest ih =>
    obtain ⟨hpair, hfs⟩ := List.nodup_cons.mp hnodup
    rw [List.flatten_cons, List.map_append, List.nodup_append]
    refine ⟨List.Nodup.of_map FindingIdentity.kind ?_, ih hfs, ?_⟩
    · rw [List.map_map]
      exact nodup_kinds hrun
    · -- a finding of a later port is at that port
      intro i hi i' hi' he
      obtain ⟨f, hf, rfl⟩ := List.mem_map.mp hi
      obtain ⟨f', hf', rfl⟩ := List.mem_map.mp hi'
      obtain ⟨findings', hfindings', hf'⟩ := List.mem_flatten.mp hf'
      obtain ⟨pair', hpair', hrun'⟩ := exists_of_forall₂ hrest hfindings'
      have hplace : (pair.1, some pair.2) = (pair'.1, some pair'.2) := by
        rw [← place_of_enumerate hrun hf, ← place_of_enumerate hrun' hf']
        exact Prod.ext (congrArg FindingIdentity.host he) (congrArg FindingIdentity.port he)
      have hsame : pair = pair' :=
        Prod.ext (Prod.mk.inj hplace).1 (Option.some.inj (Prod.mk.inj hplace).2)
      exact hpair (hsame ▸ hpair')

theorem distinct_protocolEnum (hprior : (openPairs priorFindings).Nodup)
    (h : protocolEnum u web target clock priorFindings = .ok result) :
    Distinct result.findings := by
  unfold protocolEnum at h
  split_ifs at h with hnone
  · cases h
    exact List.nodup_nil
  · obtain ⟨⟨found, budgetReached⟩, hcollected, h⟩ := Raising.bind_eq_ok.mp h
    cases h
    rw [inBoundedWaves_eq] at hcollected
    obtain ⟨fs, hsub, hfs⟩ := collected hcollected
    have hruns : List.Forall₂ (fun f b => enumerate u web target clock f = .ok b) fs found := by
      refine hfs.imp fun pair findings hrun => ?_
      obtain ⟨_, henumerate, he⟩ := Raising.map_eq_ok.mp hrun
      cases he
      exact henumerate
    exact distinct_flatten hruns ((nodup_openFactories hprior).sublist hsub)

end

/-! ### What is found where -/

/-- Some built-in module labelled the finding. -/
def Labelled (f : Finding) : Prop := ∃ m : BuiltinModule, m.Labels f

/-- A kind is one module's, with one key. -/
theorem label_of_kind : ∀ m m' : BuiltinModule, ∀ label ∈ m.labels, ∀ label' ∈ m'.labels,
    label.1 = label'.1 → m = m' ∧ label.2 = label'.2 := by
  intro m m'
  cases m <;> cases m' <;> decide

/-- The kind, the host and the port are all there is to the identity of a finding. -/
theorem identity_of_labelled {f f' : Finding} (h : Labelled f) (h' : Labelled f')
    (hkind : f.kind = f'.kind) (hhost : f.host = f'.host) (hport : f.port = f'.port) :
    f.identity = f'.identity := by
  obtain ⟨m, hmodule, key, hlabel, hkey⟩ := h
  obtain ⟨m', hmodule', key', hlabel', hkey'⟩ := h'
  obtain ⟨rfl, hkeys⟩ := label_of_kind m m' _ hlabel _ hlabel' hkind
  unfold Finding.identity
  rw [hmodule, hmodule', hkind, hhost, hport, hkey, hkey', hport]
  exact congrArg (fun k => FindingIdentity.mk m.name f'.kind f'.host f'.port (k ++ _)) hkeys

/-- Distinct findings name an open port once. -/
theorem nodup_openPairs_of_distinct {findings : List Finding} (h : Distinct findings)
    (hlabelled : ∀ f ∈ findings, Labelled f) : (openPairs findings).Nodup := by
  have hpairs : findings.Pairwise fun f f' =>
      Labelled f ∧ Labelled f' ∧ f.identity ≠ f'.identity :=
    (List.pairwise_map.mp h).imp_of_mem fun hf hf' hne => ⟨hlabelled _ hf, hlabelled _ hf', hne⟩
  refine hpairs.filterMap _ fun f f' hff' => ?_
  intro pair hpair pair' hpair' he
  obtain ⟨hf, hf', hne⟩ := hff'
  split_ifs at hpair with hkind
  split_ifs at hpair' with hkind'
  obtain ⟨port, hport, rfl⟩ := Option.map_eq_some_iff.mp hpair
  obtain ⟨port', hport', rfl⟩ := Option.map_eq_some_iff.mp hpair'
  obtain ⟨hhost, rfl⟩ := Prod.mk.inj he
  exact hne (identity_of_labelled hf hf' (hkind.trans hkind'.symm) hhost (hport.trans hport'.symm))

/-- What an open pair comes from. -/
theorem exists_of_openPairs {findings : List Finding} {host : String} {port : ℤ}
    (h : (host, port) ∈ openPairs findings) :
    ∃ f ∈ findings, f.kind = "port.open" ∧ f.host = host ∧ f.port = some port := by
  obtain ⟨f, hf, hpair⟩ := List.mem_filterMap.mp h
  split_ifs at hpair with hkind
  obtain ⟨port', hport, he⟩ := Option.map_eq_some_iff.mp hpair
  obtain ⟨rfl, rfl⟩ := Prod.mk.inj he
  exact ⟨f, hf, hkind, rfl, hport⟩

/-- The address is one of the target's, and the port scan's connection to its port was
accepted. -/
def BuiltinEnv.Accepts (b : BuiltinEnv) (target : ValidatedTarget) (host : String) (port : ℤ) :
    Prop :=
  ∃ a ∈ (iterTargetAddresses target).yielded, a.str = host ∧ b.scan.cancelled a port = false ∧
    b.scan.connect a port = .accepted

/-- A finding of the scan and where it comes from: it is of an address of the target,
and if it is of a port, the scan found that port open. -/
structure Traced (b : BuiltinEnv) (target : ValidatedTarget) (found : List Finding)
    (f : Finding) : Prop where
  address : ∃ a ∈ (iterTargetAddresses target).yielded, a.str = f.host
  opened : ∀ port, f.port = some port → b.Accepts target f.host port ∧
    ∃ f' ∈ found, f'.kind = "port.open" ∧ f'.host = f.host ∧ f'.port = some port

/-- The findings of a scan so far. -/
structure Evidence (b : BuiltinEnv) (target : ValidatedTarget) (found : List Finding) : Prop where
  distinct : Distinct found
  labelled : ∀ f ∈ found, Labelled f
  traced : ∀ f ∈ found, Traced b target found f

/-! ### The scan -/

section

variable {b : BuiltinEnv} {target : ValidatedTarget} {found more : List Finding} {f : Finding}
  {m : BuiltinModule} {result : ModuleResult}

theorem Traced.append (h : Traced b target found f) : Traced b target (found ++ more) f where
  address := h.address
  opened port hport := by
    obtain ⟨haccepts, f', hf', hopen⟩ := h.opened port hport
    exact ⟨haccepts, f', List.mem_append_left more hf', hopen⟩

theorem yielded_of_list {addresses : List IPAddress}
    (h : (iterTargetAddresses target).list = .ok addresses) :
    (iterTargetAddresses target).yielded = addresses := by
  unfold Generated.list at h
  split at h
  · exact Except.ok.inj h
  · cases h

/-- At an open port that was found before. -/
theorem Evidence.traced_of_openPairs (h : Evidence b target found) {host : String} {port : ℤ}
    (hopen : (host, port) ∈ openPairs found) (hplace : (f.host, f.port) = (host, some port)) :
    Traced b target found f := by
  obtain ⟨rfl, hport⟩ := Prod.mk.inj hplace
  obtain ⟨f', hf', hkind, hhost, hport'⟩ := exists_of_openPairs hopen
  have htraced := h.traced f' hf'
  refine ⟨hhost ▸ htraced.address, fun p hp => ?_⟩
  have hp' : port = p := Option.some.inj (hport.symm.trans hp)
  subst hp'
  exact ⟨hhost ▸ (htraced.opened port hport').1, f', hf', hkind, hhost, hport'⟩

/-- What is observed was probed. -/
theorem probed_of_observed {probes : Probes} {options : JsonFields}
    {observations : List PortObservation} {budgetReached : Bool} {o : PortObservation}
    (h : scanPorts probes target options = .ok (observations, budgetReached))
    (ho : o ∈ observations) : ∃ a ∈ (iterTargetAddresses target).yielded, a.str = o.address ∧
      probes.cancelled a o.port = false ∧ probeState (probes.connect a o.port) = .ok o.state := by
  obtain ⟨ports, hports, h⟩ := Raising.bind_eq_ok.mp h
  obtain ⟨addresses, haddresses, hcollected⟩ := Raising.bind_eq_ok.mp h
  obtain ⟨⟨a, port⟩, hfactory, hprobe⟩ := mem_of_inBoundedWaves hcollected ho
  unfold probe at hprobe
  split_ifs at hprobe with hcancelled
  · cases hprobe
  · obtain ⟨state, hstate, he⟩ := Raising.bind_eq_ok.mp hprobe
    cases he
    rw [yielded_of_list haddresses]
    exact ⟨a, (mem_factories.mp hfactory).1, rfl, eq_false_of_ne_true hcancelled, hstate⟩

theorem accepted_of_opened {outcome : ProbeOutcome} (h : probeState outcome = .ok .opened) :
    outcome = .accepted := by
  cases outcome <;> first | rfl | cases h

theorem traced_portScan {clock : String → Option ℤ → ℚ} {options : JsonFields}
    (h : portScan clock b.scan target options = .ok result) (hf : f ∈ result.findings) :
    Traced b target result.findings f := by
  obtain ⟨⟨observations, budgetReached⟩, hobservations, h⟩ := Raising.bind_eq_ok.mp h
  cases h
  have hfound := hf
  rw [toFindings_eq] at hf
  obtain ⟨host, hhost, hf⟩ := List.mem_flatMap.mp hf
  obtain ⟨o, ho, rfl⟩ := List.mem_map.mp (List.mem_eraseDups.mp hhost)
  obtain ⟨a, ha, hstr, -⟩ := probed_of_observed hobservations ho
  have hhost := host_of_mem hf
  refine ⟨⟨a, ha, hstr.trans hhost.symm⟩, fun port hport => ?_⟩
  rcases List.mem_append.mp hf with hf | hf
  · obtain ⟨port', hport', rfl⟩ := List.mem_map.mp hf
    cases hport
    have hpair : (o.address, port) ∈ openPairs (toFindings clock observations) :=
      List.mem_filterMap.mpr ⟨_, hfound, rfl⟩
    obtain ⟨a', ha', hstr', hcancelled, hstate⟩ :=
      probed_of_observed hobservations (mem_openPairs.mp hpair)
    exact ⟨⟨a', ha', hstr', hcancelled, accepted_of_opened hstate⟩, _, hfound, rfl, rfl, rfl⟩
  · rw [List.mem_singleton.mp hf] at hport
    cases hport

theorem Evidence.traced_result (h : Evidence b target found)
    (hresult : b.result target m found = .ok result) (hf : f ∈ result.findings) :
    Traced b target (found ++ result.findings) f := by
  cases m with
  | hostDiscovery =>
    obtain ⟨ports, addresses, -, haddresses, a, ha, port, -, hproved⟩ :=
      mem_hostDiscovery hresult hf
    obtain ⟨evidence, -, rfl⟩ := hproved.finding
    exact ⟨⟨a, yielded_of_list haddresses ▸ ha, rfl⟩, fun _ hport => by cases hport⟩
  | portScan =>
    have htraced := traced_portScan hresult hf
    refine ⟨htraced.address, fun port hport => ?_⟩
    obtain ⟨haccepts, f', hf', hopen⟩ := htraced.opened port hport
    exact ⟨haccepts, f', List.mem_append_right found hf', hopen⟩
  | serviceDetect =>
    obtain ⟨host, port, guess, banner, hopen, rfl⟩ := mem_serviceDetect hresult hf
    exact (h.traced_of_openPairs hopen rfl).append
  | protocolEnum =>
    obtain ⟨host, port, hopen, hpublished⟩ := mem_protocolEnum hresult hf
    exact (h.traced_of_openPairs hopen hpublished.place).append

theorem Evidence.distinct_result (h : Evidence b target found)
    (hnodup : target.network = none → target.addresses.Nodup)
    (hresult : b.result target m found = .ok result) : Distinct result.findings := by
  have hopen := nodup_openPairs_of_distinct h.distinct h.labelled
  cases m with
  | hostDiscovery => exact distinct_hostDiscovery hnodup hresult
  | portScan => exact distinct_portScan hnodup hresult
  | serviceDetect => exact distinct_serviceDetect hopen hresult
  | protocolEnum => exact distinct_protocolEnum hopen hresult

/-- **A module** that has not run in the scan adds to its evidence. -/
theorem Evidence.step (h : Evidence b target found)
    (hnodup : target.network = none → target.addresses.Nodup)
    (hfresh : ∀ f ∈ found, f.module ≠ m.name) (hresult : b.result target m found = .ok result) :
    Evidence b target (found ++ result.findings) where
  distinct := by
    unfold Distinct
    rw [List.map_append, List.nodup_append]
    refine ⟨h.distinct, h.distinct_result hnodup hresult, ?_⟩
    intro i hi i' hi' he
    obtain ⟨f, hf, rfl⟩ := List.mem_map.mp hi
    obtain ⟨f', hf', rfl⟩ := List.mem_map.mp hi'
    have hmodule : f'.module = m.name := (BuiltinEnv.labels_result hresult f' hf').module
    exact hfresh f hf ((congrArg FindingIdentity.module he).trans hmodule)
  labelled f hf := by
    rcases List.mem_append.mp hf with hf | hf
    · exact h.labelled f hf
    · exact ⟨m, BuiltinEnv.labels_result hresult f hf⟩
  traced f hf := by
    rcases List.mem_append.mp hf with hf | hf
    · exact (h.traced f hf).append
    · exact h.traced_result hresult hf

variable {env : OutcomeEnv}

/-- **The modules of a scan**, each run once, on what those before it found. -/
theorem Evidence.attemptsOf (scanId : ℕ) (hmeets : b.Meets target env)
    (hnodup : target.network = none → target.addresses.Nodup) :
    ∀ (modules : List ModuleMetadata) (prior : List Finding),
      (∀ metadata ∈ modules, ∃ m : BuiltinModule, metadata.name = m.name) →
      (modules.map (·.name)).Nodup → (∀ f ∈ prior, f.module ∉ modules.map (·.name)) →
      Evidence b target prior →
        Evidence b target (prior ++ foundBy (env.attemptsOf scanId target modules prior))
  | [], prior, _, _, _, h => by
    unfold OutcomeEnv.attemptsOf foundBy
    rwa [List.flatMap_nil, List.append_nil]
  | metadata :: rest, prior, hbuiltin, hmodules, hprior, h => by
    obtain ⟨m, hm⟩ := hbuiltin metadata List.mem_cons_self
    obtain ⟨hname, hrest⟩ := List.nodup_cons.mp hmodules
    have hends := hmeets m metadata prior hm
    have hbuiltin' := fun m' hm' => hbuiltin m' (List.mem_cons_of_mem metadata hm')
    have hprior' : ∀ f ∈ prior, f.module ∉ rest.map (·.name) := fun f hf hmem =>
      hprior f hf (List.mem_cons_of_mem _ hmem)
    unfold OutcomeEnv.attemptsOf foundBy
    rw [List.flatMap_cons, ← List.append_assoc]
    unfold OutcomeEnv.attempt
    dsimp only
    cases hresult : b.result target m prior with
    | error x =>
      rw [hends, hresult]
      change Evidence b target (prior ++ [] ++
        foundBy (env.attemptsOf scanId target rest (prior ++ [])))
      rw [List.append_nil]
      exact attemptsOf scanId hmeets hnodup rest prior hbuiltin' hrest hprior' h
    | ok result =>
      rw [hends, hresult]
      have hlabels := BuiltinEnv.labels_result hresult
      have hfresh : ∀ f ∈ prior, f.module ≠ m.name := fun f hf he =>
        hprior f hf (by rw [List.map_cons, hm, he]; exact List.mem_cons_self)
      refine attemptsOf scanId hmeets hnodup rest (prior ++ result.findings) hbuiltin' hrest ?_
        (h.step hnodup hfresh hresult)
      intro f hf
      rcases List.mem_append.mp hf with hf | hf
      · exact hprior' f hf
      · rw [(hlabels f hf).module, ← hm]
        exact hname

end

/-! ### The execution -/

theorem builtin_of_mem {metadata : ModuleMetadata} (h : metadata ∈ builtinModules.modules) :
    ∃ m : BuiltinModule, metadata.name = m.name := by
  simp only [builtinModules, List.mem_cons, List.not_mem_nil, or_false] at h
  rcases h with rfl | rfl | rfl | rfl
  · exact ⟨.hostDiscovery, rfl⟩
  · exact ⟨.portScan, rfl⟩
  · exact ⟨.serviceDetect, rfl⟩
  · exact ⟨.protocolEnum, rfl⟩

/-- Names resolve as `resolve_hostname` resolves them. -/
def OutcomeEnv.ResolvesBy (env : OutcomeEnv)
    (getaddrinfo : String → Except LookupError (List String)) : Prop :=
  ∀ hostname addresses, env.resolve hostname = .ok addresses →
    resolveHostname getaddrinfo hostname = .ok addresses

/-- What `validate_target` makes of the target of a scan. -/
def OutcomeEnv.Validates (env : OutcomeEnv) (scope : ScopeProfile) (scan : ScanRow)
    (target : ValidatedTarget) : Prop :=
  ((validateTarget scope scan.targetInput).run (handle env.guard) (.new false)).1 = .ok target

section

variable {env : OutcomeEnv} {b : BuiltinEnv} {scope : ScopeProfile} {scan : ScanRow}
  {target : ValidatedTarget} {a : IPAddress}
  {getaddrinfo : String → Except LookupError (List String)}

theorem OutcomeEnv.Validates.valid (h : env.Validates scope scan target) :
    target.Valid env.guard.protocol scope :=
  valid_of_run (Prod.ext h rfl)

theorem OutcomeEnv.Validates.nodup (h : env.Validates scope scan target)
    (hresolve : env.ResolvesBy getaddrinfo) (hn : target.network = none) :
    target.addresses.Nodup := by
  rcases (h.valid.found hn).resolved with ⟨a, ha⟩ | ⟨hostname, hanswer⟩
  · rw [ha]
    exact List.nodup_singleton a
  · have hanswer' : (env.resolve hostname).mapError ResolveError.resolution =
        .ok target.addresses := hanswer
    cases hr : env.resolve hostname with
    | error text =>
      rw [hr] at hanswer'
      cases hanswer'
    | ok addresses =>
      rw [hr] at hanswer'
      cases hanswer'
      exact nodup_of_resolveHostname (hresolve hostname _ hr)

/-- The addresses that are probed are the scope's. -/
theorem OutcomeEnv.Validates.allowed (h : env.Validates scope scan target)
    (ha : a ∈ (iterTargetAddresses target).yielded) : addressDenial scope a = none := by
  cases hn : target.network with
  | some n => exact addressDenial_of_network (h.valid.network n hn).2 (contains_of_yielded hn ha)
  | none =>
    unfold iterTargetAddresses at ha
    simp only [hn] at ha
    exact h.valid.addresses hn a ha

/-- The findings of an execution are the evidence of its target, if it has one. -/
theorem evidence_runs {db : Db} {scopeRow : ScopeProfileRow}
    (h : Claimed builtinModules db scan scopeRow scope) (hselected : scan.selectedModules.Nodup)
    (hmeets : ∀ target, env.Validates scope scan target → b.Meets target env)
    (hresolve : env.ResolvesBy getaddrinfo) :
    foundBy (env.runs builtinModules scope scan) = [] ∨
      ∃ target, env.Validates scope scan target ∧
        Evidence b target (foundBy (env.runs builtinModules scope scan)) := by
  unfold OutcomeEnv.runs
  split
  · next target htarget =>
    refine Or.inr ⟨target, htarget, ?_⟩
    obtain ⟨modules, hordered, hperm⟩ := h.selected_of_ordered
    have hnames : ((builtinModules.applicable scan).map (·.name)).Nodup := by
      rw [applicable_of_ordered hordered]
      exact (hperm.nodup_iff.mpr hselected).sublist (List.filter_sublist.map _)
    have hevidence := Evidence.attemptsOf scan.id (hmeets target htarget)
      (fun hn => OutcomeEnv.Validates.nodup htarget hresolve hn)
      (builtinModules.applicable scan) []
      (fun m hm => builtin_of_mem ((h.mem_applicable m).mp hm).1)
      hnames (fun f hf => absurd hf List.not_mem_nil)
      ⟨List.nodup_nil, fun f hf => absurd hf List.not_mem_nil,
        fun f hf => absurd hf List.not_mem_nil⟩
    rwa [List.nil_append] at hevidence
  · exact Or.inl rfl

end

/-- One port is scanned, and its service says nothing. -/
def labEvidence : BuiltinEnv where
  options
    | .portScan => .cons "port_selection" (.str "custom") (.cons "ports" (.array [.int 80]) .nil)
    | _ => .nil
  clock _ _ _ := 0
  discovery := openProbes
  scan := openProbes
  services := silentServices
  tables := asciiTables
  web := ⟨fun _ _ => false, fun _ _ _ => .failed, fun _ => none⟩

def labEvidenceScan : ScanRow :=
  { labScan with
    selectedModules := ["host_discovery", "port_scan", "service_detect", "protocol_enum"] }

def labEvidenceDb : Db :=
  { labDb with
    scans := [labEvidenceScan]
    moduleRuns := labEvidenceScan.selectedModules.map fun name =>
      ⟨1, name, .queued, 0, false, 0, none, none, none, none⟩ }

theorem labEvidenceClaimed :
    Claimed builtinModules labEvidenceDb labEvidenceScan labScopeRow labScope where
  found := by decide +kernel
  running := rfl
  notCanceled := rfl
  scopeFound := by decide +kernel
  created := labClaimed.created
  intensity := labClaimed.intensity
  registered := by decide +kernel
  runs := by decide +kernel

/-- The one address that the scan is of. -/
def labEvidenceTarget : ValidatedTarget := ⟨"10.10.0.5", .ip, [addressLit "10.10.0.5"], none⟩

def labEvidenceEnv : OutcomeEnv where
  now _ := 1
  resolve hostname := .error ("could not resolve " ++ hostname)
  footprint _ := (1, 1)
  ends metadata prior :=
    match [BuiltinModule.hostDiscovery, .portScan, .serviceDetect, .protocolEnum].find?
      (·.name = metadata.name) with
    | some m => labEvidence.result labEvidenceTarget m prior
    | none => .error (.failure .timeout)
  meanwhile _ _ := []

theorem labEvidence_validates {target : ValidatedTarget}
    (h : labEvidenceEnv.Validates labScope labEvidenceScan target) :
    target = labEvidenceTarget := by
  have hvalid : labEvidenceEnv.Validates labScope labEvidenceScan labEvidenceTarget := by
    unfold OutcomeEnv.Validates
    decide +kernel
  exact Except.ok.inj (h.symm.trans hvalid)

theorem labEvidence_meets : labEvidence.Meets labEvidenceTarget labEvidenceEnv := by
  intro m metadata prior hname
  unfold labEvidenceEnv
  simp only [hname]
  cases m <;> rfl

/-- Streams that are all the same come to a result. -/
theorem handled_collect {φ β : Type} {run : φ → Except Exn (Option β)} {fs : List φ}
    {waveSize : ℕ} {k : List β × Bool → ModuleResult} (h : ∀ f, ∃ b, run f = .ok b) :
    Handled ((collectOutcomes (inBoundedWaves run fs waveSize)).map k) = true := by
  have honly : ∀ x, .error x ∈ fs.map run → ∃ e, x = Exn.budgetExceeded e := by
    intro x hx
    obtain ⟨f, -, hf⟩ := List.mem_map.mp hx
    obtain ⟨b, hb⟩ := h f
    cases hb.symm.trans hf
  rw [inBoundedWaves_eq, collectOutcomes_eq honly]
  rfl

theorem labEvidence_handled (module : ModuleMetadata) (prior : List Finding) :
    Handled (labEvidenceEnv.ends module prior) = true := by
  unfold labEvidenceEnv
  dsimp only
  split
  · next m _ =>
    cases m with
    | hostDiscovery =>
      change Handled (labEvidence.result labEvidenceTarget .hostDiscovery []) = true
      decide +kernel
    | portScan =>
      change Handled (labEvidence.result labEvidenceTarget .portScan []) = true
      decide +kernel
    | serviceDetect =>
      change Handled (serviceDetect silentServices labEvidenceTarget _ prior) = true
      unfold serviceDetect
      split_ifs
      · rfl
      · refine handled_collect fun f => ?_
        unfold identify
        split
        · exact ⟨_, rfl⟩
        · exact ⟨_, rfl⟩
    | protocolEnum =>
      change Handled (protocolEnum _ labEvidence.web labEvidenceTarget _ prior) = true
      unfold protocolEnum
      split_ifs
      · rfl
      · refine handled_collect fun f => ?_
        unfold enumerate
        dsimp only
        split_ifs
        · exact ⟨_, rfl⟩
        · split
          · exact ⟨_, rfl⟩
          · exact ⟨_, rfl⟩
  · rfl

theorem labEvidence_resolves : labEvidenceEnv.ResolvesBy noNames :=
  fun _ _ h => by cases h

end ScanLedger
