/-
# Expanding a target

`iter_target_addresses` of `app/modules/ports.py`: the addresses that a validated
target covers, for the modules to probe. A target without a network has the
addresses it was validated with, which the resolver gives once each; of a
network the usable hosts are enumerated, up to a limit. A network of two
addresses yields its first one only, and every other is expanded in full
(`expandsInFull_iff`).

Key definitions: `resolveHostname`, `IPNetwork.hosts`, `iterTargetAddresses`,
`ExpandsInFull`.
Key theorems: `hosts_covers`, `expandsInFull_iff`.
-/
import ScanLedger.Lib.Groups
import ScanLedger.Ports
import ScanLedger.Validation

namespace ScanLedger

open Prog

/-! ### Resolving a name -/

/-- What `getaddrinfo` may raise. -/
inductive LookupError
  | gaierror (text : String)
  | failure (f : Failure)
  deriving DecidableEq, Repr

/-- An address of an answer, which `ip_address` may not read. -/
def answeredAddress (text : String) : Except ResolveError IPAddress :=
  match ipAddress text with
  | some a => .ok a
  | none => .error (.failure (.other
      (repr text ++ " does not appear to be an IPv4 or IPv6 address")))

/-- `resolve_hostname`, over the addresses that `getaddrinfo` answers. -/
def resolveHostname (getaddrinfo : String → Except LookupError (List String))
    (hostname : String) : Except ResolveError (List IPAddress) :=
  match getaddrinfo hostname with
  | .error (.gaierror text) =>
    .error (.resolution ("could not resolve " ++ repr hostname ++ ": " ++ text))
  | .error (.failure f) => .error (.failure f)
  | .ok infos => do
    let found ← infos.mapM answeredAddress
    let addresses := found.eraseDups
    if addresses.isEmpty then .error (.resolution (repr hostname ++ " resolved to no addresses"))
    else .ok addresses

theorem nodup_of_resolveHostname {getaddrinfo : String → Except LookupError (List String)}
    {hostname : String} {addresses : List IPAddress}
    (h : resolveHostname getaddrinfo hostname = .ok addresses) : addresses.Nodup := by
  unfold resolveHostname at h
  split at h
  · cases h
  · cases h
  · next infos _ =>
    obtain ⟨found, -, h⟩ := Raising.bind_eq_ok.mp h
    dsimp only at h
    split_ifs at h
    cases h
    exact Groups.nodup_eraseDups found

/-! ### Enumerating a network -/

/-- The addresses with the numbers from `lo` up to `hi`, without `hi`. -/
def addressesFrom (v : Version) (lo hi : ℕ) : List IPAddress :=
  (List.range' lo (hi - lo)).filterMap fun i =>
    if h : i < 2 ^ v.bits then some (.ofNat v i h) else none

namespace IPNetwork

def numAddresses (n : IPNetwork) : ℕ := n.broadcastAddress.ip - n.networkAddress.ip + 1

/-- `__iter__`. -/
def members (n : IPNetwork) : List IPAddress :=
  addressesFrom n.version n.networkAddress.ip (n.broadcastAddress.ip + 1)

def hosts (n : IPNetwork) : List IPAddress :=
  if n.prefixlen = n.version.bits then [n.networkAddress]
  else if n.prefixlen = n.version.bits - 1 then n.members
  else match n.version with
    | .v4 => addressesFrom .v4 (n.networkAddress.ip + 1) n.broadcastAddress.ip
    | .v6 => addressesFrom .v6 (n.networkAddress.ip + 1) (n.broadcastAddress.ip + 1)

end IPNetwork

/-- What a generator yields, and the exception it may end in. -/
structure Generated (α : Type) where
  yielded : List α
  raised : Option Exn

/-- `list(generator)`. -/
def Generated.list {α : Type} (g : Generated α) : Except Exn (List α) :=
  match g.raised with
  | none => .ok g.yielded
  | some x => .error x

def maxExpandedAddresses : ℕ := 65536

def iterTargetAddresses (target : ValidatedTarget) : Generated IPAddress :=
  match target.network with
  | none => ⟨target.addresses, none⟩
  | some network =>
    if maxExpandedAddresses < network.numAddresses then
      ⟨[], some (moduleError (network.str ++ " contains " ++ toString network.numAddresses ++
        " addresses, more than the " ++ toString maxExpandedAddresses ++
        " this module will enumerate - narrow the target"))⟩
    else if network.numAddresses ≤ 2 then ⟨[network.networkAddress], none⟩
    else ⟨network.hosts, none⟩

/-! ### The usable hosts -/

/-- A host of the network: any address of a network of one or two, and else none
but the first and, in IPv4, the last. -/
structure Usable (n : IPNetwork) (a : IPAddress) : Prop where
  member : n.contains a = true
  notFirst : 2 < n.numAddresses → a.ip ≠ n.networkAddress.ip
  notLast : 2 < n.numAddresses → n.version = .v4 → a.ip ≠ n.broadcastAddress.ip

/-- The list has the usable hosts of the network and nothing else, each number
once. -/
structure CoversHosts (n : IPNetwork) (addresses : List IPAddress) : Prop where
  once : (addresses.map (·.ip)).Nodup
  usable : ∀ a ∈ addresses, Usable n a
  every : ∀ a, Usable n a → a.ip ∈ addresses.map (·.ip)

/-- How a target should be expanded. -/
def ExpandsInFull (t : ValidatedTarget) : Prop :=
  match t.network with
  | none => iterTargetAddresses t = ⟨t.addresses, none⟩ ∧ t.addresses.Nodup
  | some n =>
    if n.numAddresses ≤ maxExpandedAddresses then
      (iterTargetAddresses t).raised = none ∧ CoversHosts n (iterTargetAddresses t).yielded
    else (iterTargetAddresses t).yielded = [] ∧
      ∃ message, (iterTargetAddresses t).raised = some (moduleError message)

section

variable {v : Version} {lo hi : ℕ} {n : IPNetwork} {a : IPAddress}

variable (lo) in
theorem ips_addressesFrom (h : hi ≤ 2 ^ v.bits) :
    (addressesFrom v lo hi).map (·.ip) = List.range' lo (hi - lo) := by
  have hnumber : ∀ i ∈ List.range' lo (hi - lo), ((if h : i < 2 ^ v.bits then
      some (IPAddress.ofNat v i h) else none).map (·.ip)) = some i := fun i hi => by
    rw [List.mem_range'_1] at hi
    rw [dif_pos (by omega)]
    rfl
  unfold addressesFrom
  rw [List.map_filterMap, List.filterMap_congr hnumber, List.filterMap_some]

theorem version_addressesFrom (h : a ∈ addressesFrom v lo hi) :
    a.version = v ∧ a.scopeId = none := by
  obtain ⟨i, -, hi⟩ := List.mem_filterMap.mp h
  split_ifs at hi
  cases hi
  exact ⟨rfl, rfl⟩

/-- The members of a network are its addresses without a scope id. -/
theorem mem_members : a ∈ n.members ↔ n.contains a = true ∧ a.scopeId = none := by
  have hle : n.broadcastAddress.ip + 1 ≤ 2 ^ n.version.bits := n.broadcastAddress.ip_lt
  have hips := ips_addressesFrom n.networkAddress.ip hle
  constructor
  · intro ha
    obtain ⟨hv, hscope⟩ := version_addressesFrom ha
    have hip := List.mem_map_of_mem (f := (·.ip)) ha
    rw [IPNetwork.members, hips, List.mem_range'_1] at hip
    exact ⟨n.contains_iff.mpr ⟨hv, by omega, by omega⟩, hscope⟩
  · rintro ⟨hin, hscope⟩
    obtain ⟨hv, hlo, hhi⟩ := n.contains_iff.mp hin
    have hip : a.ip ∈ n.members.map (·.ip) := by
      rw [IPNetwork.members, hips, List.mem_range'_1]
      omega
    obtain ⟨b, hb, hbip⟩ := List.mem_map.mp hip
    obtain ⟨hbv, hbscope⟩ := version_addressesFrom hb
    rwa [IPAddress.ext (hv.trans hbv.symm) hbip.symm (hscope.trans hbscope.symm)]

theorem numAddresses_eq (n : IPNetwork) : n.numAddresses = 2 ^ (n.version.bits - n.prefixlen) := by
  have hpos : 0 < 2 ^ (n.version.bits - n.prefixlen) := Nat.two_pow_pos _
  unfold IPNetwork.numAddresses
  rw [n.broadcastAddress_ip]
  omega

theorem broadcast_lt (n : IPNetwork) : n.broadcastAddress.ip < 2 ^ n.version.bits :=
  n.broadcastAddress.ip_lt

/-- A network of more than two addresses has neither of the longest prefixes. -/
theorem prefixlen_of_numAddresses (h : 2 < n.numAddresses) :
    n.prefixlen ≠ n.version.bits ∧ n.prefixlen ≠ n.version.bits - 1 := by
  rw [numAddresses_eq] at h
  constructor
  · intro he
    rw [he, Nat.sub_self] at h
    omega
  · intro he
    have hbits : 0 < n.version.bits := by cases n.version <;> decide
    have hone : n.version.bits - n.prefixlen = 1 := by omega
    rw [hone] at h
    omega

theorem mem_ips {addresses : List IPAddress} (h : a ∈ addresses) :
    a.ip ∈ addresses.map (·.ip) := List.mem_map_of_mem h

/-- **Hosts.** Of a network of more than two addresses, `hosts` are the usable
ones. -/
theorem hosts_covers (h : 2 < n.numAddresses) : CoversHosts n n.hosts := by
  obtain ⟨h1, h2⟩ := prefixlen_of_numAddresses h
  have hlt := broadcast_lt n
  have hle := n.networkAddress_le_broadcastAddress
  -- the end of the range, past the last host
  obtain ⟨stop, hstop, hhosts, hlast⟩ : ∃ stop, stop ≤ n.broadcastAddress.ip + 1 ∧
      n.hosts = addressesFrom n.version (n.networkAddress.ip + 1) stop ∧
      ∀ i, i < stop ↔ i ≤ n.broadcastAddress.ip ∧
        (n.version = .v4 → i ≠ n.broadcastAddress.ip) := by
    unfold IPNetwork.hosts
    rw [if_neg h1, if_neg h2]
    cases hv : n.version with
    | v4 => exact ⟨_, Nat.le_succ _, rfl, fun i => by rw [imp_iff_right rfl]; omega⟩
    | v6 => exact ⟨_, le_rfl, rfl, fun i => ⟨fun hi => ⟨by omega, nofun⟩, fun hi => by omega⟩⟩
  have hips : n.hosts.map (·.ip) =
      List.range' (n.networkAddress.ip + 1) (stop - (n.networkAddress.ip + 1)) := by
    rw [hhosts]
    exact ips_addressesFrom _ (by omega)
  refine ⟨by rw [hips]; exact List.nodup_range', fun a ha => ?_, fun a ha => ?_⟩
  · have hip : a.ip ∈ n.hosts.map (·.ip) := mem_ips ha
    rw [hips, List.mem_range'_1] at hip
    obtain ⟨hin, hnot⟩ := (hlast a.ip).mp (by omega)
    rw [hhosts] at ha
    exact ⟨n.contains_iff.mpr ⟨(version_addressesFrom ha).1, by omega, hin⟩,
      fun _ => by omega, fun _ => hnot⟩
  · obtain ⟨hv, hlo, hhi⟩ := n.contains_iff.mp ha.member
    have hfirst := ha.notFirst h
    have hin := (hlast a.ip).mpr ⟨hhi, ha.notLast h⟩
    rw [hips, List.mem_range'_1]
    omega

theorem scopeId_of_mem_hosts (h : 2 < n.numAddresses) (ha : a ∈ n.hosts) : a.scopeId = none := by
  obtain ⟨h1, h2⟩ := prefixlen_of_numAddresses h
  unfold IPNetwork.hosts at ha
  rw [if_neg h1, if_neg h2] at ha
  split at ha
  · exact (version_addressesFrom ha).2
  · exact (version_addressesFrom ha).2

/-- A network of one address is covered by it. -/
theorem single_covers (h : n.numAddresses = 1) : CoversHosts n [n.networkAddress] := by
  refine ⟨List.nodup_singleton _, fun a ha => ?_, fun a ha => ?_⟩
  · rw [List.mem_singleton.mp ha]
    exact ⟨n.contains_networkAddress, fun h2 => by omega, fun h2 => by omega⟩
  · obtain ⟨-, hlo, hhi⟩ := n.contains_iff.mp ha.member
    have hip : a.ip = n.networkAddress.ip := by
      unfold IPNetwork.numAddresses at h
      omega
    rw [hip]
    exact mem_ips List.mem_cons_self

/-- The second address of two is left out. -/
theorem not_pair_covers (h : n.numAddresses = 2) : ¬ CoversHosts n [n.networkAddress] := by
  intro hcovers
  have husable : Usable n n.broadcastAddress :=
    ⟨n.contains_broadcastAddress, fun h2 => by omega, fun h2 => by omega⟩
  have hip : n.broadcastAddress.ip = n.networkAddress.ip :=
    List.mem_singleton.mp (hcovers.every _ husable)
  unfold IPNetwork.numAddresses at h
  omega

/-- What is expanded in full, given that the addresses are distinct. -/
theorem expandsInFull_of_nodup {t : ValidatedTarget} (h : t.network = none → t.addresses.Nodup) :
    ExpandsInFull t ↔ ∀ n, t.network = some n → n.numAddresses ≠ 2 := by
  unfold ExpandsInFull iterTargetAddresses
  cases ht : t.network with
  | none => exact iff_of_true ⟨rfl, h ht⟩ nofun
  | some n =>
    dsimp only
    have hcond : (∀ m, some n = some m → m.numAddresses ≠ 2) ↔ n.numAddresses ≠ 2 :=
      ⟨fun h => h n rfl, fun h m hm => Option.some.inj hm ▸ h⟩
    rw [hcond]
    by_cases hmax : maxExpandedAddresses < n.numAddresses
    · rw [if_neg (not_le.mpr hmax), if_pos hmax]
      have hlarge : n.numAddresses ≠ 2 := by unfold maxExpandedAddresses at hmax; omega
      exact iff_of_true ⟨rfl, _, rfl⟩ hlarge
    · rw [if_pos (not_lt.mp hmax), if_neg hmax]
      by_cases htwo : n.numAddresses ≤ 2
      · rw [if_pos htwo]
        by_cases hpair : n.numAddresses = 2
        · exact iff_of_false (fun h => not_pair_covers hpair h.2) (not_not.mpr hpair)
        · have hone : n.numAddresses = 1 := by
            have hpos : 0 < n.numAddresses := Nat.succ_pos _
            omega
          exact iff_of_true ⟨rfl, single_covers hone⟩ hpair
      · rw [if_neg htwo]
        have hmore : 2 < n.numAddresses := not_le.mp htwo
        exact iff_of_true ⟨rfl, hosts_covers hmore⟩ (by omega)

end

/-- The environment, with names looked up by `getaddrinfo`. -/
def Env.withResolver (env : Env) (getaddrinfo : String → Except LookupError (List String)) : Env :=
  { env with resolve := resolveHostname getaddrinfo }

/-- The addresses of a target without a network are distinct. -/
theorem nodup_of_valid {scope : ScopeProfile} {env : Env} {t : ValidatedTarget}
    {getaddrinfo : String → Except LookupError (List String)}
    (h : t.Valid (env.withResolver getaddrinfo).protocol scope) (hn : t.network = none) :
    t.addresses.Nodup := by
  rcases (h.found hn).resolved with ⟨a, ha⟩ | ⟨hostname, hresolve⟩
  · rw [ha]
    exact List.nodup_singleton a
  · exact nodup_of_resolveHostname hresolve

/-- **Expansion.** A validated target is expanded in full exactly if its network,
should it have one, is not of two addresses. -/
theorem expandsInFull_iff (scope : ScopeProfile) (rawTarget : String)
    (getaddrinfo : String → Except LookupError (List String)) (env : Env) (c c' : Call)
    (t : ValidatedTarget)
    (h : (validateTarget scope rawTarget).run (handle (env.withResolver getaddrinfo)) c =
      (.ok t, c')) :
    ExpandsInFull t ↔ ∀ n, t.network = some n → n.numAddresses ≠ 2 :=
  expandsInFull_of_nodup (nodup_of_valid (valid_of_run h))

/-- A name server that knows no names. -/
def noNames : String → Except LookupError (List String) := fun _ => .ok []

/-- What becomes of a target in a lab. -/
def labValidation (rawTarget : String) : Except Exn ValidatedTarget × Call :=
  (validateTarget labScope rawTarget).run (handle ((Env.calm []).withResolver noNames)) (.new false)

/-- A network of two addresses in the lab. -/
def labPair : ValidatedTarget :=
  (labValidation "10.10.0.4/31").1.toOption.get (by decide +kernel)

theorem labPair_validated :
    labValidation "10.10.0.4/31" = (.ok labPair, (labValidation "10.10.0.4/31").2) :=
  Prod.ext (Raising.eq_ok_get _) rfl

theorem expandsInFull_iff_lab :
    ExpandsInFull labPair ↔ ∀ n, labPair.network = some n → n.numAddresses ≠ 2 :=
  expandsInFull_iff labScope "10.10.0.4/31" noNames (.calm []) (.new false) _ labPair
    labPair_validated

/-- Not every validated target is. -/
theorem not_expandsInFull : ¬ ∀ (scope : ScopeProfile) (rawTarget : String)
    (getaddrinfo : String → Except LookupError (List String)) (env : Env) (c c' : Call)
    (t : ValidatedTarget),
    (validateTarget scope rawTarget).run (handle (env.withResolver getaddrinfo)) c = (.ok t, c') →
      ExpandsInFull t := by
  intro h
  have hfull := h labScope "10.10.0.4/31" noNames (.calm []) (.new false) _ labPair
    labPair_validated
  have hpair : labPair.network.map (·.numAddresses) = some 2 := by decide +kernel
  obtain ⟨n, hn, htwo⟩ := Option.map_eq_some_iff.mp hpair
  have hvalid := nodup_of_valid (valid_of_run labPair_validated)
  exact (expandsInFull_of_nodup hvalid).mp hfull n hn htwo

end ScanLedger
