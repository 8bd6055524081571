/-
# The ranges of the guard

`app/guard/ranges.py`: the ranges a scope may draw from, the destinations that
are refused whatever a scope says, and the breadth limits of a CIDR.

Key definitions: `isAlwaysDenied`, `networkAlwaysDenied`, `networkWithinAllowed`.
Key theorem: `exists_of_networkWithinAllowed`.
-/
import ScanLedger.IpAddress

namespace ScanLedger

def baseAllowedRanges : List IPNetwork :=
  [networkLit "10.0.0.0/8", networkLit "172.16.0.0/12", networkLit "192.168.0.0/16",
    networkLit "fc00::/7", networkLit "127.0.0.0/8", networkLit "::1/128"]

def cgnatRange : IPNetwork := networkLit "100.64.0.0/10"

def linkLocalRanges : List IPNetwork := [networkLit "169.254.0.0/16", networkLit "fe80::/10"]

def cloudMetadataNetworks : List IPNetwork :=
  [networkLit "169.254.169.254/32", networkLit "fd00:ec2::254/128"]

def documentationRanges : List IPNetwork :=
  [networkLit "192.0.2.0/24", networkLit "198.51.100.0/24", networkLit "203.0.113.0/24"]

def limitedBroadcast : IPAddress := addressLit "255.255.255.255"

def minIpv4PrefixLength : ℕ := 16
def minIpv6PrefixLength : ℕ := 64

def allowedRangesFor (allowCgnat allowLinkLocal : Bool) : List IPNetwork :=
  baseAllowedRanges ++ (if allowCgnat then [cgnatRange] else []) ++
    (if allowLinkLocal then linkLocalRanges else [])

/-- Why the address is denied whatever the scope, if it is. -/
def isAlwaysDenied (a : IPAddress) : Option String :=
  if cloudMetadataNetworks.any (·.contains a) then some "cloud-metadata address"
  else if a.isMulticast then some "multicast address"
  else if a = limitedBroadcast then some "broadcast address"
  else if a.isUnspecified then some "unspecified address"
  else if documentationRanges.any (·.contains a) then some "documentation/example address"
  else if a.isGlobal then some "public/globally routable address"
  else none

/-- Why the network is denied whatever the scope: overlap with a denied range
is enough. -/
def networkAlwaysDenied (n : IPNetwork) : Option String :=
  if cloudMetadataNetworks.any fun d => decide (n.version = d.version) && n.overlaps d then
    some "overlaps the cloud-metadata address"
  else if n.isMulticast then some "multicast range"
  else if n.version = .v4 ∧ n.overlaps (networkLit "255.255.255.255/32") then
    some "includes the broadcast address"
  else if n.isUnspecified then some "unspecified address range"
  else if documentationRanges.any fun d => decide (n.version = d.version) && n.overlaps d then
    some "overlaps a documentation/example range"
  else if n.isGlobal then some "public/globally routable range"
  else none

def networkWithinAllowed (n : IPNetwork) (allowed : List IPNetwork) : Bool :=
  allowed.any fun candidate =>
    decide (n.version = candidate.version) && n.subnetOf candidate

/-- Why the network is broader than the limits allow. -/
def checkPrefixBreadth (n : IPNetwork) : Option String :=
  if n.version = .v4 ∧ n.prefixlen < minIpv4PrefixLength then
    some ("/" ++ toString n.prefixlen ++ " is broader than the MVP limit of /" ++
      toString minIpv4PrefixLength ++ " for IPv4")
  else if n.version = .v6 ∧ n.prefixlen < minIpv6PrefixLength then
    some ("/" ++ toString n.prefixlen ++ " is broader than the MVP limit of /" ++
      toString minIpv6PrefixLength ++ " for IPv6")
  else none

/-- What no address may be, whatever the scope. -/
structure NotDenied (a : IPAddress) : Prop where
  notMetadata : ∀ n ∈ cloudMetadataNetworks, n.contains a = false
  notMulticast : a.isMulticast = false
  notBroadcast : a ≠ limitedBroadcast
  notUnspecified : a.isUnspecified = false
  notDocumentation : ∀ n ∈ documentationRanges, n.contains a = false
  notGlobal : a.isGlobal = false

theorem notDenied_of_isAlwaysDenied {a : IPAddress} (h : isAlwaysDenied a = none) :
    NotDenied a := by
  unfold isAlwaysDenied at h
  split_ifs at h with h1 h2 h3 h4 h5 h6
  exact ⟨by simpa using h1, by simpa using h2, h3, by simpa using h4, by simpa using h5,
    by simpa using h6⟩

/-- The members of a network within the allowed ranges are in one of them. -/
theorem exists_of_networkWithinAllowed {n : IPNetwork} {allowed : List IPNetwork} {a : IPAddress}
    (h : networkWithinAllowed n allowed = true) (ha : n.contains a = true) :
    ∃ m ∈ allowed, m.contains a = true := by
  obtain ⟨m, hm, hs⟩ := List.any_eq_true.mp h
  obtain ⟨hv, hsub⟩ := Bool.and_eq_true_iff.mp hs
  exact ⟨m, hm, IPNetwork.contains_of_subnetOf (of_decide_eq_true hv) hsub ha⟩

/-- CGNAT and link-local addresses are in range only by opt-in. -/
theorem mem_allowedRangesFor {cgnat linkLocal : Bool} {n : IPNetwork}
    (h : n ∈ allowedRangesFor cgnat linkLocal) : n ∈ baseAllowedRanges ∨
      (cgnat = true ∧ n = cgnatRange) ∨ (linkLocal = true ∧ n ∈ linkLocalRanges) := by
  unfold allowedRangesFor at h
  rw [List.mem_append, List.mem_append] at h
  rcases h with (h | h) | h
  · exact Or.inl h
  · split_ifs at h with hc
    · exact Or.inr (Or.inl ⟨hc, List.mem_singleton.mp h⟩)
    · cases h
  · split_ifs at h with hl
    · exact Or.inr (Or.inr ⟨hl, h⟩)
    · cases h

end ScanLedger
