/-
# Networks and their addresses

The guard judges a CIDR target by its network and a probe by its address. The
tests for addresses and those for networks are two lists, and where a test for
networks looks at both ends only, the lists part: 0.0.0.0/16 is private by its
ends, and 0.0.0.0 in it is unspecified; so are the networks around an exception
of the private ranges, and those of mapped IPv4 addresses. Apart from these a
network that touches a denied address is refused whole (`touchRefused_iff`).
Within an allowed range the lists agree (`isAlwaysDenied_of_allowed`).

A network is within the allowed ranges if one of them contains it, which
enumerating its addresses says too, unless several narrower ranges make it up
(`enumerates_iff`).

Key definitions: `NetworkNotDenied`, `TouchRefused`, `PrivateThroughout`, `Enumerates`,
`madeUp`, `Pieced`.
Key theorems: `touchRefused_iff`, `isAlwaysDenied_of_allowed`, `enumerates_iff`.
-/
import ScanLedger.Ranges

namespace ScanLedger

open IPNetwork

/-! ### The two tests -/

def broadcastNetwork : IPNetwork := networkLit "255.255.255.255/32"

/-- What no network may be, whatever the scope. -/
structure NetworkNotDenied (n : IPNetwork) : Prop where
  notMetadata : ∀ d ∈ cloudMetadataNetworks, n.overlaps d = false
  notMulticast : n.isMulticast = false
  notBroadcast : n.overlaps broadcastNetwork = false
  notUnspecified : n.isUnspecified = false
  notDocumentation : ∀ d ∈ documentationRanges, n.overlaps d = false
  notGlobal : n.isGlobal = false

section

variable {n m p : IPNetwork} {a b : IPAddress}

/-- Networks that overlap are of one version. -/
theorem version_of_overlaps (h : n.overlaps m = true) : n.version = m.version := by
  obtain ⟨a, hn, hm⟩ := overlaps_iff.mp h
  exact version_of_contains hn hm

theorem any_overlaps_eq_false {ds : List IPNetwork} :
    ¬ (ds.any fun d => decide (n.version = d.version) && n.overlaps d) = true ↔
      ∀ d ∈ ds, n.overlaps d = false := by
  rw [Bool.not_eq_true, List.any_eq_false]
  refine forall₂_congr fun d _ => ?_
  rw [Bool.not_eq_true, Bool.and_eq_false_iff]
  refine ⟨fun h => ?_, Or.inr⟩
  by_contra hne
  have hoverlaps : n.overlaps d = true := by simpa using hne
  rcases h with h | h
  · exact of_decide_eq_false h (version_of_overlaps hoverlaps)
  · exact hne h

theorem networkAlwaysDenied_eq_none : networkAlwaysDenied n = none ↔ NetworkNotDenied n := by
  have hbroadcast : ¬ (n.version = .v4 ∧ n.overlaps broadcastNetwork = true) ↔
      n.overlaps broadcastNetwork = false := by
    rw [not_and, Bool.not_eq_true]
    refine ⟨fun h => ?_, fun h _ => h⟩
    by_contra hne
    have hoverlaps : n.overlaps broadcastNetwork = true := by simpa using hne
    have hv : broadcastNetwork.version = .v4 := by decide +kernel
    exact hne (h ((version_of_overlaps hoverlaps).trans hv))
  unfold networkAlwaysDenied
  constructor
  · intro h
    split_ifs at h with h1 h2 h3 h4 h5 h6
    exact ⟨any_overlaps_eq_false.mp h1, by simpa using h2, hbroadcast.mp h3, by simpa using h4,
      any_overlaps_eq_false.mp h5, by simpa using h6⟩
  · rintro ⟨h1, h2, h3, h4, h5, h6⟩
    have h3 : ¬ (n.version = .v4 ∧ n.overlaps (networkLit "255.255.255.255/32") = true) :=
      hbroadcast.mpr h3
    rw [if_neg (any_overlaps_eq_false.mpr h1), h2, if_neg Bool.false_ne_true, if_neg h3, h4,
      if_neg Bool.false_ne_true, if_neg (any_overlaps_eq_false.mpr h5), h6,
      if_neg Bool.false_ne_true]

theorem isAlwaysDenied_eq_none : isAlwaysDenied a = none ↔ NotDenied a := by
  refine ⟨notDenied_of_isAlwaysDenied, fun ⟨h1, h2, h3, h4, h5, h6⟩ => ?_⟩
  have hnone : ∀ {ds : List IPNetwork}, (∀ d ∈ ds, d.contains a = false) →
      ¬ (ds.any (·.contains a)) = true := fun h => by
    rw [Bool.not_eq_true, List.any_eq_false]
    exact fun d hd => by rw [h d hd]; exact Bool.false_ne_true
  unfold isAlwaysDenied
  rw [if_neg (hnone h1), h2, if_neg Bool.false_ne_true, if_neg h3, h4, if_neg Bool.false_ne_true,
    if_neg (hnone h5), h6, if_neg Bool.false_ne_true]

/-! ### Touching a denied address -/

/-- If the network touches a denied address, it is refused. -/
def TouchRefused (n : IPNetwork) : Prop :=
  ∀ a, n.contains a = true → isAlwaysDenied a ≠ none → networkAlwaysDenied n ≠ none

/-- What a network's ends do not tell of it: that it is not unspecified in part,
that no exception of the private ranges is inside, and that the IPv4 addresses
mapped in it are private. -/
structure PrivateThroughout (n : IPNetwork) : Prop where
  unspecified : n.networkAddress.isUnspecified = true → n.isUnspecified = true
  exceptions : ∀ m ∈ privateNetworksExceptions n.version, n.overlaps m = false
  mapped : ∀ a, n.contains a = true → ∀ b, a.ipv4Mapped = some b → b.isPrivate = true

theorem inPrivateNetworks_iff : a.inPrivateNetworks = true ↔
    (∃ p ∈ privateNetworks a.version, p.contains a = true) ∧
      ∀ m ∈ privateNetworksExceptions a.version, m.contains a = false := by
  unfold IPAddress.inPrivateNetworks
  simp only [Bool.and_eq_true, List.any_eq_true, List.all_eq_true, Bool.not_eq_true']

theorem isPrivate_iff : n.isPrivate = true ↔
    (∃ p ∈ privateNetworks n.version, p.contains n.networkAddress = true ∧
      p.contains n.broadcastAddress = true) ∧
      ∀ m ∈ privateNetworksExceptions n.version, m.contains n.networkAddress = false ∧
        m.contains n.broadcastAddress = false := by
  unfold IPNetwork.isPrivate
  simp only [Bool.and_eq_true, List.any_eq_true, List.all_eq_true, Bool.not_eq_true']

/-- The mapped address of an IPv4 address is none. -/
theorem ipv4Mapped_of_v4 (h : a.version = .v4) : a.ipv4Mapped = none := by
  unfold IPAddress.ipv4Mapped
  rw [if_neg fun hv => by rw [h] at hv; cases hv.1]

theorem ipv4Mapped_version (h : a.ipv4Mapped = some b) : a.version = .v6 ∧ b.version = .v4 := by
  unfold IPAddress.ipv4Mapped at h
  split_ifs at h with hv
  cases h
  exact ⟨hv.1, rfl⟩

theorem isPrivate_of_mapped (h : a.ipv4Mapped = some b) : a.isPrivate = b.isPrivate := by
  rw [IPAddress.isPrivate, IPAddress.isPrivate, h, ipv4Mapped_of_v4 (ipv4Mapped_version h).2]

/-- An address that is global is not private, nor in the shared range. -/
theorem isGlobal_iff : a.isGlobal = true ↔
    (a.version = .v4 → publicNetwork.contains a = false) ∧ a.isPrivate = false := by
  unfold IPAddress.isGlobal
  cases hv : a.version <;> simp

theorem networkIsGlobal_iff : n.isGlobal = true ↔
    (n.version = .v4 → ¬ (publicNetwork.contains n.networkAddress = true ∧
      publicNetwork.contains n.broadcastAddress = true)) ∧ n.isPrivate = false := by
  unfold IPNetwork.isGlobal
  cases hv : n.version <;> cases publicNetwork.contains n.networkAddress <;> simp

theorem multicast_of_contains (hbreadth : checkPrefixBreadth n = none)
    (ha : n.contains a = true) (h : a.isMulticast = true) : n.isMulticast = true := by
  have hlen : ∀ v, (multicastNetwork v).prefixlen ≤ 8 := fun v => by
    cases v <;> decide +kernel
  have hv : a.version = n.version := (n.contains_iff.mp ha).1
  have hn : 16 ≤ n.prefixlen := by
    unfold checkPrefixBreadth minIpv4PrefixLength minIpv6PrefixLength at hbreadth
    split_ifs at hbreadth with h4 h6
    cases hversion : n.version with
    | v4 => exact not_lt.mp fun hlt => h4 ⟨hversion, hlt⟩
    | v6 => exact le_trans (by norm_num) (not_lt.mp fun hlt => h6 ⟨hversion, hlt⟩)
  have hle : (multicastNetwork n.version).prefixlen ≤ n.prefixlen :=
    (hlen n.version).trans (le_trans (by norm_num) hn)
  unfold IPAddress.isMulticast at h
  rw [hv] at h
  unfold IPNetwork.isMulticast IPAddress.isMulticast
  rw [Bool.and_eq_true]
  exact ⟨contains_of_prefixlen_le hle ha h n.contains_networkAddress,
    contains_of_prefixlen_le hle ha h n.contains_broadcastAddress⟩

/-- Not being global, a network is in the shared range or private. -/
theorem NetworkNotDenied.ends (h : NetworkNotDenied n) :
    (n.version = .v4 ∧ publicNetwork.contains n.networkAddress = true ∧
      publicNetwork.contains n.broadcastAddress = true) ∨ n.isPrivate = true := by
  by_contra hneither
  have hglobal := networkIsGlobal_iff.mpr
    ⟨fun h4 hpublic => hneither (Or.inl ⟨h4, hpublic⟩), by simpa using (not_or.mp hneither).2⟩
  rw [h.notGlobal] at hglobal
  cases hglobal

theorem NetworkNotDenied.address_notUnspecified (h : NetworkNotDenied n)
    (hthrough : n.isPrivate = true → PrivateThroughout n) (ha : n.contains a = true) :
    a.isUnspecified = false := by
  obtain ⟨-, hlo, -⟩ := n.contains_iff.mp ha
  by_contra hne
  have hun : a.isUnspecified = true := by simpa using hne
  have hzero : a.ip = 0 := of_decide_eq_true hun
  have hfirst : n.networkAddress.ip = 0 := by omega
  rcases h.ends with ⟨-, hpublic, -⟩ | hprivate
  · have hpos : 0 < publicNetwork.networkAddress.ip := by decide +kernel
    have hle := (publicNetwork.contains_iff.mp hpublic).2.1
    omega
  · have hun := (hthrough hprivate).unspecified (decide_eq_true hfirst)
    rw [h.notUnspecified] at hun
    cases hun

theorem NetworkNotDenied.address_notGlobal (h : NetworkNotDenied n)
    (hthrough : n.isPrivate = true → PrivateThroughout n) (ha : n.contains a = true) :
    a.isGlobal = false := by
  have hv : a.version = n.version := (n.contains_iff.mp ha).1
  by_contra hne
  obtain ⟨hpublic, hnot⟩ := isGlobal_iff.mp (by simpa using hne)
  rcases h.ends with ⟨h4, hfirst, hlast⟩ | hprivate
  · rw [contains_of_ends hfirst hlast ha] at hpublic
    cases hpublic (hv.trans h4)
  · obtain ⟨⟨p, hp, hfirst, hlast⟩, -⟩ := isPrivate_iff.mp hprivate
    have hthrough := hthrough hprivate
    have hin : a.inPrivateNetworks = true := inPrivateNetworks_iff.mpr
      ⟨⟨p, hv ▸ hp, contains_of_ends hfirst hlast ha⟩,
        fun m hm => contains_of_not_overlaps (hthrough.exceptions m (hv ▸ hm)) ha⟩
    cases hmapped : a.ipv4Mapped with
    | some b =>
      rw [isPrivate_of_mapped hmapped, hthrough.mapped a ha b hmapped] at hnot
      cases hnot
    | none =>
      rw [IPAddress.isPrivate, hmapped, hin] at hnot
      cases hnot

/-- **A network that is private throughout** speaks for its addresses. -/
theorem notDenied_of_networkNotDenied (hbreadth : checkPrefixBreadth n = none)
    (h : NetworkNotDenied n) (hthrough : n.isPrivate = true → PrivateThroughout n)
    (ha : n.contains a = true) : NotDenied a where
  notMetadata d hd := contains_of_not_overlaps (h.notMetadata d hd) ha
  notMulticast := by
    by_contra hne
    have hmulticast := multicast_of_contains hbreadth ha (by simpa using hne)
    rw [h.notMulticast] at hmulticast
    cases hmulticast
  notBroadcast := by
    rintro rfl
    have hin := contains_of_not_overlaps h.notBroadcast ha
    have hmember : broadcastNetwork.contains limitedBroadcast = true := by decide +kernel
    rw [hmember] at hin
    cases hin
  notUnspecified := h.address_notUnspecified hthrough ha
  notDocumentation d hd := contains_of_not_overlaps (h.notDocumentation d hd) ha
  notGlobal := h.address_notGlobal hthrough ha

/-- The ranges that a denied address is in, whatever else it is. -/
def deniedNetworks : List IPNetwork :=
  multicastNetwork .v4 :: multicastNetwork .v6 :: broadcastNetwork ::
    (cloudMetadataNetworks ++ documentationRanges)

/-- No denied range touches the network. -/
def IPNetwork.apart (p : IPNetwork) : Bool := deniedNetworks.all fun d => !p.overlaps d

theorem overlaps_of_apart (hp : p.apart = true)
    (hsub : ∀ a, n.contains a = true → p.contains a = true) {d : IPNetwork}
    (hd : d ∈ deniedNetworks) : n.overlaps d = false := by
  by_contra hne
  obtain ⟨a, ha, hda⟩ := overlaps_iff.mp (by simpa using hne)
  have hnot : p.overlaps d = false := by simpa using List.all_eq_true.mp hp d hd
  rw [overlaps_iff.mpr ⟨a, hsub a ha, hda⟩] at hnot
  cases hnot

theorem multicastNetwork_mem (v : Version) : multicastNetwork v ∈ deniedNetworks := by
  cases v
  · exact List.mem_cons_self
  · exact List.mem_cons_of_mem _ List.mem_cons_self

/-- A network that is private by its ends, in a range apart from the denied
ones, is not refused. -/
theorem networkNotDenied_of_private (hp : p.apart = true)
    (hfirst : p.contains n.networkAddress = true) (hlast : p.contains n.broadcastAddress = true)
    (hprivate : n.isPrivate = true) (hun : n.isUnspecified = false) : NetworkNotDenied n := by
  have hapart : ∀ d ∈ deniedNetworks, n.overlaps d = false := fun d hd =>
    overlaps_of_apart hp (fun a => contains_of_ends hfirst hlast) hd
  have hmem : ∀ d ∈ cloudMetadataNetworks ++ documentationRanges, n.overlaps d = false :=
    fun d hd => hapart d
      (List.mem_cons_of_mem _ (List.mem_cons_of_mem _ (List.mem_cons_of_mem _ hd)))
  refine ⟨fun d hd => hmem d (List.mem_append_left _ hd), ?_, ?_, hun,
    fun d hd => hmem d (List.mem_append_right _ hd), ?_⟩
  · by_contra hne
    have hmulticast : n.isMulticast = true := by simpa using hne
    have hin := (Bool.and_eq_true_iff.mp hmulticast).1
    have hoverlaps := overlaps_iff.mpr ⟨_, n.contains_networkAddress, hin⟩
    rw [hapart _ (multicastNetwork_mem _)] at hoverlaps
    cases hoverlaps
  · exact hapart _ (List.mem_cons_of_mem _ (List.mem_cons_of_mem _ List.mem_cons_self))
  · by_contra hne
    have hnot := (networkIsGlobal_iff.mp (by simpa using hne)).2
    rw [hprivate] at hnot
    cases hnot

/-- The private range that starts at zero and is more than zero. -/
theorem apart_of_zero : ∀ v, ∀ p ∈ privateNetworks v, p.networkAddress.ip = 0 →
    p.apart = true ∨ p.broadcastAddress.ip = 0 := fun v => by
  cases v <;> decide +kernel

/-- The private ranges with an exception inside. -/
theorem apart_of_exception : ∀ v, ∀ p ∈ privateNetworks v, ∀ m ∈ privateNetworksExceptions v,
    p.overlaps m = true → p.apart = true ∧ p.networkAddress.ip ≠ 0 := fun v => by
  cases v <;> decide +kernel

def mappedNetwork : IPNetwork := networkLit "::ffff:0:0/96"

/-- The private range of the mapped addresses. -/
theorem apart_of_mapped : ∀ p ∈ privateNetworks .v6, p.overlaps mappedNetwork = true →
    p.apart = true ∧ p.networkAddress.ip ≠ 0 := by
  decide +kernel

/-- Exceptions are neither shared nor mapped. -/
theorem exception_apart : ∀ v, ∀ m ∈ privateNetworksExceptions v,
    m.overlaps publicNetwork = false ∧ m.overlaps mappedNetwork = false := fun v => by
  cases v <;> decide +kernel

theorem contains_of_mapped (h : a.ipv4Mapped = some b) : mappedNetwork.contains a = true := by
  have hlo : mappedNetwork.networkAddress.ip = 0xFFFF * 2 ^ 32 := by decide +kernel
  have hhi : mappedNetwork.broadcastAddress.ip = 0xFFFF * 2 ^ 32 + (2 ^ 32 - 1) := by
    decide +kernel
  have hversion : mappedNetwork.version = .v6 := by decide +kernel
  unfold IPAddress.ipv4Mapped at h
  split_ifs at h with hv
  have hdiv := hv.2
  rw [Nat.shiftRight_eq_div_pow] at hdiv
  refine mappedNetwork.contains_iff.mpr ⟨hv.1.trans hversion.symm, ?_, ?_⟩ <;> omega

/-- A network in a private range with a denied address in it, and no denied range
near, is not refused. -/
theorem TouchRefused.notDenied (h : TouchRefused n) (hp : p.apart = true)
    (hfirst : p.contains n.networkAddress = true) (hlast : p.contains n.broadcastAddress = true)
    (hprivate : n.isPrivate = true) (hun : n.isUnspecified = false) (ha : n.contains a = true) :
    NotDenied a := by
  by_contra hdenied
  refine h a ha (fun hnone => hdenied (isAlwaysDenied_eq_none.mp hnone)) ?_
  exact networkAlwaysDenied_eq_none.mpr
    (networkNotDenied_of_private hp hfirst hlast hprivate hun)

theorem isUnspecified_eq_false (hn : n.networkAddress.ip ≠ 0) : n.isUnspecified = false := by
  rw [IPNetwork.isUnspecified, IPAddress.isUnspecified, decide_eq_false hn, Bool.false_and]

/-- An exception of the private ranges is global. -/
theorem isGlobal_of_exception (hm : m ∈ privateNetworksExceptions a.version)
    (ha : m.contains a = true) : a.isGlobal = true := by
  obtain ⟨hpublic, hmapped⟩ := exception_apart a.version m hm
  have hnone : a.ipv4Mapped = none := by
    cases hb : a.ipv4Mapped with
    | none => rfl
    | some b =>
      have hno := contains_of_not_overlaps hmapped ha
      rw [contains_of_mapped hb] at hno
      cases hno
  have hnotPublic := contains_of_not_overlaps hpublic ha
  refine isGlobal_iff.mpr ⟨fun _ => ?_, ?_⟩
  · simp [hnotPublic]
  · rw [IPAddress.isPrivate, hnone]
    by_contra hne
    have hin := (inPrivateNetworks_iff.mp (by simpa using hne)).2 m hm
    rw [ha] at hin
    cases hin

theorem TouchRefused.privateThroughout (h : TouchRefused n) (hprivate : n.isPrivate = true) :
    PrivateThroughout n := by
  obtain ⟨⟨p, hp, hfirst, hlast⟩, -⟩ := isPrivate_iff.mp hprivate
  have hle := (p.contains_iff.mp hfirst).2.1
  refine ⟨fun hzero => ?_, fun m hm => ?_, fun a ha b hb => ?_⟩
  · by_contra hne
    have hun : n.isUnspecified = false := by simpa using hne
    have hip : n.networkAddress.ip = 0 := of_decide_eq_true hzero
    rcases apart_of_zero n.version p hp (by omega) with hapart | hlastZero
    · have hnot := (h.notDenied hapart hfirst hlast hprivate hun n.contains_networkAddress)
      rw [hnot.notUnspecified] at hzero
      cases hzero
    · have hend := (p.contains_iff.mp hlast).2.2
      have hbroadcast : n.broadcastAddress.ip = 0 := by omega
      rw [IPNetwork.isUnspecified, hzero, IPAddress.isUnspecified, hbroadcast] at hun
      cases hun
  · by_contra hne
    obtain ⟨a, ha, hma⟩ := overlaps_iff.mp (by simpa using hne)
    have hv : a.version = n.version := (n.contains_iff.mp ha).1
    have hoverlaps := overlaps_iff.mpr ⟨a, contains_of_ends hfirst hlast ha, hma⟩
    obtain ⟨hapart, hpos⟩ := apart_of_exception n.version p hp m hm hoverlaps
    have hun := isUnspecified_eq_false (n := n) (by omega)
    have hnot := h.notDenied hapart hfirst hlast hprivate hun ha
    have hglobal : a.isGlobal = true := isGlobal_of_exception (hv ▸ hm) hma
    rw [hnot.notGlobal] at hglobal
    cases hglobal
  · by_contra hne
    have hv6 := (ipv4Mapped_version hb).1
    have hv : a.version = n.version := (n.contains_iff.mp ha).1
    have hoverlaps := overlaps_iff.mpr ⟨a, contains_of_ends hfirst hlast ha, contains_of_mapped hb⟩
    rw [← hv, hv6] at hp
    obtain ⟨hapart, hpos⟩ := apart_of_mapped p hp hoverlaps
    have hun := isUnspecified_eq_false (n := n) (by omega)
    have hnot := h.notDenied hapart hfirst hlast hprivate hun ha
    have hnotPrivate : a.isPrivate = false := by
      rw [isPrivate_of_mapped hb]
      simpa using hne
    have hglobal : a.isGlobal = true := isGlobal_iff.mpr
      ⟨fun h4 => absurd (h4.symm.trans hv6) (by decide), hnotPrivate⟩
    rw [hnot.notGlobal] at hglobal
    cases hglobal

end

/-- **Touching a denied address.** A network within the breadth limits is refused
if it touches a denied address, if and only if it is private throughout or not
private by its ends. -/
theorem touchRefused_iff (n : IPNetwork) (h : checkPrefixBreadth n = none) :
    TouchRefused n ↔ (n.isPrivate = true → PrivateThroughout n) := by
  refine ⟨fun ht => ht.privateThroughout, fun hthrough a ha hdenied hnone => hdenied ?_⟩
  exact isAlwaysDenied_eq_none.mpr
    (notDenied_of_networkNotDenied h (networkAlwaysDenied_eq_none.mp hnone) hthrough ha)

/-- The link-local range holds the metadata address, and is no private range's
part. -/
theorem touchRefused_iff_linkLocal :
    let n := networkLit "169.254.0.0/16"
    TouchRefused n ↔ (n.isPrivate = true → PrivateThroughout n) :=
  touchRefused_iff (networkLit "169.254.0.0/16") (by decide +kernel)

/-- 0.0.0.0/16 is not refused, and 0.0.0.0 is unspecified. -/
theorem not_touchRefused : ¬ ∀ n, checkPrefixBreadth n = none → TouchRefused n := by
  intro h
  have hrefused := h (networkLit "0.0.0.0/16") (by decide +kernel) (addressLit "0.0.0.0")
    (by decide +kernel) (by decide +kernel)
  exact hrefused (by decide +kernel)

/-! ### Allowed addresses -/

/-- What a range must be for its addresses not to be denied: private or shared,
and apart from every other range that is not. -/
def IPNetwork.admissible (m : IPNetwork) : Bool :=
  (multicastNetwork m.version :: broadcastNetwork :: mappedNetwork ::
    (documentationRanges ++ privateNetworksExceptions m.version)).all (fun d => !m.overlaps d) &&
    decide (0 < m.networkAddress.ip) &&
    (publicNetwork :: privateNetworks m.version).any fun p =>
      p.contains m.networkAddress && p.contains m.broadcastAddress

theorem admissible_of_allowed : ∀ m ∈ allowedRangesFor true true, m.admissible = true := by
  decide +kernel

section

variable {m : IPNetwork} {a : IPAddress}

/-- An address of an admissible range is denied as a metadata address only. -/
theorem notDenied_of_admissible (hm : m.admissible = true) (ha : m.contains a = true)
    (hmetadata : ∀ d ∈ cloudMetadataNetworks, d.contains a = false) : NotDenied a := by
  obtain ⟨⟨hapart, hpos⟩, hprivate⟩ := by
    simpa only [IPNetwork.admissible, Bool.and_eq_true] using hm
  have hv : a.version = m.version := (m.contains_iff.mp ha).1
  have hnone : ∀ d ∈ multicastNetwork m.version :: broadcastNetwork :: mappedNetwork ::
      (documentationRanges ++ privateNetworksExceptions m.version), d.contains a = false := by
    intro d hd
    exact contains_of_not_overlaps (by simpa using List.all_eq_true.mp hapart d hd) ha
  simp only [List.forall_mem_cons, List.forall_mem_append] at hnone
  obtain ⟨hmulticast, hbroadcast, hmapped, hdocumentation, hexceptions⟩ := hnone
  have hunmapped : a.ipv4Mapped = none := by
    cases hb : a.ipv4Mapped with
    | none => rfl
    | some b =>
      rw [contains_of_mapped hb] at hmapped
      cases hmapped
  refine ⟨hmetadata, ?_, ?_, ?_, hdocumentation, ?_⟩
  · rw [IPAddress.isMulticast, hv]
    exact hmulticast
  · rintro rfl
    have hmember : broadcastNetwork.contains limitedBroadcast = true := by decide +kernel
    rw [hmember] at hbroadcast
    cases hbroadcast
  · have hle := (m.contains_iff.mp ha).2.1
    have hnet : 0 < m.networkAddress.ip := of_decide_eq_true hpos
    exact decide_eq_false (by omega)
  · obtain ⟨p, hp, hends⟩ := List.any_eq_true.mp hprivate
    obtain ⟨hfirst, hlast⟩ := Bool.and_eq_true_iff.mp hends
    have hin : p.contains a = true := contains_of_ends hfirst hlast ha
    by_contra hne
    obtain ⟨hpublic, hnot⟩ := isGlobal_iff.mp (by simpa using hne)
    rcases List.mem_cons.mp hp with rfl | hp
    · have hfour : publicNetwork.version = .v4 := by decide +kernel
      rw [hpublic ((publicNetwork.contains_iff.mp hin).1.trans hfour)] at hin
      cases hin
    · rw [IPAddress.isPrivate, hunmapped, inPrivateNetworks_iff.mpr
        ⟨⟨p, hv ▸ hp, hin⟩, fun d hd => hexceptions d (hv ▸ hd)⟩] at hnot
      cases hnot

/-- **Allowed addresses** are not denied, the metadata addresses apart. -/
theorem isAlwaysDenied_of_allowed (hm : m ∈ allowedRangesFor true true)
    (ha : m.contains a = true) (hmetadata : ∀ d ∈ cloudMetadataNetworks, d.contains a = false) :
    isAlwaysDenied a = none :=
  isAlwaysDenied_eq_none.mpr (notDenied_of_admissible (admissible_of_allowed m hm) ha hmetadata)

end

/-! ### Enumerating the addresses -/

/-- `network_within_allowed` says of the network what enumerating its addresses
would. -/
def Enumerates (n : IPNetwork) (allowed : List IPNetwork) : Prop :=
  networkWithinAllowed n allowed = true ↔
    ∀ a, n.contains a = true → ∃ m ∈ allowed, m.contains a = true

/-- One of the networks has all of the `2 ^ k` IPv4 addresses from `first` on. -/
def heldByOne (allowed : List IPNetwork) (k first : ℕ) : Bool :=
  allowed.any fun m => decide (m.version = .v4) && (decide (m.networkAddress.ip ≤ first) &&
    decide (first + 2 ^ k ≤ m.broadcastAddress.ip + 1))

/-- One of the networks has all of the addresses, or one has all of a half, a
quarter and so on, for every part. -/
def madeUp (allowed : List IPNetwork) : ℕ → ℕ → Bool
  | 0, first => heldByOne allowed 0 first
  | k + 1, first => heldByOne allowed (k + 1) first ||
      (madeUp allowed k first && madeUp allowed k (first + 2 ^ k))

/-- Narrower ranges make up the network: its first address is in narrower ones
only, and each part of it is in one, when it is halved often enough. -/
def Pieced (n : IPNetwork) (allowed : List IPNetwork) : Prop :=
  (∀ m ∈ allowed, m.contains n.networkAddress = true → n.prefixlen < m.prefixlen) ∧
    madeUp allowed (n.version.bits - n.prefixlen) n.networkAddress.ip = true

theorem IPAddress.eq_of_v4 {a b : IPAddress} (ha : a.version = .v4) (hb : b.version = .v4)
    (hip : a.ip = b.ip) : a = b :=
  IPAddress.ext (ha.trans hb.symm) hip ((a.v4_scopeId ha).trans (b.v4_scopeId hb).symm)

section

variable {n m : IPNetwork} {allowed : List IPNetwork}

/-- A network within another is no wider. -/
theorem prefixlen_le_of_subnetOf (hv : n.version = m.version) (h : n.subnetOf m = true) :
    m.prefixlen ≤ n.prefixlen := by
  obtain ⟨hlo, hhi⟩ := Bool.and_eq_true_iff.mp h
  have hlo := ip_le_of_le hlo
  have hhi := ip_le_of_ge hhi
  rw [n.broadcastAddress_ip, m.broadcastAddress_ip, hv] at hhi
  by_contra hlt
  -- the narrower block has less than the wider one's numbers
  have hm : m.prefixlen ≤ m.version.bits := m.prefixlen_le
  have hpow : 2 ^ (m.version.bits - m.prefixlen) < 2 ^ (m.version.bits - n.prefixlen) :=
    Nat.pow_lt_pow_right (by norm_num) (by omega)
  have hpos : 0 < 2 ^ (m.version.bits - m.prefixlen) := Nat.two_pow_pos _
  omega

theorem subnetOf_of_contains (hn : n.version = .v4) (hlen : m.prefixlen ≤ n.prefixlen)
    (h : m.contains n.networkAddress = true) : n.subnetOf m = true := by
  have hlast := contains_of_prefixlen_le hlen n.contains_networkAddress h
    n.contains_broadcastAddress
  obtain ⟨hv, hlo, -⟩ := m.contains_iff.mp h
  obtain ⟨-, -, hhi⟩ := m.contains_iff.mp hlast
  unfold IPNetwork.subnetOf
  rw [Bool.and_eq_true]
  constructor
  · unfold IPAddress.le
    rw [Bool.or_eq_true, decide_eq_true_eq, decide_eq_true_eq]
    rcases hlo.lt_or_eq with hlt | heq
    · exact Or.inl hlt
    · exact Or.inr (IPAddress.eq_of_v4 (hv.symm.trans hn) hn heq)
  · simpa [IPAddress.ge] using hhi

/-- An IPv4 network is within the ranges if one as wide has its first address. -/
theorem networkWithinAllowed_iff (hn : n.version = .v4) : networkWithinAllowed n allowed = true ↔
    ∃ m ∈ allowed, m.contains n.networkAddress = true ∧ m.prefixlen ≤ n.prefixlen := by
  unfold networkWithinAllowed
  simp only [List.any_eq_true, Bool.and_eq_true, decide_eq_true_eq]
  refine exists_congr fun m => and_congr_right fun _ => ⟨fun ⟨hv, hsub⟩ => ?_, fun ⟨h, hlen⟩ => ?_⟩
  · exact ⟨contains_of_subnetOf hv hsub n.contains_networkAddress,
      prefixlen_le_of_subnetOf hv hsub⟩
  · exact ⟨version_of_contains n.contains_networkAddress h, subnetOf_of_contains hn hlen h⟩

theorem heldByOne_iff {k first : ℕ} : heldByOne allowed k first = true ↔ ∃ m ∈ allowed,
    m.version = .v4 ∧ m.networkAddress.ip ≤ first ∧ first + 2 ^ k ≤ m.broadcastAddress.ip + 1 := by
  simp only [heldByOne, List.any_eq_true, Bool.and_eq_true, decide_eq_true_eq]

variable (allowed) in
/-- The addresses are made up exactly if each of them is in one of the networks. -/
theorem madeUp_iff : ∀ k first : ℕ, madeUp allowed k first = true ↔
    ∀ i, first ≤ i → i < first + 2 ^ k → ∃ m ∈ allowed,
      m.version = .v4 ∧ m.networkAddress.ip ≤ i ∧ i ≤ m.broadcastAddress.ip
  | 0, first => by
    rw [madeUp, heldByOne_iff]
    constructor
    · rintro ⟨m, hm, hv, hlo, hhi⟩ i h1 h2
      exact ⟨m, hm, hv, by omega, by omega⟩
    · intro h
      obtain ⟨m, hm, hv, hlo, hhi⟩ := h first le_rfl (by omega)
      exact ⟨m, hm, hv, hlo, by omega⟩
  | k + 1, first => by
    have hpow : 2 ^ (k + 1) = 2 ^ k + 2 ^ k := by rw [pow_succ, Nat.mul_two]
    have hleft := madeUp_iff k first
    have hright := madeUp_iff k (first + 2 ^ k)
    rw [madeUp, Bool.or_eq_true, Bool.and_eq_true, heldByOne_iff, hleft, hright]
    constructor
    · rintro (⟨m, hm, hv, hlo, hhi⟩ | ⟨hleft, hright⟩) i h1 h2
      · exact ⟨m, hm, hv, by omega, by omega⟩
      · by_cases hi : i < first + 2 ^ k
        · exact hleft i h1 hi
        · exact hright i (by omega) (by omega)
    · intro h
      exact Or.inr ⟨fun i h1 h2 => h i h1 (by omega), fun i h1 h2 => h i (by omega) (by omega)⟩

/-- An IPv4 network is made up exactly if enumerating its addresses says so. -/
theorem madeUp_network (hn : n.version = .v4) :
    madeUp allowed (n.version.bits - n.prefixlen) n.networkAddress.ip = true ↔
      ∀ a, n.contains a = true → ∃ m ∈ allowed, m.contains a = true := by
  have hlast := n.broadcastAddress_ip
  have hpos : 0 < 2 ^ (n.version.bits - n.prefixlen) := Nat.two_pow_pos _
  rw [madeUp_iff]
  constructor
  · intro h a ha
    obtain ⟨hv, hlo, hhi⟩ := n.contains_iff.mp ha
    obtain ⟨m, hm, hmv, h1, h2⟩ := h a.ip hlo (by omega)
    exact ⟨m, hm, m.contains_iff.mpr ⟨hv.trans (hn.trans hmv.symm), h1, h2⟩⟩
  · intro h i h1 h2
    have hlt : i < 2 ^ n.version.bits := by
      have hbroadcast := n.broadcastAddress.ip_lt
      change _ < 2 ^ n.version.bits at hbroadcast
      omega
    obtain ⟨m, hm, hma⟩ := h (.ofNat n.version i hlt) (n.contains_iff.mpr ⟨rfl, h1, by
      change i ≤ _
      omega⟩)
    obtain ⟨hmv, hlo, hhi⟩ := m.contains_iff.mp hma
    exact ⟨m, hm, hmv.symm.trans hn, hlo, hhi⟩

end

/-- **Containment and enumeration** agree on an IPv4 network if and only if
narrower ranges do not make it up. -/
theorem enumerates_iff (n : IPNetwork) (hn : n.version = .v4) (allowed : List IPNetwork) :
    Enumerates n allowed ↔ ¬ Pieced n allowed := by
  unfold Enumerates Pieced
  rw [networkWithinAllowed_iff hn, madeUp_network hn]
  constructor
  · rintro h ⟨hnarrow, hcovered⟩
    obtain ⟨m, hm, hfirst, hlen⟩ := h.mpr hcovered
    have hlt := hnarrow m hm hfirst
    omega
  · intro hnot
    constructor
    · rintro ⟨m, hm, hfirst, hlen⟩ a ha
      exact ⟨m, hm, contains_of_prefixlen_le hlen n.contains_networkAddress hfirst ha⟩
    · intro hcovered
      by_contra hnone
      refine hnot ⟨fun m hm hfirst => ?_, hcovered⟩
      by_contra hle
      exact hnone ⟨m, hm, hfirst, not_lt.mp hle⟩

theorem enumerates_iff_lab :
    let n := networkLit "10.10.0.0/24"
    Enumerates n baseAllowedRanges ↔ ¬ Pieced n baseAllowedRanges :=
  enumerates_iff (networkLit "10.10.0.0/24") (by decide +kernel) baseAllowedRanges

/-- A /24 in a scope of its two halves. -/
theorem not_enumerates : ¬ ∀ n : IPNetwork, n.version = .v4 → ∀ allowed, Enumerates n allowed := by
  intro h
  obtain ⟨n, hn⟩ : ∃ n, n = networkLit "10.0.0.0/24" := ⟨_, rfl⟩
  obtain ⟨low, hlow⟩ : ∃ m, m = networkLit "10.0.0.0/25" := ⟨_, rfl⟩
  obtain ⟨high, hhigh⟩ : ∃ m, m = networkLit "10.0.0.128/25" := ⟨_, rfl⟩
  have hversion : n.version = .v4 ∧ low.version = .v4 ∧ high.version = .v4 := by
    subst hn hlow hhigh
    decide +kernel
  have hfirst : low.networkAddress.ip = n.networkAddress.ip := by
    subst hn hlow
    decide +kernel
  have hnext : high.networkAddress.ip = low.broadcastAddress.ip + 1 := by
    subst hlow hhigh
    decide +kernel
  have hlast : high.broadcastAddress.ip = n.broadcastAddress.ip := by
    subst hn hhigh
    decide +kernel
  have hwithin : networkWithinAllowed n [low, high] = true :=
    (h n hversion.1 [low, high]).mpr fun a ha => by
      obtain ⟨hv, hlo, hhi⟩ := n.contains_iff.mp ha
      have hv4 := hv.trans hversion.1
      by_cases hmid : a.ip ≤ low.broadcastAddress.ip
      · exact ⟨low, List.mem_cons_self,
          low.contains_iff.mpr ⟨hv4.trans hversion.2.1.symm, by omega, hmid⟩⟩
      · exact ⟨high, List.mem_cons_of_mem _ List.mem_cons_self,
          high.contains_iff.mpr ⟨hv4.trans hversion.2.2.symm, by omega, by omega⟩⟩
  subst hn hlow hhigh
  exact absurd hwithin (by decide +kernel)

end ScanLedger
