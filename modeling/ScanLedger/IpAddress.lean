/-
# IP addresses and networks

What the guard uses of Python's `ipaddress`: addresses and networks of both
families as numbers, their text forms in and out, containment, overlap and the
address classes. An IPv6 address may carry a scope id, which equality compares
and containment ignores. A network is built with `strict=False`: host bits are
masked off, and a scope id goes with them.

The text of an exception quotes its argument with `repr`; of the characters
past Latin-1, `repr` here escapes none.

Key definitions: `IPAddress`, `IPNetwork`, `ipAddress`, `ipNetwork`,
`IPNetwork.contains`, `IPNetwork.subnetOf`, `IPAddress.isGlobal`.
Key theorems: `IPNetwork.contains_iff`, `IPNetwork.contains_of_subnetOf`,
`IPNetwork.contains_of_prefixlen_le`, `IPNetwork.overlaps_iff`.
-/
import Mathlib.Data.Nat.Digits.Defs
import ScanLedger.Lib.Prefix

namespace ScanLedger

inductive Version
  | v4
  | v6
  deriving DecidableEq, Repr

/-- `_max_prefixlen`. -/
def Version.bits : Version → ℕ
  | .v4 => 32
  | .v6 => 128

/-- An `IPv4Address` or `IPv6Address`; only the latter has scope ids, which are
not empty. -/
@[ext]
structure IPAddress where
  version : Version
  ip : ℕ
  scopeId : Option String
  ip_lt : ip < 2 ^ version.bits
  v4_scopeId : version = .v4 → scopeId = none
  scopeId_ne : scopeId ≠ some ""
  deriving DecidableEq

/-- An `IPv4Network` or `IPv6Network`, without host bits. -/
structure IPNetwork where
  networkAddress : IPAddress
  prefixlen : ℕ
  prefixlen_le : prefixlen ≤ networkAddress.version.bits
  masked : networkAddress.ip &&& Prefix.netmask networkAddress.version.bits prefixlen =
    networkAddress.ip
  deriving DecidableEq

/-- The constructors from an integer. -/
def IPAddress.ofNat (v : Version) (n : ℕ) (h : n < 2 ^ v.bits) : IPAddress :=
  ⟨v, n, none, h, fun _ => rfl, nofun⟩

namespace IPNetwork

variable (n : IPNetwork)

def version : Version := n.networkAddress.version

def netmask : ℕ := Prefix.netmask n.version.bits n.prefixlen

def broadcastAddress : IPAddress :=
  .ofNat n.version (Prefix.last n.version.bits n.prefixlen n.networkAddress.ip)
    (Prefix.last_lt n.networkAddress.ip_lt)

/-- `address in network`. -/
def contains (a : IPAddress) : Bool :=
  decide (a.version = n.version) && decide (a.ip &&& n.netmask = n.networkAddress.ip)

def overlaps (m : IPNetwork) : Bool :=
  m.contains n.networkAddress || m.contains n.broadcastAddress ||
    n.contains m.networkAddress || n.contains m.broadcastAddress

end IPNetwork

/-- `a <= b`, which is `a < b or a == b`: two addresses that differ in the
scope id only are not in this order. -/
def IPAddress.le (a b : IPAddress) : Bool := decide (a.ip < b.ip) || decide (a = b)

/-- `a >= b`, which is `not a < b`. -/
def IPAddress.ge (a b : IPAddress) : Bool := !decide (a.ip < b.ip)

/-- `_is_subnet_of`, on two networks of one version. -/
def IPNetwork.subnetOf (n m : IPNetwork) : Bool :=
  m.networkAddress.le n.networkAddress && m.broadcastAddress.ge n.broadcastAddress

/-! ### Reading addresses -/

/-- The digits `int` reads in base 10 or 16. -/
def digitValue (c : Char) : ℕ :=
  if c.isDigit then c.toNat - '0'.toNat
  else if 'a' ≤ c ∧ c ≤ 'f' then c.toNat - 'a'.toNat + 10
  else c.toNat - 'A'.toNat + 10

def readInt (base : ℕ) (s : List Char) : ℕ := s.foldl (fun n c => base * n + digitValue c) 0

/-- `s.isascii() and s.isdigit()`. -/
def asciiDigits (s : List Char) : Bool := !s.isEmpty && s.all Char.isDigit

def parseOctet (s : List Char) : Option (Fin 256) :=
  if ¬ asciiDigits s ∨ 3 < s.length ∨ (s ≠ ['0'] ∧ s.head? = some '0') then none
  else if h : readInt 10 s < 256 then some ⟨readInt 10 s, h⟩ else none

def isHexDigit (c : Char) : Bool :=
  c.isDigit || decide ('a' ≤ c ∧ c ≤ 'f') || decide ('A' ≤ c ∧ c ≤ 'F')

/-- At most four hexadecimal digits make a number below `0x10000`. -/
def parseHextet (s : List Char) : Option (Fin 65536) :=
  if s.isEmpty ∨ ¬ s.all isHexDigit ∨ 4 < s.length then none
  else some (Fin.ofNat 65536 (readInt 16 s))

/-- The number with these base `b + 1` digits, the most significant first. -/
def ofGroups {b : ℕ} (groups : List (Fin (b + 1))) : ℕ :=
  Nat.ofDigits (b + 1) (groups.map Fin.val).reverse

theorem ofGroups_lt {b : ℕ} (hb : 0 < b) (groups : List (Fin (b + 1))) :
    ofGroups groups < (b + 1) ^ groups.length := by
  have hdigit : ∀ d ∈ (groups.map Fin.val).reverse, d < b + 1 := by
    intro d hd
    obtain ⟨g, -, rfl⟩ := List.mem_map.mp (List.mem_reverse.mp hd)
    exact g.isLt
  have hlt := Nat.ofDigits_lt_base_pow_length (by omega) hdigit
  simpa [ofGroups] using hlt

/-- `IPv4Address._ip_int_from_string`. -/
def ipv4Int (s : List Char) : Option (Fin (2 ^ 32)) :=
  match s.splitOn '.' with
  | [a, b, c, d] => do
    let a ← parseOctet a
    let b ← parseOctet b
    let c ← parseOctet c
    let d ← parseOctet d
    return ⟨ofGroups [a, b, c, d],
      lt_of_lt_of_eq (ofGroups_lt (b := 255) (by norm_num) [a, b, c, d]) (by norm_num)⟩
  | _ => none

/-- An IPv4 suffix as the two hextets it stands for. -/
def expandSuffix (parts : List (List Char)) : Option (List (List Char)) :=
  if '.' ∈ parts.getLastD [] then do
    let n ← ipv4Int (parts.getLastD [])
    return parts.dropLast ++ [Nat.toDigits 16 (n / 65536), Nat.toDigits 16 (n % 65536)]
  else some parts

/-- The parts on one side of the `::`: an endpoint may be empty, alone. -/
def sideOf (parts : List (List Char)) (endpoint : Option (List Char)) :
    Option (List (List Char)) :=
  if endpoint = some [] then (if parts.length = 1 then some [] else none) else some parts

def parseHextets : List (List Char) → Option (List (Fin 65536))
  | [] => some []
  | p :: ps => do
    let h ← parseHextet p
    let hs ← parseHextets ps
    return h :: hs

theorem parseHextets_length : ∀ {ps : List (List Char)} {hs : List (Fin 65536)},
    parseHextets ps = some hs → hs.length = ps.length
  | [], _, h => by cases h; rfl
  | p :: ps, hs, h => by
    simp only [parseHextets, Option.pure_def, Option.bind_eq_bind, Option.bind_eq_some_iff,
      Option.some.injEq] at h
    obtain ⟨_, _, hs', hps, rfl⟩ := h
    rw [List.length_cons, List.length_cons, parseHextets_length hps]

/-- The inner parts that are empty: the place of the `::`. -/
def skipIndices (parts : List (List Char)) : List ℕ :=
  (List.range parts.length).filter fun i =>
    decide (0 < i ∧ i + 1 < parts.length) && (parts.getD i []).isEmpty

/-- The hextets of an address given by its parts between the colons. -/
def hextetsOf (parts : List (List Char)) : Option (List (Fin 65536)) :=
  match skipIndices parts with
  | [] => if parts.length = 8 then parseHextets parts else none
  | [skip] => do
    let hi ← sideOf (parts.take skip) parts.head?
    let lo ← sideOf (parts.drop (skip + 1)) parts.getLast?
    if 8 < hi.length + lo.length + 1 then none
    else do
      let hs ← parseHextets hi
      let ls ← parseHextets lo
      return hs ++ List.replicate (8 - (hi.length + lo.length)) 0 ++ ls
  | _ => none

theorem hextetsOf_length {parts : List (List Char)} {hs : List (Fin 65536)}
    (h : hextetsOf parts = some hs) : hs.length = 8 := by
  unfold hextetsOf at h
  split at h
  · split_ifs at h with hl
    rw [parseHextets_length h, hl]
  · simp only [Option.pure_def, Option.bind_eq_bind, Option.bind_eq_some_iff] at h
    obtain ⟨hi, -, lo, -, h⟩ := h
    split_ifs at h with hl
    simp only [Option.bind_eq_some_iff, Option.some.injEq] at h
    obtain ⟨hs', h1, ls, h2, rfl⟩ := h
    simp only [List.length_append, List.length_replicate, parseHextets_length h1,
      parseHextets_length h2]
    omega
  · cases h

/-- `IPv6Address._ip_int_from_string`. -/
def ipv6Int (s : List Char) : Option (Fin (2 ^ 128)) :=
  let parts := s.splitOn ':'
  if parts.length < 3 then none
  else do
    let parts ← expandSuffix parts
    if 9 < parts.length then none
    else match h : hextetsOf parts with
      | none => none
      | some hs => some ⟨ofGroups hs, by
          have hlt := ofGroups_lt (b := 65535) (by norm_num) hs
          rw [hextetsOf_length h] at hlt
          exact lt_of_lt_of_eq hlt (by norm_num)⟩

/-- `IPv4Address(text)`. -/
def ipv4Address (s : List Char) : Option IPAddress :=
  if '/' ∈ s then none else (ipv4Int s).map fun ⟨n, hn⟩ => .ofNat .v4 n hn

/-- `_split_scope_id`. -/
def splitScopeId (s : List Char) :
    Option (List Char × { scopeId : Option String // scopeId ≠ some "" }) :=
  match s.dropWhile (· != '%') with
  | [] => some (s, ⟨none, nofun⟩)
  | _ :: scopeId =>
    if h : scopeId = [] ∨ '%' ∈ scopeId then none
    else some (s.takeWhile (· != '%'), ⟨some (String.ofList scopeId), by
      simpa using (not_or.mp h).1⟩)

/-- `IPv6Address(text)`. -/
def ipv6Address (s : List Char) : Option IPAddress :=
  if '/' ∈ s then none
  else do
    let (addr, scopeId) ← splitScopeId s
    let n ← ipv6Int addr
    return ⟨.v6, n, scopeId, n.isLt, nofun, scopeId.property⟩

/-- `ip_address(text)`. -/
def ipAddress (text : String) : Option IPAddress :=
  (ipv4Address text.toList).orElse fun _ => ipv6Address text.toList

/-! ### Reading networks -/

/-- The digits `int` accepts before it refuses a text as too long. -/
def maxStrDigits : ℕ := 4300

def prefixFromPrefixString (v : Version) (s : List Char) : Option (Fin (v.bits + 1)) :=
  if ¬ asciiDigits s ∨ maxStrDigits < s.length then none
  else if h : readInt 10 s ≤ v.bits then some ⟨readInt 10 s, Nat.lt_succ_of_le h⟩ else none

/-- `_count_righthand_zero_bits`. -/
def countRighthandZeroBits (n bits : ℕ) : ℕ :=
  ((List.range bits).takeWhile fun i => !n.testBit i).length

/-- `_prefix_from_ip_int`: ones, then zeros. -/
def prefixFromIpInt (n : ℕ) : Option (Fin 33) :=
  let zeros := countRighthandZeroBits n 32
  if n >>> zeros = 2 ^ (32 - zeros) - 1 then
    some ⟨32 - zeros, Nat.lt_succ_of_le (Nat.sub_le _ _)⟩
  else none

/-- A netmask or a hostmask in dotted form. -/
def prefixFromIpString (s : List Char) : Option (Fin 33) := do
  let n ← ipv4Int s
  (prefixFromIpInt n).orElse fun _ => prefixFromIpInt (n ^^^ (2 ^ 32 - 1))

/-- `_make_netmask`: the prefix length it finds. -/
def makeNetmask (s : List Char) : (v : Version) → Option (Fin (v.bits + 1))
  | .v4 => (prefixFromPrefixString .v4 s).orElse fun _ => prefixFromIpString s
  | .v6 => prefixFromPrefixString .v6 s

/-- The network of an address and a prefix length, host bits masked off. -/
def IPNetwork.of (a : IPAddress) (len : Fin (a.version.bits + 1)) : IPNetwork :=
  if hm : a.ip &&& Prefix.netmask a.version.bits len = a.ip then
    ⟨a, len, Nat.le_of_lt_succ len.isLt, hm⟩
  else
    ⟨.ofNat a.version (a.ip &&& Prefix.netmask a.version.bits len)
      (lt_of_le_of_lt Nat.and_le_left a.ip_lt), len, Nat.le_of_lt_succ len.isLt,
      Prefix.netmask_idem _ _⟩

/-- `IPv4Network(text, False)` or `IPv6Network(text, False)`, by the class of
its addresses. -/
def networkOf (parse : List Char → Option IPAddress) (s : List Char) : Option IPNetwork :=
  match s.splitOn '/' with
  | [addr] => (parse addr).map fun a => .of a (Fin.last _)
  | [addr, mask] => do
    let a ← parse addr
    let len ← makeNetmask mask a.version
    return .of a len
  | _ => none

/-- `ip_network(text, strict=False)`. -/
def ipNetwork (text : String) : Option IPNetwork :=
  (networkOf ipv4Address text.toList).orElse fun _ => networkOf ipv6Address text.toList

/-! ### Writing addresses -/

/-- The loop of `_compress_hextets`: the start and the length of the run of
zeros read last, and of the longest one so far. -/
structure ZeroRuns where
  start : ℕ
  len : ℕ
  bestStart : ℕ
  bestLen : ℕ

def ZeroRuns.read (z : ZeroRuns) (index : ℕ) (hextet : String) : ZeroRuns :=
  if hextet = "0" then
    let start := if z.len = 0 then index else z.start
    if z.bestLen < z.len + 1 then ⟨start, z.len + 1, start, z.len + 1⟩
    else ⟨start, z.len + 1, z.bestStart, z.bestLen⟩
  else ⟨0, 0, z.bestStart, z.bestLen⟩

def compressHextets (hextets : List String) : List String :=
  let z : ZeroRuns := hextets.zipIdx.foldl (fun z h => ZeroRuns.read z h.2 h.1) ⟨0, 0, 0, 0⟩
  if 1 < z.bestLen then
    let stop := z.bestStart + z.bestLen
    (if z.bestStart = 0 then [""] else []) ++ hextets.take z.bestStart ++ [""] ++
      hextets.drop stop ++ (if stop = hextets.length then [""] else [])
  else hextets

/-- The `k` base `b` digits of a number, the most significant first. -/
def groupsOf (b n k : ℕ) : List ℕ := (List.range k).reverse.map fun i => n / b ^ i % b

def stringFromIpInt : Version → ℕ → String
  | .v4, n => ".".intercalate ((groupsOf 256 n 4).map toString)
  | .v6, n => ":".intercalate (compressHextets
      ((groupsOf 65536 n 8).map fun h => String.ofList (Nat.toDigits 16 h)))

/-- `str(address)`. -/
def IPAddress.str (a : IPAddress) : String :=
  match a.scopeId with
  | some id => if id.isEmpty then stringFromIpInt a.version a.ip
    else stringFromIpInt a.version a.ip ++ "%" ++ id
  | none => stringFromIpInt a.version a.ip

/-- `str(network)`. -/
def IPNetwork.str (n : IPNetwork) : String :=
  n.networkAddress.str ++ "/" ++ toString n.prefixlen

/-! ### Address classes -/

/-- `ip_network(text)` for a text known to be one. -/
def networkLit (text : String) (h : (ipNetwork text).isSome = true := by exact Eq.refl true) :
    IPNetwork :=
  (ipNetwork text).get h

/-- `ip_address(text)` for a text known to be one. -/
def addressLit (text : String) (h : (ipAddress text).isSome = true := by exact Eq.refl true) :
    IPAddress :=
  (ipAddress text).get h

def multicastNetwork : Version → IPNetwork
  | .v4 => networkLit "224.0.0.0/4"
  | .v6 => networkLit "ff00::/8"

def publicNetwork : IPNetwork := networkLit "100.64.0.0/10"

def privateNetworks : Version → List IPNetwork
  | .v4 => [networkLit "0.0.0.0/8", networkLit "10.0.0.0/8", networkLit "127.0.0.0/8",
      networkLit "169.254.0.0/16", networkLit "172.16.0.0/12", networkLit "192.0.0.0/24",
      networkLit "192.0.0.170/31", networkLit "192.0.2.0/24", networkLit "192.168.0.0/16",
      networkLit "198.18.0.0/15", networkLit "198.51.100.0/24", networkLit "203.0.113.0/24",
      networkLit "240.0.0.0/4", networkLit "255.255.255.255/32"]
  | .v6 => [networkLit "::1/128", networkLit "::/128", networkLit "::ffff:0:0/96",
      networkLit "64:ff9b:1::/48", networkLit "100::/64", networkLit "2001::/23",
      networkLit "2001:db8::/32", networkLit "2002::/16", networkLit "fc00::/7",
      networkLit "fe80::/10"]

def privateNetworksExceptions : Version → List IPNetwork
  | .v4 => [networkLit "192.0.0.9/32", networkLit "192.0.0.10/32"]
  | .v6 => [networkLit "2001:1::1/128", networkLit "2001:1::2/128", networkLit "2001:3::/32",
      networkLit "2001:4:112::/48", networkLit "2001:20::/28", networkLit "2001:30::/28"]

namespace IPAddress

variable (a : IPAddress)

def isMulticast : Bool := (multicastNetwork a.version).contains a

/-- Of an IPv4 address, `== 0.0.0.0`; of an IPv6 address, `_ip == 0`. -/
def isUnspecified : Bool := decide (a.ip = 0)

def ipv4Mapped : Option IPAddress :=
  if a.version = .v6 ∧ a.ip >>> 32 = 0xFFFF then
    some (.ofNat .v4 (a.ip &&& 0xFFFFFFFF) (lt_of_le_of_lt Nat.and_le_right (by decide)))
  else none

/-- The table lookup of `is_private`. -/
def inPrivateNetworks : Bool :=
  (privateNetworks a.version).any (·.contains a) &&
    (privateNetworksExceptions a.version).all fun n => !n.contains a

def isPrivate : Bool :=
  match a.ipv4Mapped with
  | some b => b.inPrivateNetworks
  | none => a.inPrivateNetworks

def isGlobal : Bool :=
  match a.version with
  | .v4 => !publicNetwork.contains a && !a.isPrivate
  | .v6 => !a.isPrivate

end IPAddress

namespace IPNetwork

variable (n : IPNetwork)

def isMulticast : Bool := n.networkAddress.isMulticast && n.broadcastAddress.isMulticast

def isUnspecified : Bool := n.networkAddress.isUnspecified && n.broadcastAddress.isUnspecified

/-- Both ends in one private range, and neither in an exception. -/
def isPrivate : Bool :=
  (privateNetworks n.version).any (fun m =>
    m.contains n.networkAddress && m.contains n.broadcastAddress) &&
    (privateNetworksExceptions n.version).all fun m =>
      !m.contains n.networkAddress && !m.contains n.broadcastAddress

def isGlobal : Bool :=
  match n.version with
  | .v4 => !(publicNetwork.contains n.networkAddress &&
      publicNetwork.contains n.broadcastAddress) && !n.isPrivate
  | .v6 => !n.isPrivate

/-! ### Containment -/

theorem dvd_networkAddress :
    2 ^ (n.networkAddress.version.bits - n.prefixlen) ∣ n.networkAddress.ip :=
  (Prefix.netmask_and_self n.networkAddress.ip_lt n.prefixlen_le).mp n.masked

@[simp] theorem broadcastAddress_version : n.broadcastAddress.version = n.version := rfl

/-- A network is the interval from its address to its broadcast address. -/
theorem contains_iff {a : IPAddress} : n.contains a = true ↔
    a.version = n.version ∧ n.networkAddress.ip ≤ a.ip ∧ a.ip ≤ n.broadcastAddress.ip := by
  unfold contains
  rw [Bool.and_eq_true, decide_eq_true_eq, decide_eq_true_eq]
  refine and_congr_right fun hv => ?_
  have hlt : a.ip < 2 ^ n.version.bits := hv ▸ a.ip_lt
  exact Prefix.block_iff hlt n.prefixlen_le n.dvd_networkAddress

theorem broadcastAddress_ip :
    n.broadcastAddress.ip = n.networkAddress.ip + (2 ^ (n.version.bits - n.prefixlen) - 1) :=
  Prefix.last_eq n.prefixlen_le n.dvd_networkAddress

theorem networkAddress_le_broadcastAddress : n.networkAddress.ip ≤ n.broadcastAddress.ip := by
  rw [n.broadcastAddress_ip]
  exact Nat.le_add_right _ _

theorem contains_networkAddress : n.contains n.networkAddress = true :=
  n.contains_iff.mpr ⟨rfl, le_rfl, n.networkAddress_le_broadcastAddress⟩

theorem contains_broadcastAddress : n.contains n.broadcastAddress = true :=
  n.contains_iff.mpr ⟨rfl, n.networkAddress_le_broadcastAddress, le_rfl⟩

variable {n}

/-- With its ends, a network's addresses are in another. -/
theorem contains_of_ends {m : IPNetwork} {a : IPAddress}
    (h1 : m.contains n.networkAddress = true) (h2 : m.contains n.broadcastAddress = true)
    (ha : n.contains a = true) : m.contains a = true := by
  obtain ⟨hv, hlo, -⟩ := m.contains_iff.mp h1
  obtain ⟨-, -, hhi⟩ := m.contains_iff.mp h2
  obtain ⟨hav, h3, h4⟩ := n.contains_iff.mp ha
  exact m.contains_iff.mpr ⟨hav.trans hv, hlo.trans h3, h4.trans hhi⟩

theorem version_of_contains {m : IPNetwork} {a : IPAddress} (hn : n.contains a = true)
    (hm : m.contains a = true) : n.version = m.version :=
  (n.contains_iff.mp hn).1.symm.trans (m.contains_iff.mp hm).1

/-- Two networks overlap where they share an address. -/
theorem overlaps_iff {m : IPNetwork} :
    n.overlaps m = true ↔ ∃ a, n.contains a = true ∧ m.contains a = true := by
  constructor
  · intro h
    simp only [overlaps, Bool.or_eq_true] at h
    rcases h with ((h | h) | h) | h
    · exact ⟨_, n.contains_networkAddress, h⟩
    · exact ⟨_, n.contains_broadcastAddress, h⟩
    · exact ⟨_, h, m.contains_networkAddress⟩
    · exact ⟨_, h, m.contains_broadcastAddress⟩
  · rintro ⟨a, hn, hm⟩
    have hv := version_of_contains hn hm
    obtain ⟨-, h1, h2⟩ := n.contains_iff.mp hn
    obtain ⟨-, h3, h4⟩ := m.contains_iff.mp hm
    simp only [overlaps, Bool.or_eq_true]
    -- the later of the two first addresses is in both
    by_cases hle : n.networkAddress.ip ≤ m.networkAddress.ip
    · exact Or.inl (Or.inr (n.contains_iff.mpr ⟨hv.symm, hle, h3.trans h2⟩))
    · exact Or.inl (Or.inl (Or.inl (m.contains_iff.mpr ⟨hv, (not_le.mp hle).le, h1.trans h4⟩)))

/-- Networks that do not overlap share no address. -/
theorem contains_of_not_overlaps {n m : IPNetwork} (h : n.overlaps m = false)
    (ha : n.contains a = true) : m.contains a = false := by
  by_contra hne
  have hoverlaps : n.overlaps m = true := overlaps_iff.mpr ⟨a, ha, by simpa using hne⟩
  rw [h] at hoverlaps
  cases hoverlaps

/-- **Networks are nested.** One that shares an address with a wider one is
within it. -/
theorem contains_of_prefixlen_le {m : IPNetwork} {a b : IPAddress}
    (h : m.prefixlen ≤ n.prefixlen) (hn : n.contains a = true) (hm : m.contains a = true)
    (hb : n.contains b = true) : m.contains b = true := by
  have hv := version_of_contains hn hm
  unfold contains at *
  simp only [Bool.and_eq_true, decide_eq_true_eq] at *
  refine ⟨hb.1.trans hv, ?_⟩
  unfold netmask at *
  rw [hv] at hn hb
  exact Prefix.block_of_block h hn.2 hb.2 hm.2

theorem ip_le_of_le {a b : IPAddress} (h : a.le b = true) : a.ip ≤ b.ip := by
  unfold IPAddress.le at h
  rw [Bool.or_eq_true, decide_eq_true_eq, decide_eq_true_eq] at h
  rcases h with h | rfl
  · exact h.le
  · exact le_rfl

theorem ip_le_of_ge {a b : IPAddress} (h : a.ge b = true) : b.ip ≤ a.ip := by
  simpa [IPAddress.ge] using h

/-- `subnet_of` proves what enumerating the members would. -/
theorem contains_of_subnetOf {n m : IPNetwork} {a : IPAddress} (hv : n.version = m.version)
    (h : n.subnetOf m = true) (ha : n.contains a = true) : m.contains a = true := by
  obtain ⟨hlo, hhi⟩ := Bool.and_eq_true_iff.mp h
  obtain ⟨hav, h1, h2⟩ := n.contains_iff.mp ha
  refine m.contains_iff.mpr ⟨hav.trans hv, (ip_le_of_le hlo).trans h1, h2.trans (ip_le_of_ge hhi)⟩

end IPNetwork

end ScanLedger
