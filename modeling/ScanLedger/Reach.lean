/-
# What validation accepts, probing can reach

A CIDR is accepted by its network and probed address by address, under the
tests for addresses. An address that the expansion of a validated target yields
passes every check of `connect`, on every port: it is in the scope since its
network is, it is in an allowed range since the scope is, and there only the
metadata addresses are denied, which no accepted network touches
(`validated_reachable`).

Key definitions: `Reaches`.
Key theorems: `always_connect_allowed`, `addressDenial_of_network`,
`validated_reachable`.
-/
import ScanLedger.Agreement
import ScanLedger.Connect
import ScanLedger.Expansion

namespace ScanLedger

open Prog

/-- The operation writes no denial. -/
def Op.noDenial (o : Op) : Prop := ∀ entry, o = .record entry → entry.decision ≠ .denied

/-- A call of `connect` gets past its checks, asks for the slot first and writes
no denial, whatever it is answered. -/
structure Reaches (scope : ScopeProfile) (t : ValidatedTarget) (a : IPAddress) (port : ℤ) :
    Prop where
  checks : connectChecks scope t a port = ret ()
  slot : (connect scope t a port).head = some (.slot a.str)
  noDenial : (connect scope t a port).Always Op.noDenial fun _ => True

section

variable {scope : ScopeProfile} {t : ValidatedTarget} {a : IPAddress} {port : ℤ} {α : Type}

/-! ### A call past its checks -/

theorem always_other (o : Op) (h : ∀ entry, o ≠ .record entry := by nofun) :
    (call o).Always Op.noDenial fun _ => True :=
  Always.perform fun entry he => absurd he (h entry)

theorem always_allowedEntry (outcome : String) :
    (call (.record (allowedEntry a.str (some port) outcome))).Always Op.noDenial fun _ => True :=
  Always.perform fun entry he => by cases he; exact nofun

variable (a port) in
theorem always_connectFailed_allowed {Q : α → Prop} (sock : Bool) (x : Exn) :
    (connectFailed a port sock x : Guard α).Always Op.noDenial Q := by
  have hclose : (closeIf sock).Always Op.noDenial fun _ => True := by
    cases sock
    · exact .ret trivial
    · exact always_other .close
  unfold connectFailed
  exact hclose.bind fun _ _ => (always_other (.reportError _)).bind fun _ _ =>
    (always_allowedEntry _).bind fun _ _ => .raise x

theorem always_connect_allowed (h : connectChecks scope t a port = ret ()) :
    (connect scope t a port).Always Op.noDenial fun _ => True := by
  have hsocket := Always.tryCatch (always_other (.socket a.version)) fun x =>
    always_connectFailed_allowed a port false x
  have hconnect := Always.tryCatch
    ((always_other (.sockConnect a port)).bind fun _ _ => always_other .connected) fun x =>
      always_connectFailed_allowed a port true x
  have hattempt : (attempt a port).Always Op.noDenial fun _ => True :=
    (always_other .setActive).bind fun token _ =>
      Always.tryFinally (hsocket.bind fun _ _ => hconnect) (always_other (.resetActive token))
  have hslot : (withSlot a.str (attempt a port)).Always Op.noDenial fun _ => True :=
    (always_other (.slot a.str)).bind fun _ _ => hattempt.tryFinally (always_other (.release a.str))
  unfold connect
  rw [h]
  exact hslot.bind fun _ _ => (always_other (.reportSuccess a.str)).bind fun _ _ =>
    always_allowedEntry _

theorem reaches_of_passesChecks (h : PassesChecks scope t a port) : Reaches scope t a port := by
  have hchecks := run_connectChecks h
  refine ⟨hchecks, ?_, always_connect_allowed hchecks⟩
  unfold connect
  rw [hchecks]
  rfl

/-! ### The addresses of an accepted network -/

/-- What a scope may hold, some scope holds. -/
theorem allowedRangesFor_subset {cgnat linkLocal : Bool} {m : IPNetwork}
    (h : m ∈ allowedRangesFor cgnat linkLocal) : m ∈ allowedRangesFor true true := by
  unfold allowedRangesFor
  rw [if_pos rfl, if_pos rfl, List.mem_append, List.mem_append]
  rcases mem_allowedRangesFor h with hbase | ⟨-, rfl⟩ | ⟨-, hlinkLocal⟩
  · exact Or.inl (Or.inl hbase)
  · exact Or.inl (Or.inr List.mem_cons_self)
  · exact Or.inr hlinkLocal

theorem networkDenial_eq_none {n : IPNetwork} (h : networkDenial scope n = none) :
    networkAlwaysDenied n = none ∧ scope.containsNetwork n = true := by
  unfold networkDenial at h
  cases hd : networkAlwaysDenied n with
  | some reason => simp [hd] at h
  | none =>
    refine ⟨rfl, ?_⟩
    by_contra hc
    simp [hd, hc] at h

/-- **Accepted networks.** The addresses of a network that is not denied are not
denied. -/
theorem addressDenial_of_network {n : IPNetwork} (h : networkDenial scope n = none)
    (ha : n.contains a = true) : addressDenial scope a = none := by
  obtain ⟨halways, hscope⟩ := networkDenial_eq_none h
  obtain ⟨m, hm, hma⟩ := exists_of_networkWithinAllowed hscope ha
  have hin : scope.containsAddress a = true := List.any_eq_true.mpr ⟨m, hm, hma⟩
  -- the scope's network is in an allowed range, and so is the address
  obtain ⟨range, hrange, hra⟩ :=
    exists_of_networkWithinAllowed (ScopeProfile.networkWithinAllowed hm) hma
  have hmetadata : ∀ d ∈ cloudMetadataNetworks, d.contains a = false := fun d hd =>
    IPNetwork.contains_of_not_overlaps ((networkAlwaysDenied_eq_none.mp halways).notMetadata d hd)
      ha
  have hnone := isAlwaysDenied_of_allowed (allowedRangesFor_subset hrange) hra hmetadata
  unfold addressDenial
  rw [hnone, hin]
  rfl

/-- An address that the expansion yields is of the network. -/
theorem contains_of_yielded {n : IPNetwork} (hn : t.network = some n)
    (ha : a ∈ (iterTargetAddresses t).yielded) : n.contains a = true := by
  unfold iterTargetAddresses at ha
  simp only [hn] at ha
  split_ifs at ha with hmax htwo
  · cases ha
  · rw [List.mem_singleton.mp ha]
    exact n.contains_networkAddress
  · exact ((hosts_covers (not_le.mp htwo)).usable a ha).member

theorem covers_of_yielded (ha : a ∈ (iterTargetAddresses t).yielded) : t.covers a = true := by
  unfold ValidatedTarget.covers
  cases hn : t.network with
  | some n => exact contains_of_yielded hn ha
  | none =>
    unfold iterTargetAddresses at ha
    simp only [hn] at ha
    exact decide_eq_true ha

end

/-- **Reach.** Every address that the expansion of a validated target yields can
be reached on every port. -/
theorem validated_reachable (scope : ScopeProfile) (rawTarget : String) (env : Env) (c c' : Call)
    (t : ValidatedTarget)
    (h : (validateTarget scope rawTarget).run (handle env) c = (.ok t, c'))
    (a : IPAddress) (ha : a ∈ (iterTargetAddresses t).yielded) (port : ℤ)
    (hport : 1 ≤ port ∧ port ≤ 65535) : Reaches scope t a port := by
  have hvalid := valid_of_run h
  refine reaches_of_passesChecks ⟨hport, covers_of_yielded ha, ?_⟩
  cases hn : t.network with
  | some n => exact addressDenial_of_network (hvalid.network n hn).2 (contains_of_yielded hn ha)
  | none =>
    unfold iterTargetAddresses at ha
    simp only [hn] at ha
    exact hvalid.addresses hn a ha

/-- The first of the lab's two addresses. -/
theorem validated_reachable_lab : Reaches labScope labPair (addressLit "10.10.0.4") 443 :=
  validated_reachable labScope "10.10.0.4/31" _ (.new false) _ labPair labPair_validated
    (addressLit "10.10.0.4") (by decide +kernel) 443 ⟨by decide, by decide⟩

end ScanLedger
