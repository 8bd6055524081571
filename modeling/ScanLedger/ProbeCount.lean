/-
# What the report counts as probed

A run of `execute_scan` under the guard: the target is validated, and if it is
accepted the modules' calls of `connect` and `open_stream` follow, each in an
environment of its own and writing its entries in any order with the others.
The report counts the allowed entries as the destinations that were probed. But
the validation leaves allowed entries before anything is probed, and each call
past its slot leaves one more, so the number is too high in every run whose
target is accepted (`attempted_lt_allowed`), and the truth only when it is
refused (`printed_iff`). The denied entries are the denied decisions.

Key definitions: `ScanRun`, `ScanRun.attempted`, `ScanRun.deniedDecisions`, `PrintsTruth`.
Key theorems: `run_validateTarget`, `run_probe`, `printed_iff`.
-/
import Mathlib.Data.List.Dedup
import ScanLedger.Decisions
import ScanLedger.Printing
import ScanLedger.Reports

namespace ScanLedger

open Prog

/-! ### A run of a scan -/

/-- A call of a module on the guard, `connect` or `open_stream`. -/
structure Probe where
  address : IPAddress
  port : ℤ
  useTls : Option Bool
  env : Env

namespace Probe

variable (scope : ScopeProfile) (target : ValidatedTarget) (p : Probe)

def run : Except Exn Unit × Call :=
  match p.useTls with
  | none => (connect scope target p.address p.port).run (handle p.env) (.new false)
  | some useTls => (openStream scope target p.address p.port useTls).run (handle p.env) (.new false)

/-- The address, if the call started a TCP attempt. -/
def attempted : Option IPAddress := if (p.run scope target).2.started then some p.address else none

/-- The guard denies the destination. -/
def denied : Bool :=
  decide (0 < p.port ∧ p.port ≤ 65535) &&
    (!target.covers p.address || (addressDenial scope p.address).isSome)

end Probe

/-- A run whose ledger writes all succeed. -/
structure ScanRun where
  scope : ScopeProfile
  rawTarget : String
  env : Env
  probes : List Probe
  sink : env.SinkWorks
  sinks : ∀ p ∈ probes, p.env.SinkWorks

/-- The guard denies the target, or one of the addresses it resolves to. -/
def targetDenied (scope : ScopeProfile) (env : Env) (rawTarget : String) : Bool :=
  match ((classify rawTarget).run (handle env) (.new false)).1 with
  | .error _ => false
  | .ok (_, _, some n) => (checkPrefixBreadth n).isSome || (networkDenial scope n).isSome
  | .ok (_, addresses, none) => addresses.any fun a => (addressDenial scope a).isSome

namespace ScanRun

variable (r : ScanRun)

def validated : Except Exn ValidatedTarget × Call :=
  (validateTarget r.scope r.rawTarget).run (handle r.env) (.new false)

/-- The calls that are made: none on a target that was refused. -/
def calls : List (ValidatedTarget × Probe) :=
  match r.validated.1 with
  | .ok target => r.probes.map fun p => (target, p)
  | .error _ => []

/-- The ledger of the scan, call by call. -/
def entries : List LedgerEntry :=
  r.validated.2.entries ++ r.calls.flatMap fun c => (c.2.run r.scope c.1).2.entries

/-- The addresses of the TCP attempts that were started. -/
def attempted : List IPAddress := r.calls.filterMap fun c => c.2.attempted r.scope c.1

/-- The decisions that came out as denied. -/
def deniedDecisions : ℕ :=
  (if targetDenied r.scope r.env r.rawTarget then 1 else 0) +
    r.calls.countP fun c => c.2.denied r.scope c.1

/-- The target passes `validate_target`. -/
def accepted : Bool := r.validated.1.toBool

end ScanRun

/-- The two numbers of the audit section of the Markdown export: the distinct
addresses attempted, and the denied decisions. -/
structure PrintsTruth (r : ScanRun) (ledger : List ScanLedgerRow) : Prop where
  probed : (ledgerLines ledger)[2]? =
    some ("- Destinations allowed and probed: **" ++ toString r.attempted.dedup.length ++ "**")
  denied : (ledgerLines ledger)[3]? =
    some ("- Destinations denied before any packet: **" ++ toString r.deniedDecisions ++ "**")

/-! ### Counting entries -/

def isAllowed (e : LedgerEntry) : Bool := e.decision == .allowed

def isDenied (e : LedgerEntry) : Bool := e.decision == .denied

variable {scope : ScopeProfile} {env : Env}

/-- A refusal leaves one entry, and it is denied. -/
theorem Refused.counts {α : Type} {c : Call} {r : Except Exn α × Call} (h : Refused c r)
    (hc : c.entries = []) : r.1.toBool = false ∧ r.2.started = c.started ∧
      r.2.entries.countP isAllowed = 0 ∧ r.2.entries.countP isDenied = 1 := by
  obtain ⟨target, reason, e, he, rfl⟩ := h
  refine ⟨rfl, rfl, ?_, ?_⟩ <;> simp [Call.appended, hc, isAllowed, isDenied, he]

theorem run_deniedIf (h : env.SinkWorks) (c : Call) (destination : String) (port : Option ℤ)
    {problem : Option String} (hp : problem.isSome = true) :
    Refused c ((denyIf destination port problem).run (handle env) c) := by
  obtain ⟨reason, rfl⟩ := Option.isSome_iff_exists.mp hp
  exact run_deny h destination port reason

/-- A network is refused when it is too broad or denied. -/
theorem run_network (scope : ScopeProfile) (h : env.SinkWorks) (n : IPNetwork) (c : Call) :
    if (checkPrefixBreadth n).isSome || (networkDenial scope n).isSome then
      Refused c ((validateNetwork scope n).run (handle env) c)
    else (validateNetwork scope n).run (handle env) c =
      (.ok (), c.appended [allowedEntry n.str none "validated"]) := by
  unfold validateNetwork
  cases hbreadth : checkPrefixBreadth n with
  | some problem => exact (run_deniedIf h c n.str none rfl).bind _
  | none =>
    have hpass : (denyIf n.str none none).run (handle env) c = (.ok (), c) := rfl
    rw [bind_eq, run_bind_of_ok _ hpass]
    cases hdenial : networkDenial scope n with
    | some problem => exact (run_deniedIf h c n.str none rfl).bind _
    | none =>
      rw [bind_eq, run_bind_of_ok _ hpass]
      exact run_record h c _

/-- Addresses are refused when one of them is denied. -/
theorem run_refused (scope : ScopeProfile) (h : env.SinkWorks) (rawTarget : String) (c : Call) :
    ∀ addresses : List IPAddress, if addresses.any fun a => (addressDenial scope a).isSome then
      Refused c ((refuseAny scope rawTarget addresses).run (handle env) c)
    else (refuseAny scope rawTarget addresses).run (handle env) c = (.ok (), c)
  | [] => rfl
  | a :: rest => by
    rw [List.any_cons]
    unfold refuseAny
    cases hdenial : addressDenial scope a with
    | some denial => exact (run_deniedIf h c a.str none rfl).bind _
    | none =>
      have hpass : (denyIf a.str none ((none : Option String).map fun denial =>
          denial ++ " (from target " ++ rawTarget ++ ")")).run (handle env) c = (.ok (), c) := rfl
      rw [bind_eq, run_bind_of_ok _ hpass]
      exact run_refused scope h rawTarget c rest

theorem countP_validated (addresses : List IPAddress) :
    (addresses.map fun a => allowedEntry a.str none "validated").countP isAllowed =
        addresses.length ∧
      (addresses.map fun a => allowedEntry a.str none "validated").countP isDenied = 0 := by
  constructor
  · rw [List.countP_map]
    exact List.countP_eq_length.mpr fun a _ => rfl
  · rw [List.countP_map]
    exact List.countP_eq_zero.mpr fun a _ => nofun

/-- **The validation**: at least one allowed entry when the target is accepted,
and none otherwise; a denied one when it is denied. -/
theorem run_validateTarget (scope : ScopeProfile) (h : env.SinkWorks) (rawTarget : String) :
    let r := (validateTarget scope rawTarget).run (handle env) (.new false)
    (r.1.toBool = true → 0 < r.2.entries.countP isAllowed) ∧
      (r.1.toBool = false → r.2.entries.countP isAllowed = 0) ∧
      r.2.entries.countP isDenied = if targetDenied scope env rawTarget then 1 else 0 := by
  obtain ⟨found, hfound, -⟩ := run_classify env (.new false) rawTarget
  unfold targetDenied
  dsimp only
  rw [hfound]
  unfold validateTarget
  rw [bind_eq, run_bind, hfound]
  rcases found with x | ⟨kind, addresses, _ | n⟩
  · exact ⟨nofun, fun _ => rfl, rfl⟩
  · dsimp only
    unfold validateAddresses
    cases addresses with
    | nil => exact ⟨nofun, fun _ => rfl, rfl⟩
    | cons a rest =>
      have hrefused := run_refused scope h rawTarget (.new false) (a :: rest)
      rw [if_neg (by simp), bind_eq, bind_eq]
      split_ifs at hrefused ⊢ with hany
      · obtain ⟨hbool, -, hallowed, hdenied⟩ := ((hrefused.bind fun _ =>
          recordAll (a :: rest)).bind fun _ =>
            pure (⟨rawTarget, kind, a :: rest, none⟩ : ValidatedTarget)).counts rfl
        exact ⟨fun htrue => absurd (htrue.symm.trans hbool) nofun, fun _ => hallowed, hdenied⟩
      · obtain ⟨hallowed, hdenied⟩ := countP_validated (a :: rest)
        rw [run_bind, run_bind_of_ok _ hrefused, run_recordAll h]
        refine ⟨fun _ => ?_, nofun, hdenied⟩
        exact lt_of_lt_of_eq (Nat.succ_pos rest.length) hallowed.symm
  · have hnetwork := run_network scope h n (.new false)
    dsimp only
    rw [bind_eq]
    split_ifs at hnetwork ⊢ with hany
    · obtain ⟨hbool, -, hallowed, hdenied⟩ := (hnetwork.bind fun _ =>
        pure (⟨rawTarget, kind, [], some n⟩ : ValidatedTarget)).counts rfl
      exact ⟨fun htrue => absurd (htrue.symm.trans hbool) nofun, fun _ => hallowed, hdenied⟩
    · rw [run_bind_of_ok _ hnetwork]
      exact ⟨fun _ => Nat.zero_lt_one, nofun, rfl⟩

/-! ### One call -/

/-- What a call has left when it ends. -/
structure Accounts (scope : ScopeProfile) (target : ValidatedTarget) (a : IPAddress) (port : ℤ)
    (c : Call) : Prop where
  allowed : c.started = true → 0 < c.entries.countP isAllowed
  denied : c.entries.countP isDenied =
    if decide (0 < port ∧ port ≤ 65535) &&
      (!target.covers a || (addressDenial scope a).isSome) then 1 else 0

variable {target : ValidatedTarget} {a : IPAddress} {port : ℤ}

theorem accounts_of_refused {r : Except Exn Unit × Call} (h : Refused (.new false) r)
    (hdenied : (decide (0 < port ∧ port ≤ 65535) &&
      (!target.covers a || (addressDenial scope a).isSome)) = true) :
    Accounts scope target a port r.2 := by
  obtain ⟨-, hstarted, -, hcount⟩ := h.counts rfl
  refine ⟨fun htrue => ?_, by rw [hcount, if_pos hdenied]⟩
  rw [hstarted] at htrue
  cases htrue

theorem accounts_connect (h : env.SinkWorks) : Accounts scope target a port
    ((connect scope target a port).run (handle env) (.new false)).2 := by
  by_cases hport : 0 < port ∧ port ≤ 65535
  · by_cases hcover : target.covers a = true
    · cases hdenial : addressDenial scope a with
      | some denial =>
        refine accounts_of_refused ?_ (by simp [hport, hdenial])
        unfold connect connectChecks
        rw [if_neg (not_not.mpr hport), if_neg (not_not.mpr hcover), hdenial]
        exact (run_deny h _ _ _).bind _
      | none =>
        have hpass : PassesChecks scope target a port := ⟨hport, hcover, hdenial⟩
        have hnone : (decide (0 < port ∧ port ≤ 65535) &&
            (!target.covers a || (addressDenial scope a).isSome)) = false := by
          simp [hcover, hdenial]
        cases hslot : env.slot with
        | error e =>
          unfold connect withSlot
          rw [run_connectChecks hpass]
          refine ⟨?_, ?_⟩ <;>
            simp [run_bind, call, perform, run_op, handle, hslot, Call.new, hcover, hdenial]
        | ok u =>
          rw [run_connect hpass env hslot false]
          cases env.fault with
          | none =>
            refine ⟨fun _ => ?_, ?_⟩
            · simp [Call.wrote, h _, Write.stores, connectedEntry, allowedEntry, isAllowed]
            · rw [hnone]
              simp [Call.wrote, h _, Write.stores, connectedEntry, allowedEntry, isDenied]
          | some fault =>
            refine ⟨fun _ => ?_, ?_⟩
            · simp [Call.wrote, h _, Write.stores, failedEntry, allowedEntry, isAllowed]
            · rw [hnone]
              simp [Call.wrote, h _, Write.stores, failedEntry, allowedEntry, isDenied]
    · refine accounts_of_refused ?_ (by simp [hport, hcover])
      unfold connect connectChecks
      rw [if_neg (not_not.mpr hport), if_pos hcover]
      exact (run_deny h _ _ _).bind _
  · unfold connect connectChecks
    rw [if_pos hport]
    refine ⟨fun herror => (by cases herror), ?_⟩
    simp [hport, Call.new]

/-- The stream over the socket writes nothing and starts nothing. -/
theorem run_openStream (scope : ScopeProfile) (target : ValidatedTarget) (a : IPAddress) (port : ℤ)
    (env : Env) (useTls : Bool) :
    ((openStream scope target a port useTls).run (handle env) (.new false)).2.entries =
        ((connect scope target a port).run (handle env) (.new false)).2.entries ∧
      ((openStream scope target a port useTls).run (handle env) (.new false)).2.started =
        ((connect scope target a port).run (handle env) (.new false)).2.started := by
  unfold openStream
  rw [bind_eq, run_bind]
  rcases (connect scope target a port).run (handle env) (.new false) with ⟨x | u, c⟩
  · exact ⟨rfl, rfl⟩
  · cases hopen : env.openConnection <;>
      simp [run_bind, run_tryCatch, run_tryFinally, call, perform, run_op, handle, hopen,
        Except.mapError]

/-- **One call.** -/
theorem run_probe {p : Probe} (h : p.env.SinkWorks) :
    Accounts scope target p.address p.port (p.run scope target).2 := by
  have hconnect : Accounts scope target p.address p.port _ := accounts_connect h
  unfold Probe.run
  cases p.useTls with
  | none => exact hconnect
  | some useTls =>
    obtain ⟨hentries, hstarted⟩ := run_openStream scope target p.address p.port p.env useTls
    refine ⟨fun htrue => ?_, ?_⟩
    · rw [hstarted] at htrue
      rw [hentries]
      exact hconnect.allowed htrue
    · rw [hentries]
      exact hconnect.denied

/-! ### A whole run -/

section

variable {α β γ : Type} {p : β → Bool}

/-- Where each answer comes with an entry, there are no more answers than entries. -/
theorem length_filterMap_le {f : α → Option γ} {g : α → List β} (l : List α)
    (h : ∀ x ∈ l, (f x).isSome = true → 0 < (g x).countP p) :
    (l.filterMap f).length ≤ (l.flatMap g).countP p := by
  induction l with
  | nil => exact le_rfl
  | cons x l ih =>
    have hrest := ih fun y hy => h y (List.mem_cons_of_mem x hy)
    have hx := h x List.mem_cons_self
    rw [List.flatMap_cons, List.countP_append]
    cases hf : f x with
    | none =>
      rw [List.filterMap_cons_none hf]
      omega
    | some c =>
      rw [List.filterMap_cons_some hf, List.length_cons]
      have hpos := hx (by rw [hf]; rfl)
      omega

/-- Where each element comes with one entry or none, the entries count the elements. -/
theorem countP_flatMap_eq {q : α → Bool} {g : α → List β} (l : List α)
    (h : ∀ x ∈ l, (g x).countP p = if q x then 1 else 0) :
    (l.flatMap g).countP p = l.countP q := by
  induction l with
  | nil => rfl
  | cons x l ih =>
    rw [List.flatMap_cons, List.countP_append, List.countP_cons, h x List.mem_cons_self,
      ih fun y hy => h y (List.mem_cons_of_mem x hy)]
    omega

end

namespace ScanRun

variable (r : ScanRun)

theorem sink_of_mem_calls {c : ValidatedTarget × Probe} (h : c ∈ r.calls) : c.2.env.SinkWorks := by
  unfold calls at h
  split at h
  · obtain ⟨p, hp, rfl⟩ := List.mem_map.mp h
    exact r.sinks p hp
  · cases h

theorem calls_of_refused (h : r.accepted = false) : r.calls = [] := by
  unfold accepted at h
  unfold calls
  split
  · rename_i hok
    rw [hok] at h
    cases h
  · rfl

/-- The denied entries are the denied decisions. -/
theorem countP_isDenied : r.entries.countP isDenied = r.deniedDecisions := by
  have hvalidated := (run_validateTarget r.scope r.sink r.rawTarget).2.2
  unfold entries deniedDecisions
  rw [List.countP_append, validated, hvalidated]
  congr 1
  exact countP_flatMap_eq _ fun c hc => (run_probe (r.sink_of_mem_calls hc)).denied

/-- **Accepted targets are over-counted**: the validation has its own entries. -/
theorem attempted_lt_allowed (h : r.accepted = true) :
    r.attempted.dedup.length < r.entries.countP isAllowed := by
  have hvalidated : 0 < r.validated.2.entries.countP isAllowed :=
    (run_validateTarget r.scope r.sink r.rawTarget).1 h
  have hcalls : r.attempted.length ≤
      (r.calls.flatMap fun c => (c.2.run r.scope c.1).2.entries).countP isAllowed := by
    refine length_filterMap_le _ fun c hc hsome => ?_
    refine (run_probe (r.sink_of_mem_calls hc)).allowed ?_
    unfold Probe.attempted at hsome
    by_contra hnot
    rw [if_neg hnot] at hsome
    cases hsome
  have hdistinct : r.attempted.dedup.length ≤ r.attempted.length :=
    (List.dedup_sublist r.attempted).length_le
  unfold entries
  rw [List.countP_append]
  omega

/-- Of a refused target nothing is attempted and nothing counted. -/
theorem counts_of_refused (h : r.accepted = false) :
    r.attempted.dedup.length = 0 ∧ r.entries.countP isAllowed = 0 := by
  have hnone : r.validated.2.entries.countP isAllowed = 0 :=
    (run_validateTarget r.scope r.sink r.rawTarget).2.1 h
  unfold attempted entries
  rw [r.calls_of_refused h]
  simpa using hnone

end ScanRun

/-- The two numbers that are printed. -/
theorem ledgerLines_counts (ledger : List ScanLedgerRow) :
    (ledgerLines ledger)[2]? = some ("- Destinations allowed and probed: **" ++
        toString ((ledger.map (·.entry)).countP isAllowed) ++ "**") ∧
      (ledgerLines ledger)[3]? = some ("- Destinations denied before any packet: **" ++
        toString ((ledger.map (·.entry)).countP isDenied) ++ "**") := by
  rw [List.countP_map, List.countP_map]
  refine ⟨rfl, ?_⟩
  rw [List.countP_eq_length_filter]
  rfl

/-- A number between two texts is told from the whole. -/
theorem surrounded_inj {before after : String} {m n : ℕ} :
    some (before ++ toString m ++ after) = some (before ++ toString n ++ after) ↔ m = n := by
  constructor
  · intro h
    have hlist := congrArg String.toList (Option.some.inj h)
    simp only [String.toList_append, List.append_left_inj, List.append_right_inj,
      String.toList_inj] at hlist
    exact toString_injective hlist
  · rintro rfl
    rfl

/-- **The probe count.** Whatever the order the entries were written in, the
report prints the truth exactly when the target was refused. -/
theorem printed_iff (r : ScanRun) (ledger : List ScanLedgerRow)
    (h : (ledger.map (·.entry)).Perm r.entries) : PrintsTruth r ledger ↔ r.accepted = false := by
  obtain ⟨hallowed, hdenied⟩ := ledgerLines_counts ledger
  rw [h.countP_eq] at hallowed hdenied
  constructor
  · intro htruth
    have hcount := surrounded_inj.mp (hallowed.symm.trans htruth.probed)
    by_contra haccepted
    have hlt := r.attempted_lt_allowed (eq_true_of_ne_false haccepted)
    omega
  · intro hrefused
    obtain ⟨hattempted, hnone⟩ := r.counts_of_refused hrefused
    refine ⟨?_, ?_⟩
    · rw [hallowed, hattempted, hnone]
    · rw [hdenied, r.countP_isDenied]

/-! ### One host, one probe -/

/-- One address of the scope, and one call that connects. -/
def oneProbe : ScanRun where
  scope := labScope
  rawTarget := labAddress.str
  env := .calm []
  probes := [⟨labAddress, 80, none, .calm []⟩]
  sink _ := rfl
  sinks p hp := by
    rw [List.mem_singleton.mp hp]
    exact fun _ => rfl

theorem printed_oneProbe :
    PrintsTruth oneProbe (oneProbe.entries.map fun entry => ⟨some 0, some 0, entry⟩) ↔
      oneProbe.accepted = false :=
  printed_iff oneProbe _ (by simp [Function.comp_def])

/-- The report of one probe says two. -/
theorem not_printed : ¬ ∀ (r : ScanRun) (ledger : List ScanLedgerRow),
    (ledger.map (·.entry)).Perm r.entries → PrintsTruth r ledger := by
  intro h
  have htruth := h oneProbe (oneProbe.entries.map fun entry => ⟨some 0, some 0, entry⟩)
    (by simp [Function.comp_def])
  have hlines : (ledgerLines (oneProbe.entries.map fun entry =>
      ⟨some 0, some 0, entry⟩))[2]? = some "- Destinations allowed and probed: **2**" := by
    decide +kernel
  have hprobed := htruth.probed
  have hone : oneProbe.attempted.dedup.length = 1 := by decide +kernel
  rw [hlines, hone] at hprobed
  revert hprobed
  decide +kernel

end ScanLedger
