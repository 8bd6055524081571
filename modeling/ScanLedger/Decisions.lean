/-
# Decisions and the ledger

What `validate_target` returns is in the ledger, an entry for the network or
one for each address, and a denial that goes through `_deny` leaves its one
entry. The refusals that are raised without it leave none: an empty target, a
text that is no CIDR, a name that does not resolve, a port out of range
(`decisions_logged_iff`).

Key definitions: `ValidateLogged`, `ConnectLogged`, `Classifies`.
Key theorems: `run_validateNetwork`, `run_validateAddresses`,
`decisions_logged_iff`.
-/
import ScanLedger.Connect

namespace ScanLedger

open Prog

variable {scope : ScopeProfile} {env : Env} {c : Call}

/-! ### Refusals -/

def Call.appended (c : Call) (entries : List LedgerEntry) : Call :=
  { c with entries := c.entries ++ entries }

/-- The run ends in `TargetRejected`, with one `denied` entry. -/
def Refused {α : Type} (c : Call) (r : Except Exn α × Call) : Prop :=
  ∃ target reason e, e.decision = .denied ∧
    r = (.error (.targetRejected target reason), c.appended [e])

/-- The ledger sink does not fail. -/
def Env.SinkWorks (env : Env) : Prop := ∀ e, env.write e = .done

theorem wrote_of_sinkWorks (h : env.SinkWorks) (c : Call) (e : LedgerEntry) :
    c.wrote env e = c.appended [e] := by
  simp [Call.wrote, Call.appended, h e, Write.stores]

theorem run_record (h : env.SinkWorks) (c : Call) (e : LedgerEntry) :
    (call (.record e)).run (handle env) c = (.ok (), c.appended [e]) := by
  rw [call, run_perform, handle, wrote_of_sinkWorks h, h e]
  rfl

theorem run_deny {α : Type} (h : env.SinkWorks) (destination : String) (port : Option ℤ)
    (reason : String) :
    Refused c ((deny destination port reason : Guard α).run (handle env) c) := by
  refine ⟨destination, reason, deniedEntry destination port reason, rfl, ?_⟩
  unfold deny
  rw [bind_eq, run_bind, run_record h]
  rfl

theorem run_denyIf (h : env.SinkWorks) (destination : String) (port : Option ℤ)
    (problem : Option String) :
    Refused c ((denyIf destination port problem).run (handle env) c) ∨
      (denyIf destination port problem).run (handle env) c = (.ok (), c) := by
  cases problem with
  | some reason => exact Or.inl (run_deny h destination port reason)
  | none => exact Or.inr rfl

/-- What follows a refusal is not run. -/
theorem Refused.bind {α β : Type} {p : Guard α} (f : α → Guard β)
    (h : Refused c (p.run (handle env) c)) : Refused c ((p.bind f).run (handle env) c) := by
  obtain ⟨target, reason, e, he, hr⟩ := h
  refine ⟨target, reason, e, he, ?_⟩
  rw [run_bind, hr]

theorem run_bind_of_ok {α β : Type} {p : Guard α} (f : α → Guard β) {a : α} {c' : Call}
    (h : p.run (handle env) c = (.ok a, c')) :
    (p.bind f).run (handle env) c = (f a).run (handle env) c' := by
  rw [run_bind, h]

/-! ### Validation -/

theorem run_validateNetwork (scope : ScopeProfile) (h : env.SinkWorks) (n : IPNetwork) :
    Refused c ((validateNetwork scope n).run (handle env) c) ∨
      (validateNetwork scope n).run (handle env) c =
        (.ok (), c.appended [allowedEntry n.str none "validated"]) := by
  unfold validateNetwork
  rcases run_denyIf (c := c) h n.str none (checkPrefixBreadth n) with hd | hd
  · exact Or.inl (hd.bind _)
  · rw [bind_eq, run_bind_of_ok _ hd]
    rcases run_denyIf (c := c) h n.str none (networkDenial scope n) with hd | hd
    · exact Or.inl (hd.bind _)
    · rw [bind_eq, run_bind_of_ok _ hd]
      exact Or.inr (run_record h c _)

theorem run_refuseAny (scope : ScopeProfile) (h : env.SinkWorks) (rawTarget : String) :
    ∀ addresses : List IPAddress,
    Refused c ((refuseAny scope rawTarget addresses).run (handle env) c) ∨
      (refuseAny scope rawTarget addresses).run (handle env) c = (.ok (), c)
  | [] => Or.inr rfl
  | a :: rest => by
    unfold refuseAny
    rcases run_denyIf (c := c) h a.str none ((addressDenial scope a).map fun denial =>
      denial ++ " (from target " ++ rawTarget ++ ")") with hd | hd
    · exact Or.inl (hd.bind _)
    · rw [bind_eq, run_bind_of_ok _ hd]
      exact run_refuseAny scope h rawTarget rest

theorem run_recordAll (h : env.SinkWorks) : ∀ (addresses : List IPAddress) (c : Call),
    (recordAll addresses).run (handle env) c =
      (.ok (), c.appended (addresses.map fun a => allowedEntry a.str none "validated"))
  | [], c => by simp [recordAll, Call.appended]
  | a :: rest, c => by
    unfold recordAll
    rw [bind_eq, run_bind_of_ok _ (run_record h c _), run_recordAll h rest]
    simp [Call.appended]

theorem run_validateAddresses (scope : ScopeProfile) (h : env.SinkWorks) (rawTarget : String)
    {addresses : List IPAddress} (hne : addresses ≠ []) :
    Refused c ((validateAddresses scope rawTarget addresses).run (handle env) c) ∨
      (validateAddresses scope rawTarget addresses).run (handle env) c =
        (.ok (), c.appended (addresses.map fun a => allowedEntry a.str none "validated")) := by
  unfold validateAddresses
  rw [if_neg (by simpa using hne)]
  rcases run_refuseAny scope (c := c) h rawTarget addresses with hd | hd
  · exact Or.inl (hd.bind _)
  · rw [bind_eq, run_bind_of_ok _ hd]
    exact Or.inr (run_recordAll h addresses c)

/-! ### What is logged -/

/-- One `denied` entry and nothing else. -/
def OneDenied (entries : List LedgerEntry) : Prop := ∃ e, entries = [e] ∧ e.decision = .denied

/-- What a `validate_target` call should have appended by its end. -/
def ValidateLogged (r : Except Exn ValidatedTarget × Call) : Prop :=
  match r.1 with
  | .ok t => r.2.entries = match t.network with
    | some n => [allowedEntry n.str none "validated"]
    | none => t.addresses.map fun a => allowedEntry a.str none "validated"
  | .error (.targetRejected _ _) => OneDenied r.2.entries
  | .error _ => True

/-- What a `connect` call that ends in `TargetRejected` should have appended. -/
def ConnectLogged (r : Except Exn Unit × Call) : Prop :=
  match r.1 with
  | .error (.targetRejected _ _) => OneDenied r.2.entries
  | _ => True

/-- The resolver finds an address, or fails in a way that is not caught. -/
def Resolves : Except ResolveError (List IPAddress) → Prop
  | .ok addresses => addresses ≠ []
  | .error (.resolution _) => False
  | .error (.failure _) => True

/-- The text of the target is a network, an address or a name with addresses. -/
def Classifies (env : Env) (rawTarget : String) : Prop :=
  let text := strip rawTarget
  text.isEmpty = false ∧
    if '/' ∈ text.toList then (ipNetwork text).isSome = true
    else (ipAddress text).isSome = true ∨ Resolves (env.resolve text)

theorem Refused.oneDenied {α : Type} {r : Except Exn α × Call} {active : Bool}
    (h : Refused (.new active) r) :
    (∃ target reason, r.1 = .error (.targetRejected target reason)) ∧ OneDenied r.2.entries := by
  obtain ⟨target, reason, e, he, rfl⟩ := h
  exact ⟨⟨target, reason, rfl⟩, e, rfl, he⟩

theorem not_oneDenied_nil : ¬ OneDenied [] := by
  rintro ⟨e, he, -⟩
  cases he

/-- Classification writes nothing. It finds something to validate, or is
refused without an entry, or ends in an exception of the resolver. -/
theorem run_classify (env : Env) (c : Call) (rawTarget : String) :
    ∃ r, (classify rawTarget).run (handle env) c = (r, c) ∧ match r with
      | .ok (_, addresses, networkCandidate) =>
        Classifies env rawTarget ↔ (networkCandidate = none → addresses ≠ [])
      | .error (.targetRejected _ _) => ¬ Classifies env rawTarget
      | .error _ => Classifies env rawTarget := by
  unfold classify Classifies
  dsimp only
  by_cases hempty : (strip rawTarget).isEmpty = true
  · rw [if_pos hempty]
    exact ⟨_, rfl, by simp [hempty]⟩
  · rw [if_neg hempty]
    rw [Bool.not_eq_true] at hempty
    by_cases hslash : '/' ∈ (strip rawTarget).toList
    · simp only [if_pos hslash, hempty, true_and]
      cases hn : ipNetwork (strip rawTarget) with
      | some n => exact ⟨_, rfl, by simp⟩
      | none => exact ⟨_, rfl, by simp⟩
    · simp only [if_neg hslash, hempty, true_and]
      cases ha : ipAddress (strip rawTarget) with
      | some a => exact ⟨_, rfl, by simp⟩
      | none =>
        -- a name: what the resolver answers decides
        rw [run_tryCatch, bind_eq, run_bind, call, run_perform, handle]
        rcases env.resolve (strip rawTarget) with (problem | f) | addresses
        · exact ⟨_, rfl, by simp [Resolves]⟩
        · exact ⟨_, rfl, by simp [Resolves, ResolveError.exn]⟩
        · exact ⟨_, rfl, by simp [Resolves]⟩

/-- **The ledger holds every decision** of a `validate_target` call exactly
when its text classifies. -/
theorem validateLogged_iff (scope : ScopeProfile) (h : env.SinkWorks) (rawTarget : String)
    (active : Bool) :
    ValidateLogged ((validateTarget scope rawTarget).run (handle env) (.new active)) ↔
      Classifies env rawTarget := by
  obtain ⟨r, hr, hc⟩ := run_classify env (.new active) rawTarget
  unfold validateTarget
  rw [bind_eq, run_bind, hr]
  cases r with
  | error x =>
    cases x with
    | targetRejected target reason =>
      exact ⟨fun hl => absurd hl not_oneDenied_nil, fun h => absurd h hc⟩
    | resolution text => exact ⟨fun _ => hc, fun _ => trivial⟩
    | budgetExceeded e => exact ⟨fun _ => hc, fun _ => trivial⟩
    | moduleError code message => exact ⟨fun _ => hc, fun _ => trivial⟩
    | governorConfig e => exact ⟨fun _ => hc, fun _ => trivial⟩
    | failure f => exact ⟨fun _ => hc, fun _ => trivial⟩
  | ok found =>
    obtain ⟨kind, addresses, networkCandidate⟩ := found
    simp only at hc ⊢
    rw [hc]
    cases networkCandidate with
    | some n =>
      refine iff_of_true ?_ (by simp)
      rcases run_validateNetwork scope (c := .new active) h n with hd | hd
      · obtain ⟨⟨target, reason, hx⟩, hone⟩ := (hd.bind fun _ => ret
          (⟨rawTarget, kind, [], some n⟩ : ValidatedTarget)).oneDenied
        simp only [bind_eq, pure_eq, ValidateLogged, hx]
        exact hone
      · simp only [bind_eq, pure_eq, run_bind_of_ok _ hd, run_ret]
        rfl
    | none =>
      by_cases hne : addresses = []
      · subst hne
        refine iff_of_false (fun hl => not_oneDenied_nil hl) (by simp)
      · refine iff_of_true ?_ (fun _ => hne)
        rcases run_validateAddresses scope (c := .new active) h rawTarget hne
          with hd | hd
        · obtain ⟨⟨target, reason, hx⟩, hone⟩ := (hd.bind fun _ => ret
            (⟨rawTarget, kind, addresses, none⟩ : ValidatedTarget)).oneDenied
          simp only [bind_eq, pure_eq, ValidateLogged, hx]
          exact hone
        · simp only [bind_eq, pure_eq, run_bind_of_ok _ hd, run_ret]
          rfl

/-- A call whose port is in range logs its refusals; past its checks it is not
refused any more. -/
theorem connectLogged_iff (scope : ScopeProfile) (h : env.SinkWorks) (target : ValidatedTarget)
    (a : IPAddress) (port : ℤ) (active : Bool) :
    ConnectLogged ((connect scope target a port).run (handle env) (.new active)) ↔
      1 ≤ port ∧ port ≤ 65535 := by
  by_cases hport : 0 < port ∧ port ≤ 65535
  · refine iff_of_true ?_ hport
    have hrefused : ∀ {r : Except Exn Unit × Call}, Refused (.new active) r →
        ConnectLogged r := by
      intro r hr
      obtain ⟨⟨target, reason, hx⟩, hone⟩ := hr.oneDenied
      simp only [ConnectLogged, hx]
      exact hone
    by_cases hcover : target.covers a = true
    · cases hd : addressDenial scope a with
      | some denial =>
        refine hrefused ?_
        unfold connect connectChecks
        rw [if_neg (not_not.mpr hport), if_neg (not_not.mpr hcover), hd]
        exact (run_deny h _ _ _).bind _
      | none =>
        have hpass : PassesChecks scope target a port := ⟨hport, hcover, hd⟩
        cases hslot : env.slot with
        | error e =>
          unfold connect withSlot
          rw [run_connectChecks hpass]
          cases e <;>
            simp [run_bind, call, perform, run_op, handle, hslot, ConnectLogged, SlotError.exn]
        | ok u =>
          rw [run_connect hpass env hslot active]
          cases env.fault with
          | none =>
            simp [ConnectLogged, h _, Write.result]
          | some fault =>
            simp [ConnectLogged, h _, Write.result, Env.raised]
    · refine hrefused ?_
      unfold connect connectChecks
      rw [if_neg (not_not.mpr hport), if_pos hcover]
      exact (run_deny h _ _ _).bind _
  · refine iff_of_false (fun hl => not_oneDenied_nil ?_) hport
    unfold connect connectChecks at hl
    rw [if_pos hport] at hl
    exact hl

/-- **Every decision is in the ledger** exactly when the target's text
classifies, for `validate_target`, and when the port is in range, for
`connect`. -/
theorem decisions_logged_iff (scope : ScopeProfile) (h : env.SinkWorks) (rawTarget : String)
    (target : ValidatedTarget) (a : IPAddress) (port : ℤ) (active : Bool) :
    (ValidateLogged ((validateTarget scope rawTarget).run (handle env) (.new active)) ↔
        Classifies env rawTarget) ∧
      (ConnectLogged ((connect scope target a port).run (handle env) (.new active)) ↔
        1 ≤ port ∧ port ≤ 65535) :=
  ⟨validateLogged_iff scope h rawTarget active, connectLogged_iff scope h target a port active⟩

theorem decisions_logged_lab :
    (ValidateLogged ((validateTarget labScope "8.8.8.8").run (handle (.calm [])) (.new false)) ↔
        Classifies (.calm []) "8.8.8.8") ∧
      (ConnectLogged ((connect labScope labTarget labAddress 0).run (handle (.calm []))
        (.new false)) ↔ (1 : ℤ) ≤ 0 ∧ (0 : ℤ) ≤ 65535) :=
  decisions_logged_iff labScope (fun _ => rfl) "8.8.8.8" labTarget labAddress 0 false

/-- A blank target and a port of zero are refused, and the ledger has neither. -/
theorem not_decisions_logged : ¬ ∀ (scope : ScopeProfile) (env : Env) (rawTarget : String)
    (target : ValidatedTarget) (a : IPAddress) (port : ℤ) (active : Bool), env.SinkWorks →
      ValidateLogged ((validateTarget scope rawTarget).run (handle env) (.new active)) ∧
        ConnectLogged ((connect scope target a port).run (handle env) (.new active)) := by
  intro h
  obtain ⟨hv, -⟩ := h labScope (.calm []) "   " labTarget labAddress 0 false fun _ => rfl
  have hblank : (strip "   ").isEmpty = true := by decide +kernel
  have hc := (validateLogged_iff labScope (fun _ => rfl) "   " false).mp hv
  have hne : (strip "   ").isEmpty = false := hc.1
  rw [hblank] at hne
  cases hne

end ScanLedger
