/-
# How a connect call ends

A `connect` call that got its slot should be all or nothing: an open socket
and its `connected` entry, or an exception, a closed socket and, once the
attempt was started, an entry for it. The slot and `NETWORK_GUARD_ACTIVE` are
restored in every case. The success path writes its entry outside the `try`: an
exception of that write, a cancel among them, leaks the open socket, with or
without its entry. On the failure path a write that stores nothing leaves a
started attempt without an entry. In every other case the call is all or
nothing (`connect_allOrNothing_iff`).

Key definitions: `AllOrNothing`, `AttemptRecorded`.
Key theorems: `run_attempt`, `connect_allOrNothing_iff`.
-/
import ScanLedger.Egress

namespace ScanLedger

open Prog

variable {scope : ScopeProfile} {target : ValidatedTarget} {a : IPAddress} {port : ℤ}

/-! ### What the parts of a call do -/

/-- The checks of `connect`, passed. -/
structure PassesChecks (scope : ScopeProfile) (target : ValidatedTarget) (a : IPAddress)
    (port : ℤ) : Prop where
  port : 0 < port ∧ port ≤ 65535
  covered : target.covers a = true
  allowed : addressDenial scope a = none

theorem run_connectChecks (h : PassesChecks scope target a port) :
    connectChecks scope target a port = ret () := by
  unfold connectChecks
  rw [if_neg (not_not.mpr h.port), if_neg (not_not.mpr h.covered), h.allowed]
  rfl

/-- The entry of a failed attempt. -/
def failedEntry (a : IPAddress) (port : ℤ) : LedgerEntry :=
  allowedEntry a.str (some port) "connect_failed"

def connectedEntry (a : IPAddress) (port : ℤ) : LedgerEntry :=
  allowedEntry a.str (some port) "connected"

/-- The exception a failure path ends in: the write's own, or else the one it
was entered with. -/
def Env.raised (env : Env) (a : IPAddress) (port : ℤ) (x : Exn) : Exn :=
  match (env.write (failedEntry a port)).result with
  | .ok () => x
  | .error y => y

/-- The failure path closes the socket, writes, and raises. -/
theorem run_connectFailed (env : Env) (c : Call) (sock : Bool) (x : Exn) :
    (connectFailed a port sock x : Guard Unit).run (handle env) c = (.error (env.raised a port x),
      { c with sock := if sock then .closed else c.sock }.wrote env (failedEntry a port)) := by
  unfold connectFailed closeIf Env.raised
  rw [← failedEntry]
  cases hw : (env.write (failedEntry a port)).result <;> cases sock <;>
    simp [run_bind, call, perform, run_op, hw, handle]

/-- Where an attempt goes wrong: the exception, and whether there is a socket
and the attempt was started by then. -/
def Env.fault (env : Env) : Option (Failure × Bool × Bool) :=
  match env.socket, env.sockConnect, env.connected with
  | .error f, _, _ => some (f, false, false)
  | .ok (), .error f, _ => some (f, true, false)
  | .ok (), .ok (), .error f => some (f, true, true)
  | .ok (), .ok (), .ok () => none

/-- The slot's body, from a call without a socket. -/
theorem run_attempt (a : IPAddress) (port : ℤ) (env : Env) (c : Call)
    (hs : c.sock = .unset) (hc : c.started = false) :
    (attempt a port).run (handle env) c = match env.fault with
      | none => (.ok (), { c with sock := .opened, started := true })
      | some (f, sock, started) => (.error (env.raised a port (.failure f)),
          { c with sock := if sock then .closed else .unset, started := started }.wrote env
            (failedEntry a port)) := by
  unfold attempt Env.fault
  rcases h1 : env.socket with f | _ <;> rcases h2 : env.sockConnect with f | _ <;>
    rcases h3 : env.connected with f | _ <;>
    simp [run_bind, run_tryCatch, run_tryFinally, call, perform, run_op, run_connectFailed, handle,
      h1, h2, h3, hs, hc, Except.mapError, Call.wrote]

/-- A whole call, past its checks and with a slot. -/
theorem run_connect (h : PassesChecks scope target a port) (env : Env) (hslot : env.slot = .ok ())
    (active : Bool) :
    (connect scope target a port).run (handle env) (.new active) = match env.fault with
      | none => ((env.write (connectedEntry a port)).result,
          (⟨[], .opened, true, false, active⟩ : Call).wrote env (connectedEntry a port))
      | some (f, sock, started) => (.error (env.raised a port (.failure f)),
          (⟨[], if sock then .closed else .unset, started, false, active⟩ : Call).wrote env
            (failedEntry a port)) := by
  unfold connect withSlot
  rw [run_connectChecks h, ← connectedEntry]
  have hattempt := run_attempt a port env ⟨[], .unset, false, true, active⟩ rfl rfl
  cases hf : env.fault with
  | none =>
    simp only [hf] at hattempt
    cases hw : (env.write (connectedEntry a port)).result <;>
      simp [Call.new, run_bind, run_tryFinally, call, perform, run_op, handle, hslot, hattempt, hw]
  | some fault =>
    simp only [hf] at hattempt
    simp [Call.new, run_bind, run_tryFinally, call, perform, run_op, handle, hslot, hattempt,
      Call.wrote]

/-! ### All or nothing -/

/-- An entry that the address and port were allowed. -/
def allowedAt (a : IPAddress) (port : ℤ) (e : LedgerEntry) : Bool :=
  e.decision == .allowed && e.destination == a.str && e.port == some port

/-- How a call should end, from its result and what it left behind. -/
structure AllOrNothing (a : IPAddress) (port : ℤ) (active : Bool)
    (r : Except Exn Unit × Call) : Prop where
  outcome : (r.1 = .ok () ∧ r.2.sock = .opened ∧
      r.2.entries.filter (allowedAt a port) = [connectedEntry a port]) ∨
    ((∃ x, r.1 = .error x) ∧ r.2.sock ≠ .opened ∧
      (r.2.started = true → (r.2.entries.filter (allowedAt a port)).length = 1))
  released : r.2.inSlot = false
  restored : r.2.active = active

/-- What happened is written: nothing was started, or the entry of a failed
attempt was stored, or the write of a successful one returned. -/
def AttemptRecorded (env : Env) (a : IPAddress) (port : ℤ) : Prop :=
  match env.fault with
  | none => env.write (connectedEntry a port) = .done
  | some (_, _, started) => started = true → (env.write (failedEntry a port)).stores = true

@[simp] theorem allowedAt_allowedEntry (outcome : String) :
    allowedAt a port (allowedEntry a.str (some port) outcome) = true := by
  simp [allowedAt, allowedEntry]

@[simp] theorem allowedAt_connectedEntry : allowedAt a port (connectedEntry a port) = true :=
  allowedAt_allowedEntry "connected"

@[simp] theorem allowedAt_failedEntry : allowedAt a port (failedEntry a port) = true :=
  allowedAt_allowedEntry "connect_failed"

theorem Write.result_eq_ok {w : Write} : w.result = .ok () ↔ w = .done := by
  cases w <;> simp [Write.result]

/-- **All or nothing.** A call that passed its checks and got a slot ends as it
should exactly when what happened is written. -/
theorem connect_allOrNothing_iff (h : PassesChecks scope target a port) (env : Env)
    (hslot : env.slot = .ok ()) (active : Bool) :
    AllOrNothing a port active ((connect scope target a port).run (handle env) (.new active)) ↔
      AttemptRecorded env a port := by
  rw [run_connect h env hslot active]
  unfold AttemptRecorded
  cases hf : env.fault with
  | none =>
    dsimp only
    constructor
    · rintro ⟨⟨hok, -⟩ | ⟨-, hsock, -⟩, -, -⟩
      · exact Write.result_eq_ok.mp hok
      · exact absurd rfl hsock
    · intro hw
      refine ⟨Or.inl ⟨Write.result_eq_ok.mpr hw, rfl, ?_⟩, rfl, rfl⟩
      have hstored : (env.write (connectedEntry a port)).stores = true := by rw [hw]; rfl
      simp [Call.wrote, hstored]
  | some fault =>
    obtain ⟨f, sock, started⟩ := fault
    dsimp only
    have hsock : (if sock = true then Sock.closed else .unset) ≠ .opened := by
      cases sock <;> simp
    constructor
    · rintro ⟨⟨hok, -⟩ | ⟨-, -, hone⟩, -, -⟩ hs
      · cases hok
      · have hlen := hone hs
        by_contra hw
        simp [Call.wrote, hw] at hlen
    · intro hw
      refine ⟨Or.inr ⟨⟨_, rfl⟩, hsock, fun hs => ?_⟩, rfl, rfl⟩
      have hstored := hw hs
      simp [Call.wrote, hstored]

/-! ### A lab host -/

theorem labPassesChecks : PassesChecks labScope labTarget labAddress 80 :=
  ⟨by decide, by decide +kernel, by decide +kernel⟩

/-- The connection is made, and the call is cancelled in the write of its
entry, before anything is stored. -/
def cancelledWrite : Env := { Env.calm [] with write := fun _ => .raised false .cancelled }

theorem connect_allOrNothing_lab : AllOrNothing labAddress 80 false
    ((connect labScope labTarget labAddress 80).run (handle (.calm [])) (.new false)) :=
  (connect_allOrNothing_iff labPassesChecks (.calm []) rfl false).mpr rfl

/-- Not every call is all or nothing. -/
theorem not_connect_allOrNothing : ¬ ∀ (scope : ScopeProfile) (target : ValidatedTarget)
    (a : IPAddress) (port : ℤ) (env : Env) (active : Bool), PassesChecks scope target a port →
      env.slot = .ok () → AllOrNothing a port active
        ((connect scope target a port).run (handle env) (.new active)) := by
  intro h
  have hlab := h labScope labTarget labAddress 80 cancelledWrite false labPassesChecks rfl
  rw [run_connect labPassesChecks cancelledWrite rfl] at hlab
  rcases hlab.outcome with ⟨hok, -⟩ | ⟨-, hsock, -⟩
  · cases hok
  · exact hsock rfl

end ScanLedger
