/-
# Egress safety

Every TCP attempt the guard starts is authorised: `connect` checks the address
it is given again, so neither the caller nor the resolver has a say in where a
packet goes. The calls of one guard run as a pool, in any interleaving; what
the resolver, the ledger sink, the governor and the sockets answer is chosen
anew at each step.

Key definitions: `Authorised`, `Request.prog`.
Key theorems: `authorised_of_checks`, `egress_safe`.
-/
import ScanLedger.Validation

namespace ScanLedger

open Prog

/-- What the guard promises of the destination of an attempt. -/
structure Authorised (scope : ScopeProfile) (target : ValidatedTarget) (a : IPAddress)
    (port : ℤ) : Prop where
  port_pos : 1 ≤ port
  port_le : port ≤ 65535
  covered : target.covers a = true
  inScope : ∃ n ∈ scope.networks, n.contains a = true
  inRange : (∃ n ∈ baseAllowedRanges, n.contains a = true) ∨
    (scope.allowCgnat = true ∧ cgnatRange.contains a = true) ∨
    (scope.allowLinkLocal = true ∧ ∃ n ∈ linkLocalRanges, n.contains a = true)
  notDenied : NotDenied a

/-! ### Scopes -/

/-- The networks of a profile lie in the ranges its opt-ins allow. -/
theorem ScopeProfile.networkWithinAllowed {scope : ScopeProfile} {n : IPNetwork}
    (h : n ∈ scope.networks) : networkWithinAllowed n
      (allowedRangesFor scope.allowCgnat scope.allowLinkLocal) = true := by
  obtain ⟨m, -, rfl⟩ := List.mem_map.mp h
  exact m.within

theorem ScopeProfile.inRange {scope : ScopeProfile} {n : IPNetwork} {a : IPAddress}
    (hn : n ∈ scope.networks) (ha : n.contains a = true) :
    (∃ n ∈ baseAllowedRanges, n.contains a = true) ∨
      (scope.allowCgnat = true ∧ cgnatRange.contains a = true) ∨
      (scope.allowLinkLocal = true ∧ ∃ n ∈ linkLocalRanges, n.contains a = true) := by
  obtain ⟨m, hm, hma⟩ := exists_of_networkWithinAllowed (networkWithinAllowed hn) ha
  rcases mem_allowedRangesFor hm with hb | ⟨hc, rfl⟩ | ⟨hl, hm⟩
  · exact Or.inl ⟨m, hb, hma⟩
  · exact Or.inr (Or.inl ⟨hc, hma⟩)
  · exact Or.inr (Or.inr ⟨hl, m, hm, hma⟩)

theorem addressDenial_eq_none {scope : ScopeProfile} {a : IPAddress}
    (h : addressDenial scope a = none) :
    isAlwaysDenied a = none ∧ scope.containsAddress a = true := by
  unfold addressDenial at h
  cases hd : isAlwaysDenied a with
  | some reason => simp [hd] at h
  | none =>
    refine ⟨rfl, ?_⟩
    by_contra hc
    simp [hd, hc] at h

theorem authorised_of_checks {scope : ScopeProfile} {target : ValidatedTarget} {a : IPAddress}
    {port : ℤ} (hp : 0 < port ∧ port ≤ 65535) (hc : target.covers a = true)
    (hd : addressDenial scope a = none) : Authorised scope target a port := by
  obtain ⟨halways, hscope⟩ := addressDenial_eq_none hd
  obtain ⟨n, hn, ha⟩ := List.any_eq_true.mp hscope
  exact ⟨hp.1, hp.2, hc, ⟨n, hn, ha⟩, ScopeProfile.inRange hn ha,
    notDenied_of_isAlwaysDenied halways⟩

/-! ### The programs -/

/-- The operation starts no attempt but an authorised one. -/
def Permitted (scope : ScopeProfile) (target : ValidatedTarget) (o : Op) : Prop :=
  ∀ a port, o = .sockConnect a port → Authorised scope target a port

/-- The start of an attempt. -/
def Op.isAttempt : Op → Bool
  | .sockConnect _ _ => true
  | _ => false

theorem permitted_of_not_attempt {scope : ScopeProfile} {target : ValidatedTarget} (o : Op)
    (h : o.isAttempt = false) : Permitted scope target o := by
  rintro a port rfl
  cases h

section

variable {scope : ScopeProfile} {target : ValidatedTarget} {P : Op → Prop}

theorem always_quiet (hP : ∀ o : Op, o.isAttempt = false → P o) (o : Op)
    (h : o.isAttempt = false := by rfl) : (call o).Always P fun _ => True :=
  Always.perform (hP o h)

theorem validates_of_quiet (hP : ∀ o : Op, o.isAttempt = false → P o) :
    Validates (anyAnswer P) fun _ => True :=
  ⟨fun _ => hP _ rfl, fun _ => hP _ rfl, fun _ _ => trivial, fun _ _ _ => trivial,
    fun _ _ _ _ => trivial⟩

theorem always_connectChecks (hP : ∀ o : Op, o.isAttempt = false → P o) (a : IPAddress) (port : ℤ) :
    (connectChecks scope target a port).Always P fun _ => Authorised scope target a port := by
  unfold connectChecks
  by_cases hp : 0 < port ∧ port ≤ 65535
  · rw [if_neg (not_not.mpr hp)]
    by_cases hc : target.covers a = true
    · rw [if_neg (not_not.mpr hc)]
      have hdeny : (denyIf a.str (some port) (addressDenial scope a)).Always P
          fun _ => addressDenial scope a = none := obeys_denyIf (validates_of_quiet hP) _ _ _
      exact hdeny.mono fun _ hd => authorised_of_checks hp hc hd
    · rw [if_pos hc]
      exact obeys_deny (validates_of_quiet hP) _ _ _
  · rw [if_pos hp]
    exact .raise _

theorem always_connectFailed {α : Type} {Q : α → Prop}
    (hP : ∀ o : Op, o.isAttempt = false → P o) (a : IPAddress) (port : ℤ) (sock : Bool)
    (x : Exn) :
    (connectFailed a port sock x : Guard α).Always P Q := by
  unfold connectFailed
  have hclose : (closeIf sock).Always P fun _ => True := by
    cases sock
    · exact .ret trivial
    · exact always_quiet hP .close
  exact hclose.bind fun _ _ => (always_quiet hP (.reportError _)).bind fun _ _ =>
    (always_quiet hP (.record _)).bind fun _ _ => .raise _

theorem always_attempt (hP : ∀ o : Op, o.isAttempt = false → P o) (a : IPAddress) (port : ℤ)
    (h : P (.sockConnect a port)) : (attempt a port).Always P fun _ => True := by
  refine (always_quiet hP .setActive).bind fun token _ => Always.tryFinally ?_
    (always_quiet hP (.resetActive token))
  refine (Always.tryCatch (always_quiet hP (.socket a.version)) fun x =>
    always_connectFailed hP a port false x).bind fun _ _ => ?_
  exact Always.tryCatch ((Always.perform h).bind fun _ _ => always_quiet hP .connected) fun x =>
    always_connectFailed hP a port true x

theorem always_connect (a : IPAddress) (port : ℤ) :
    (connect scope target a port).Always (Permitted scope target) fun _ => True := by
  have hP : ∀ o : Op, o.isAttempt = false → Permitted scope target o := permitted_of_not_attempt
  refine (always_connectChecks hP a port).bind fun _ hauth => ?_
  have hattempt := always_attempt hP a port (fun a' port' h => by cases h; exact hauth)
  have hslot : (withSlot a.str (attempt a port)).Always (Permitted scope target) fun _ => True :=
    (always_quiet hP (.slot a.str)).bind fun _ _ =>
      hattempt.tryFinally (always_quiet hP (.release a.str))
  exact hslot.bind fun _ _ => (always_quiet hP (.reportSuccess a.str)).bind fun _ _ =>
    always_quiet hP (.record _)

theorem always_openStream (a : IPAddress) (port : ℤ) (useTls : Bool) :
    (openStream scope target a port useTls).Always (Permitted scope target) fun _ => True := by
  have hP : ∀ o : Op, o.isAttempt = false → Permitted scope target o := permitted_of_not_attempt
  refine (always_connect a port).bind fun _ _ => ?_
  refine (always_quiet hP .setActive).bind fun token _ => Always.tryFinally ?_
    (always_quiet hP (.resetActive token))
  exact Always.tryCatch (always_quiet hP (.openConnection _)) fun x =>
    (always_quiet hP .close).bind fun _ _ => .raise _

end

/-! ### All calls of a guard -/

/-- A call made on the guard. -/
inductive Request
  | validateTarget (rawTarget : String)
  | connect (target : ValidatedTarget) (a : IPAddress) (port : ℤ)
  | openStream (target : ValidatedTarget) (a : IPAddress) (port : ℤ) (useTls : Bool)
  deriving DecidableEq

/-- The target the caller passed in. -/
def Request.target : Request → Option ValidatedTarget
  | .validateTarget _ => none
  | .connect target _ _ => some target
  | .openStream target _ _ _ => some target

def Request.prog (scope : ScopeProfile) : Request → Guard Unit
  | .validateTarget rawTarget => do
    let _ : ValidatedTarget ← ScanLedger.validateTarget scope rawTarget
    return ()
  | .connect target a port => ScanLedger.connect scope target a port
  | .openStream target a port useTls => ScanLedger.openStream scope target a port useTls

/-- An attempt of a request goes where its own target lets it go. -/
def Request.Permits (scope : ScopeProfile) (request : Request) (o : Op) : Prop :=
  ∀ a port, o = .sockConnect a port →
    ∃ target, request.target = some target ∧ Authorised scope target a port

theorem Request.always_prog (scope : ScopeProfile) (request : Request) :
    (request.prog scope).Always (request.Permits scope) fun _ => True := by
  cases request with
  | validateTarget rawTarget =>
    have hquiet : ∀ o : Op, o.isAttempt = false →
        (Request.validateTarget rawTarget).Permits scope o := by
      rintro o h a port rfl
      cases h
    exact Obeys.bind (obeys_validateTarget scope (validates_of_quiet hquiet) rawTarget)
      fun _ _ _ => .ret trivial
  | connect target a port =>
    have hconnect : (ScanLedger.connect scope target a port).Always (Permitted scope target)
        fun _ => True := always_connect a port
    exact hconnect.imp fun o ho a port h => ⟨target, rfl, ho a port h⟩
  | openStream target a port useTls =>
    have hstream : (ScanLedger.openStream scope target a port useTls).Always
        (Permitted scope target) fun _ => True := always_openStream a port useTls
    exact hstream.imp fun o ho a port h => ⟨target, rfl, ho a port h⟩

/-- **Egress safety.** In every run of a guard's calls, whatever the resolver
and everything else answers, each TCP attempt goes to an authorised
destination, covered by the target its caller passed in. -/
theorem egress_safe (scope : ScopeProfile) (ls : List (PoolAct Exn Op Op.Answer Request)) :
    ∀ e ∈ Run.emitted (poolStep (Request.prog scope)) served [] ls,
      ∀ a port, e.2 = .sockConnect a port →
        ∃ target, e.1.target = some target ∧ Authorised scope target a port :=
  fun e he => pool_emitted (Request.prog scope) (Request.always_prog scope) ls e he

/-- A call up to the start of its attempt: slot, variable, socket, attempt. -/
def labConnect : List (PoolAct Exn Op Op.Answer Request) :=
  .start (.connect labTarget labAddress 80) ::
    List.replicate 4 (.serve 0 fun o => (handle (.calm []) (.new false) o).1)

theorem egress_safe_lab : ∃ target,
    (Request.connect labTarget labAddress 80).target = some target ∧
      Authorised labScope target labAddress 80 :=
  egress_safe labScope labConnect (.connect labTarget labAddress 80, .sockConnect labAddress 80)
    (by decide +kernel) labAddress 80 rfl

end ScanLedger
