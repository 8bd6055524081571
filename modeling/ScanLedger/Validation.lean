/-
# Validation

What `validate_target` may do, whatever it deals with: it resolves names and
writes ledger entries, and it raises nothing of its own but `TargetRejected`.
What the resolver or the sink raises goes through, but for `ResolutionError`,
which becomes a refusal. What it returns has passed its checks.

Key definitions: `Validates`, `ValidatedTarget.Valid`.
Key theorems: `obeys_denyIf`, `obeys_validateTarget`.
-/
import ScanLedger.ScanGuard

namespace ScanLedger

open Prog

/-- The protocol lets a program resolve names and write entries, and what it
may raise by that, or by a refusal, is in `E`. -/
structure Validates (K : Protocol Exn Op Op.Answer Unit) (E : Exn → Prop) : Prop where
  record : ∀ entry, K.pre () (.record entry)
  resolve : ∀ hostname, K.pre () (.resolve hostname)
  rejected : ∀ target reason, E (.targetRejected target reason)
  recordFails : ∀ entry x, K.ans () (.record entry) (.error x) → E x
  resolveFails : ∀ hostname x, K.ans () (.resolve hostname) (.error x) →
    (∀ text, x ≠ .resolution text) → E x

section

variable {K : Protocol Exn Op Op.Answer Unit} {E : Exn → Prop} {α : Type}

theorem obeys_record (h : Validates K E) (entry : LedgerEntry) :
    (call (.record entry)).Obeys K (fun _ _ => True) (fun x _ => E x) () :=
  Obeys.perform (h.record entry) (fun _ _ => trivial) fun x hx => h.recordFails entry x hx

theorem obeys_deny {Q : α → Unit → Prop} (h : Validates K E) (destination : String)
    (port : Option ℤ) (reason : String) :
    (deny destination port reason : Guard α).Obeys K Q (fun x _ => E x) () := by
  unfold deny
  refine Obeys.bind (obeys_record h _) fun _ _ _ => ?_
  exact .raise (h.rejected destination reason)

/-- Past `denyIf` there was nothing to deny. -/
theorem obeys_denyIf (h : Validates K E) (destination : String) (port : Option ℤ)
    (problem : Option String) :
    (denyIf destination port problem).Obeys K (fun _ _ => problem = none) (fun x _ => E x) () := by
  cases problem with
  | some reason => exact obeys_deny h destination port reason
  | none => exact .ret rfl

variable (K) in
/-- The addresses are one alone, or what the resolver may answer. -/
def Finds (addresses : List IPAddress) : Prop :=
  (∃ a, addresses = [a]) ∨ ∃ hostname, K.ans () (.resolve hostname) (.ok addresses)

variable (K) in
/-- A target as `validate_target` returns it. -/
structure ValidatedTarget.Valid (scope : ScopeProfile) (t : ValidatedTarget) : Prop where
  network : ∀ n, t.network = some n → checkPrefixBreadth n = none ∧ networkDenial scope n = none
  addresses : t.network = none → ∀ a ∈ t.addresses, addressDenial scope a = none
  found : t.network = none → Finds K t.addresses
  /-- A network is all there is. -/
  alone : ∀ n, t.network = some n → t.addresses = []

variable (scope : ScopeProfile)

theorem obeys_validateNetwork (h : Validates K E) (n : IPNetwork) :
    (validateNetwork scope n).Obeys K
      (fun _ _ => checkPrefixBreadth n = none ∧ networkDenial scope n = none)
      (fun x _ => E x) () := by
  unfold validateNetwork
  refine Obeys.bind (obeys_denyIf h _ _ _) fun _ _ hbreadth => ?_
  refine Obeys.bind (obeys_denyIf h _ _ _) fun _ _ hdenial => ?_
  exact (obeys_record h _).mono (fun _ _ _ => ⟨hbreadth, hdenial⟩) fun _ _ hx => hx

theorem obeys_refuseAny (h : Validates K E) (rawTarget : String) : ∀ addresses : List IPAddress,
    (refuseAny scope rawTarget addresses).Obeys K
      (fun _ _ => ∀ a ∈ addresses, addressDenial scope a = none) (fun x _ => E x) ()
  | [] => .ret fun _ ha => absurd ha List.not_mem_nil
  | a :: rest => by
    refine Obeys.bind (obeys_denyIf h _ _ _) fun _ _ hdenial => ?_
    refine (obeys_refuseAny h rawTarget rest).mono (fun _ _ hrest b hb => ?_) fun _ _ hx => hx
    rcases List.mem_cons.mp hb with rfl | hb
    · exact Option.map_eq_none_iff.mp hdenial
    · exact hrest b hb

theorem obeys_recordAll (h : Validates K E) : ∀ addresses : List IPAddress,
    (recordAll addresses).Obeys K (fun _ _ => True) (fun x _ => E x) ()
  | [] => .ret trivial
  | _ :: rest => Obeys.bind (obeys_record h _) fun _ _ _ => obeys_recordAll h rest

theorem obeys_validateAddresses (h : Validates K E) (rawTarget : String)
    (addresses : List IPAddress) :
    (validateAddresses scope rawTarget addresses).Obeys K
      (fun _ _ => ∀ a ∈ addresses, addressDenial scope a = none) (fun x _ => E x) () := by
  unfold validateAddresses
  by_cases he : addresses.isEmpty = true
  · rw [if_pos he]
    exact .raise (h.rejected _ _)
  · rw [if_neg he]
    refine Obeys.bind (obeys_refuseAny scope h rawTarget addresses) fun _ _ hdenial => ?_
    exact (obeys_recordAll h addresses).mono (fun _ _ _ => hdenial) fun _ _ hx => hx

theorem obeys_classify (h : Validates K E) (rawTarget : String) :
    (classify rawTarget).Obeys K (fun found _ => found.2.2 = none → Finds K found.2.1)
      (fun x _ => E x) () := by
  unfold classify
  dsimp only
  split_ifs
  · exact .raise (h.rejected _ _)
  · split
    · exact .ret nofun
    · exact .raise (h.rejected _ _)
  · split
    · exact .ret fun _ => Or.inl ⟨_, rfl⟩
    · -- the resolver: its own error is refused, any other goes through
      have hresolve : (call (.resolve (strip rawTarget))).Obeys K
          (fun addresses _ => Finds K addresses)
          (fun x _ => (∃ text, x = .resolution text) ∨ E x) () := by
        refine Obeys.perform (h.resolve _) (fun _ ha => Or.inr ⟨_, ha⟩) fun x hx => ?_
        by_cases ht : ∃ text, x = .resolution text
        · exact Or.inl ht
        · exact Or.inr (h.resolveFails _ x hx fun text he => ht ⟨text, he⟩)
      refine Obeys.tryCatch (Obeys.bind hresolve fun _ _ hfinds => .ret fun _ => hfinds)
        fun x _ hx => ?_
      rcases hx with ⟨text, rfl⟩ | hx
      · exact .raise (h.rejected _ _)
      · cases x with
        | resolution text => exact .raise (h.rejected _ _)
        | targetRejected target reason => exact .raise hx
        | budgetExceeded e => exact .raise hx
        | moduleError code message => exact .raise hx
        | governorConfig e => exact .raise hx
        | failure f => exact .raise hx

theorem obeys_validateTarget (h : Validates K E) (rawTarget : String) :
    (validateTarget scope rawTarget).Obeys K (fun t _ => t.Valid K scope) (fun x _ => E x) () := by
  unfold validateTarget
  refine Obeys.bind (obeys_classify h rawTarget) fun c _ hfinds => ?_
  obtain ⟨kind, addresses, networkCandidate⟩ := c
  cases networkCandidate with
  | some n =>
    refine Obeys.bind (obeys_validateNetwork scope h n) fun _ _ hn =>
      .ret ⟨?_, nofun, nofun, fun _ _ => rfl⟩
    rintro m ⟨⟩
    exact hn
  | none =>
    exact Obeys.bind (obeys_validateAddresses scope h rawTarget addresses) fun _ _ hdenial =>
      .ret ⟨nofun, fun _ => hdenial, fun _ => hfinds rfl, nofun⟩

/-- What an environment answers, whatever the call it is asked in. -/
def Env.protocol (env : Env) : Protocol Exn Op Op.Answer Unit :=
  ⟨fun _ _ => True, fun _ o r => ∃ c, r = (handle env c o).1, fun _ _ _ => ()⟩

/-- A target that a call of `validate_target` returned. -/
theorem valid_of_run {scope : ScopeProfile} {rawTarget : String} {env : Env} {c c' : Call}
    {t : ValidatedTarget} (h : (validateTarget scope rawTarget).run (handle env) c = (.ok t, c')) :
    t.Valid env.protocol scope := by
  have hvalidates : Validates env.protocol fun _ => True :=
    ⟨fun _ => trivial, fun _ => trivial, fun _ _ => trivial, fun _ _ _ => trivial,
      fun _ _ _ _ => trivial⟩
  have hanswers : ∀ c o, env.protocol.ans () o (handle env c o).1 := fun c _ => ⟨c, rfl⟩
  have hrun := (obeys_validateTarget scope hvalidates rawTarget).run_answered hanswers (s := c)
  rw [h] at hrun
  exact hrun

/-- An environment finds one address, or what its resolver answers. -/
theorem Finds.resolved {env : Env} {addresses : List IPAddress}
    (h : Finds env.protocol addresses) :
    (∃ a, addresses = [a]) ∨ ∃ hostname, env.resolve hostname = .ok addresses := by
  refine h.imp_right fun ⟨hostname, c, hanswer⟩ => ⟨hostname, ?_⟩
  cases hr : env.resolve hostname with
  | error e =>
    simp only [handle, hr] at hanswer
    cases hanswer
  | ok found =>
    simp only [handle, hr] at hanswer
    cases hanswer
    rfl

/-- All that `validate_target` does is resolve and record. -/
theorem always_validateTarget (targetInput : String) :
    (validateTarget scope targetInput).Always
      (fun o => (∃ hostname, o = .resolve hostname) ∨ ∃ entry, o = .record entry)
      (fun _ => True) := by
  refine Obeys.mono (obeys_validateTarget scope (E := fun _ => True) ?_ targetInput)
    (fun _ _ _ => trivial) fun _ _ hx => hx
  exact ⟨fun entry => Or.inr ⟨entry, rfl⟩, fun hostname => Or.inl ⟨hostname, rfl⟩,
    fun _ _ => trivial, fun _ _ _ => trivial, fun _ _ _ _ => trivial⟩

end

end ScanLedger
