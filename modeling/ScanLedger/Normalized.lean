/-
# A target as it was stored

A scan is stored with its target twice: as it was asked for, and normalized, as the text
of the network or of the first address that the guard found. Since such a text is read
back, a scan of the normalized target is let through wherever the scan was, whatever
names resolve to by then, and its own normalized target is the same (`relaunched`).

Key definitions: `Classified`, `IPAddress.Trim`, `AnswersNumbers`, `CallEnv.ResolvesBy`.
Key theorems: `classified_target`, `createScan_eq_ok`, `run_validateTarget_normalized`,
`relaunched`.
-/
import ScanLedger.AddressText
import ScanLedger.Constraints
import ScanLedger.Cpe
import ScanLedger.Decisions
import ScanLedger.Expansion

namespace ScanLedger

open Prog Regex

/-! ### No blanks around a text -/

/-- What was stripped does not end in a blank. -/
theorem stops_strip (text : String) : Stops isSpace (strip text).toList.reverse := by
  intro c hc
  unfold strip at hc
  rw [String.toList_ofList, List.reverse_reverse] at hc
  have hnot := List.head?_dropWhile_not isSpace (text.toList.dropWhile isSpace).reverse
  rw [Option.mem_def.mp hc] at hnot
  simpa using hnot

theorem isSpace_of_hex {c : Char} (h : isHexDigit c = true) : isSpace c = false := by
  have hrange : 48 ≤ c.toNat ∧ c.toNat ≤ 102 := by
    simp only [isHexDigit, Char.isDigit, Bool.or_eq_true, Bool.and_eq_true, decide_eq_true_eq,
      Char.le_def, UInt32.le_iff_toNat_le] at h
    have htoNat : c.toNat = c.val.toNat := rfl
    have hconst : '0'.val.toNat = 48 ∧ '9'.val.toNat = 57 ∧ 'a'.val.toNat = 97 ∧
      'f'.val.toNat = 102 ∧ 'A'.val.toNat = 65 ∧ 'F'.val.toNat = 70 := by decide
    omega
  unfold isSpace
  simp only [Bool.or_eq_false_iff, decide_eq_false_iff_not, beq_eq_false_iff_ne]
  omega

theorem isSpace_stringFromIpInt {v : Version} {n : ℕ} :
    ∀ c ∈ (stringFromIpInt v n).toList, isSpace c = false := by
  intro c hc
  rcases mem_stringFromIpInt hc with hhex | rfl
  · exact isSpace_of_hex hhex
  · cases v <;> decide

theorem stringFromIpInt_ne_nil {v : Version} {n : ℕ} : (stringFromIpInt v n).toList ≠ [] := by
  intro hnil
  cases v with
  | v4 =>
    have hpoint : '.' ∈ (stringFromIpInt .v4 n).toList := by
      simp [stringFromIpInt, groupsOf, List.range_succ]
    rw [hnil] at hpoint
    cases hpoint
  | v6 =>
    have hcolon := colon_mem_str_v6 n
    rw [hnil] at hcolon
    cases hcolon

/-- A text that starts with an address starts with no blank. -/
theorem stops_str (v : Version) (n : ℕ) (rest : List Char) :
    Stops isSpace ((stringFromIpInt v n).toList ++ rest) := by
  intro c hc
  rw [List.head?_append_of_ne_nil _ stringFromIpInt_ne_nil] at hc
  exact isSpace_stringFromIpInt c (List.mem_of_head? hc)

/-- The scope id of the address does not end in a blank. -/
def IPAddress.Trim (a : IPAddress) : Prop :=
  ∀ id, a.scopeId = some id → Stops isSpace id.toList.reverse

theorem strip_str {a : IPAddress} (h : a.Trim) : strip a.str = a.str := by
  refine strip_eq_self ?_ fun c hc => ?_
  · rw [str_toList]
    exact stops_str _ _ _
  · rw [str_toList, List.head?_reverse] at hc
    cases hid : a.scopeId with
    | none =>
      rw [hid, scopeText, List.append_nil] at hc
      exact isSpace_stringFromIpInt c (List.mem_of_getLast? hc)
    | some id =>
      have hne : id.toList ≠ [] := fun hnil => a.scopeId_ne (hid.trans
        (congrArg some (String.toList_inj.mp (hnil.trans String.toList_empty.symm))))
      rw [hid, scopeText, List.getLast?_append_of_ne_nil _ (List.cons_ne_nil _ _),
        List.getLast?_cons_of_ne_nil hne] at hc
      exact h id hid c (by rwa [List.head?_reverse])

theorem strip_networkStr (n : IPNetwork) : strip n.str = n.str := by
  refine strip_eq_self ?_ fun c hc => ?_
  · rw [IPNetwork.str_toList, str_toList, List.append_assoc]
    exact stops_str _ _ _
  · rw [IPNetwork.str_toList, List.head?_reverse,
      List.getLast?_append_of_ne_nil _ (List.cons_ne_nil _ _),
      List.getLast?_cons_of_ne_nil Nat.toDigits_ne_nil] at hc
    exact isSpace_of_hex (isHexDigit_of_mem_toDigits (by norm_num) (by norm_num) _ c
      (List.mem_of_getLast? hc))

/-- An address of a text that was stripped. -/
theorem trim_of_ipAddress {text : String} {a : IPAddress} (h : ipAddress text = some a)
    (hstrip : Stops isSpace text.toList.reverse) : a.Trim := by
  intro id hid
  rcases ipAddress_eq_some h with hnone | h6
  · rw [hnone] at hid
    cases hid
  · obtain ⟨-, addr, htext⟩ := (ipv6Address_eq_some h6).2 id hid
    intro c hc
    have hne : id.toList ≠ [] := by
      intro hnil
      rw [hnil] at hc
      cases hc
    refine hstrip c ?_
    rw [List.head?_reverse] at hc ⊢
    rwa [htext, List.getLast?_append_of_ne_nil _ (List.cons_ne_nil _ _),
      List.getLast?_cons_of_ne_nil hne]

/-! ### The normalized target -/

/-- What `_classify` finds in a text, or asks the resolver for. -/
inductive Classified (env : Env) (text : String) :
    TargetKind × List IPAddress × Option IPNetwork → Prop
  | cidr {n : IPNetwork} (h : ipNetwork text = some n) : Classified env text (.cidr, [], some n)
  | ip {a : IPAddress} (h : ipAddress text = some a) : Classified env text (.ip, [a], none)
  | host {addresses : List IPAddress} (h : env.resolve text = .ok addresses) :
      Classified env text (.host, addresses, none)

theorem classified {env : Env} {c : Call} {rawTarget : String}
    {found : TargetKind × List IPAddress × Option IPNetwork}
    (h : ((classify rawTarget).run (handle env) c).1 = .ok found) :
    Classified env (strip rawTarget) found := by
  unfold classify at h
  dsimp only at h
  split_ifs at h with hempty hslash
  · cases h
  · split at h
    · next n hn =>
      cases h
      exact .cidr hn
    · cases h
  · split at h
    · next a ha =>
      cases h
      exact .ip ha
    · rw [run_tryCatch, bind_eq, run_bind, call, run_perform, handle] at h
      cases hresolve : env.resolve (strip rawTarget) with
      | error x =>
        rw [hresolve] at h
        cases x <;> cases h
      | ok addresses =>
        rw [hresolve] at h
        cases h
        exact .host hresolve

/-- A target is of what was found in its text. -/
theorem classified_target {env : Env} {c : Call} {scope : ScopeProfile} {rawTarget : String}
    {target : ValidatedTarget}
    (h : ((validateTarget scope rawTarget).run (handle env) c).1 = .ok target) :
    Classified env (strip rawTarget) (target.kind, target.addresses, target.network) := by
  unfold validateTarget at h
  rw [bind_eq, run_bind] at h
  rcases hrun : (classify rawTarget).run (handle env) c with ⟨x | found, c'⟩
  · rw [hrun] at h
    cases h
  · have hfound := classified (congrArg Prod.fst hrun)
    rw [hrun] at h
    obtain ⟨kind, addresses, network⟩ := found
    cases network with
    | some n =>
      simp only [bind_eq, run_bind] at h
      rcases hok : (validateNetwork scope n).run (handle env) c' with ⟨x | u, c''⟩
      · rw [hok] at h
        cases h
      · rw [hok] at h
        cases h
        cases hfound with
        | cidr hn => exact .cidr hn
    | none =>
      simp only [bind_eq, run_bind] at h
      rcases hok : (validateAddresses scope rawTarget addresses).run (handle env) c'
        with ⟨x | u, c''⟩
      · rw [hok] at h
        cases h
      · rw [hok] at h
        cases h
        exact hfound

section

variable {scope : ScopeProfile} {env : Env}

/-- The text of a network that the guard lets through. -/
theorem run_validateTarget_network (hsink : env.SinkWorks) (c : Call) {n : IPNetwork}
    (hread : n.networkAddress.Readable) (hbreadth : checkPrefixBreadth n = none)
    (hdenial : networkDenial scope n = none) :
    (validateTarget scope n.str).run (handle env) c = (.ok ⟨n.str, .cidr, [], some n⟩,
      c.appended [allowedEntry n.str none "validated"]) := by
  have hslash : '/' ∈ n.str.toList := by
    rw [IPNetwork.str_toList]
    exact List.mem_append_right _ List.mem_cons_self
  have hempty : n.str.isEmpty = false := by
    by_contra he
    have hnil : n.str = "" := String.isEmpty_iff.mp (by simpa using he)
    rw [hnil] at hslash
    cases hslash
  have hclassify : classify n.str = ret (.cidr, [], some n) := by
    unfold classify
    simp only [strip_networkStr, hempty, hslash, ipNetwork_str hread]
    rfl
  have hok : (validateNetwork scope n).run (handle env) c =
      (.ok (), c.appended [allowedEntry n.str none "validated"]) := by
    unfold validateNetwork
    rw [hbreadth, hdenial]
    exact run_record hsink c _
  unfold validateTarget
  rw [hclassify, bind_eq, run_bind, run_ret]
  simp only
  rw [bind_eq, run_bind_of_ok _ hok]
  rfl

/-- The text of an address that the guard lets through. -/
theorem run_validateTarget_address (hsink : env.SinkWorks) (c : Call) {a : IPAddress}
    (hread : a.Readable) (htrim : a.Trim) (hdenial : addressDenial scope a = none) :
    (validateTarget scope a.str).run (handle env) c = (.ok ⟨a.str, .ip, [a], none⟩,
      c.appended [allowedEntry a.str none "validated"]) := by
  have hempty : a.str.isEmpty = false := by
    by_contra he
    have hnil : a.str = "" := String.isEmpty_iff.mp (by simpa using he)
    have hnil := congrArg String.toList hnil
    rw [str_toList] at hnil
    exact stringFromIpInt_ne_nil (List.append_eq_nil_iff.mp hnil).1
  have hclassify : classify a.str = ret (.ip, [a], none) := by
    unfold classify
    simp only [strip_str htrim, hempty, hread.slash_notMem, ipAddress_str hread]
    rfl
  have hok : (validateAddresses scope a.str [a]).run (handle env) c =
      (.ok (), c.appended [allowedEntry a.str none "validated"]) := by
    have hrefuse : refuseAny scope a.str [a] = pure () := by
      unfold refuseAny
      rw [hdenial]
      rfl
    unfold validateAddresses
    rw [if_neg (by simp), hrefuse]
    exact run_recordAll hsink [a] c
  unfold validateTarget
  rw [hclassify, bind_eq, run_bind, run_ret]
  simp only
  rw [bind_eq, run_bind_of_ok _ hok]
  rfl

variable {getaddrinfo : String → Except LookupError (List String)}

/-- No text of an answer ends in a blank. -/
def AnswersNumbers (getaddrinfo : String → Except LookupError (List String)) : Prop :=
  ∀ hostname infos, getaddrinfo hostname = .ok infos →
    ∀ text ∈ infos, Stops isSpace text.toList.reverse

theorem trim_of_resolveHostname {hostname : String} {addresses : List IPAddress}
    (hnumeric : AnswersNumbers getaddrinfo)
    (h : resolveHostname getaddrinfo hostname = .ok addresses) :
    ∀ a ∈ addresses, a.Readable ∧ a.Trim := by
  unfold resolveHostname at h
  split at h
  · cases h
  · cases h
  · next infos hinfos =>
    obtain ⟨found, hfound, h⟩ := Raising.bind_eq_ok.mp h
    dsimp only at h
    split_ifs at h
    cases h
    intro a ha
    have hmem : Except.ok a ∈ infos.map answeredAddress := by
      rw [Raising.mapM_eq_ok.mp hfound]
      exact List.mem_map_of_mem (List.mem_eraseDups.mp ha)
    obtain ⟨text, htext, hread⟩ := List.mem_map.mp hmem
    have hread : ipAddress text = some a := by
      unfold answeredAddress at hread
      split at hread
      · cases hread
        assumption
      · cases hread
    exact ⟨readable_of_ipAddress hread,
      trim_of_ipAddress hread (hnumeric hostname infos hinfos text htext)⟩

/-- What the guard found for a scan is in a text that it reads in the same way. -/
theorem Classified.readable {rawTarget : String} {target : ValidatedTarget}
    (h : Classified env (strip rawTarget) (target.kind, target.addresses, target.network))
    (hresolve : ∀ hostname addresses, env.resolve hostname = .ok addresses →
      resolveHostname getaddrinfo hostname = .ok addresses)
    (hnumeric : AnswersNumbers getaddrinfo) :
    (∀ n, target.network = some n → n.networkAddress.Readable) ∧
      ∀ a ∈ target.addresses, a.Readable ∧ a.Trim := by
  obtain ⟨raw, kind, addresses, network⟩ := target
  cases h with
  | cidr hn =>
    refine ⟨fun n h => ?_, fun a ha => absurd ha List.not_mem_nil⟩
    cases h
    exact readable_of_ipNetwork hn
  | ip ha =>
    refine ⟨nofun, fun a h => ?_⟩
    cases List.mem_singleton.mp h
    exact ⟨readable_of_ipAddress ha, trim_of_ipAddress ha (stops_strip rawTarget)⟩
  | host haddresses =>
    exact ⟨nofun, trim_of_resolveHostname hnumeric (hresolve _ _ haddresses)⟩

end

/-! ### A scan of it -/

/-- Names resolve as `resolve_hostname` resolves them. -/
def CallEnv.ResolvesBy (e : CallEnv)
    (getaddrinfo : String → Except LookupError (List String)) : Prop :=
  ∀ hostname addresses, e.resolve hostname = .ok addresses →
    resolveHostname getaddrinfo hostname = .ok addresses

section

variable {registry : ModuleRegistry} {e : CallEnv} {request : ScanBody} {db db' : Db} {id : ℕ}
  {scope : ScopeProfile} {target : ValidatedTarget}

/-- A request that is served, step by step. -/
theorem createScan_eq_ok : createScan registry e request db = (.ok id, db') ↔
    request.check registry = .ok () ∧ ∃ scope, loadScopeProfile db request.scopeId = .ok scope ∧
      ∃ target c, (validateTarget scope request.target).run (handle e.guard) (.new false) =
          (.ok target, c) ∧
        ∃ scan, request.stored target e.now = .ok scan ∧
          (db.recorded request.scopeId c.entries).createScan scan e.now = some db' ∧
          db.nextId = id := by
  unfold createScan
  cases hcheck : request.check registry with
  | error x => simp
  | ok u =>
    cases hload : loadScopeProfile db request.scopeId with
    | error x => simp
    | ok scope =>
      rcases hrun : (validateTarget scope request.target).run (handle e.guard) (.new false)
        with ⟨x | target, c⟩
      · cases x <;> simp [hrun]
      · unfold storeScan
        cases hstored : request.stored target e.now with
        | error x => simp [hrun, hstored]
        | ok scan =>
          cases hdb : (db.recorded request.scopeId c.entries).createScan scan e.now with
          | none => simp [hrun, hstored, hdb]
          | some db'' =>
            have hid : (db.recorded request.scopeId c.entries).nextId = db.nextId := rfl
            simp [hrun, hstored, hdb, hid, and_comm]

/-- The row of a validated target, with the text of its network or first address. -/
theorem stored_eq_ok {now : ℚ} {scan : ScanCreate} (h : request.stored target now = .ok scan) :
    ((∃ n, target.network = some n ∧ scan.targetNormalized = n.str) ∨
      target.network = none ∧ ∃ a ∈ target.addresses, scan.targetNormalized = a.str) ∧
      scan.scopeId = request.scopeId ∧ scan.target = request.target ∧
      scan.modules = request.modules := by
  unfold ScanBody.stored at h
  cases hn : target.network with
  | some n =>
    rw [hn] at h
    cases h
    exact ⟨Or.inl ⟨n, rfl, rfl⟩, rfl, rfl, rfl⟩
  | none =>
    rw [hn] at h
    cases ha : target.addresses with
    | nil =>
      rw [ha] at h
      cases h
    | cons a rest =>
      rw [ha] at h
      cases h
      exact ⟨Or.inr ⟨rfl, a, List.mem_cons_self, rfl⟩, rfl, rfl, rfl⟩

/-- The row of a target of one text. -/
theorem stored_alone (request : ScanBody) {text : String} (now : ℚ)
    (hn : ∀ n, target.network = some n → text = n.str)
    (ha : target.network = none → ∃ a, target.addresses = [a] ∧ text = a.str) :
    ∃ scan, request.stored target now = .ok scan ∧ scan.targetNormalized = text ∧
      scan.resolvedAddrs = [text] ∧ scan.scopeId = request.scopeId ∧
      scan.modules = request.modules := by
  unfold ScanBody.stored
  cases hnetwork : target.network with
  | some n =>
    cases hn n hnetwork
    exact ⟨_, rfl, rfl, rfl, rfl, rfl⟩
  | none =>
    obtain ⟨a, haddresses, rfl⟩ := ha hnetwork
    rw [haddresses]
    exact ⟨_, rfl, rfl, rfl, rfl, rfl⟩

/-- The normalized target is let through, and normalized to itself. -/
theorem run_validateTarget_normalized {env env' : Env} {rawTarget normalized : String}
    {getaddrinfo : String → Except LookupError (List String)} {c c' : Call}
    (h : (validateTarget scope rawTarget).run (handle env) c = (.ok target, c'))
    (hresolve : ∀ hostname addresses, env.resolve hostname = .ok addresses →
      resolveHostname getaddrinfo hostname = .ok addresses) (hnumeric : AnswersNumbers getaddrinfo)
    (hnormalized : (∃ n, target.network = some n ∧ normalized = n.str) ∨
      target.network = none ∧ ∃ a ∈ target.addresses, normalized = a.str)
    (hsink : env'.SinkWorks) (d : Call) :
    ∃ target' d', (validateTarget scope normalized).run (handle env') d = (.ok target', d') ∧
      target'.network = target.network ∧
      (∀ n, target.network = some n → normalized = n.str) ∧
      (target.network = none → ∃ a ∈ target.addresses, target'.addresses = [a] ∧
        normalized = a.str) := by
  have hvalid := valid_of_run h
  obtain ⟨hnetwork, haddresses⟩ := (classified_target (congrArg Prod.fst h)).readable hresolve
    hnumeric
  rcases hnormalized with ⟨n, hn, rfl⟩ | ⟨hnone, a, ha, rfl⟩
  · obtain ⟨hbreadth, hdenial⟩ := hvalid.network n hn
    refine ⟨_, _, run_validateTarget_network hsink d (hnetwork n hn) hbreadth hdenial, hn.symm,
      fun m hm => ?_, fun hnone => ?_⟩
    · rw [hn] at hm
      cases hm
      rfl
    · rw [hn] at hnone
      cases hnone
  · obtain ⟨hread, htrim⟩ := haddresses a ha
    refine ⟨_, _, run_validateTarget_address hsink d hread htrim (hvalid.addresses hnone a ha),
      hnone.symm, fun m hm => ?_, fun _ => ⟨a, ha, rfl, rfl⟩⟩
    rw [hnone] at hm
    cases hm

/-- **A scan of the normalized target** is stored wherever the scan was, with the same
normalized target, whatever the resolver has come to say. -/
theorem relaunched {getaddrinfo : String → Except LookupError (List String)}
    (h : createScan registry e request db = (.ok id, db')) (hresolve : e.ResolvesBy getaddrinfo)
    (hnumeric : AnswersNumbers getaddrinfo) : ∃ scan, db'.scans = db.scans ++ [scan] ∧
      scan.targetInput = request.target ∧ ∀ (e' : CallEnv) (later : Db),
        later.getScope request.scopeId = db.getScope request.scopeId → ∃ scan' later',
          createScan registry e' { request with target := scan.targetNormalized } later =
              (.ok later.nextId, later') ∧
            later'.scans = later.scans ++ [scan'] ∧
            scan'.targetNormalized = scan.targetNormalized ∧
            scan'.resolvedAddrs = [scan.targetNormalized] := by
  obtain ⟨hcheck, scope, hload, target, c, hrun, scan, hstored, hdb, -⟩ := createScan_eq_ok.mp h
  obtain ⟨hnormalized, hscope, htarget, hmodules⟩ := stored_eq_ok hstored
  obtain ⟨⟨-, hnodup⟩, rfl⟩ := Db.createScan_eq_some.mp hdb
  refine ⟨_, rfl, htarget, fun e' later hlater => ?_⟩
  have hresolve' : ∀ hostname addresses, e.guard.resolve hostname = .ok addresses →
      resolveHostname getaddrinfo hostname = .ok addresses := by
    intro hostname addresses hanswer
    refine hresolve hostname addresses ?_
    have hanswer' : (e.resolve hostname).mapError ResolveError.resolution = .ok addresses := hanswer
    cases hr : e.resolve hostname with
    | error text =>
      rw [hr] at hanswer'
      cases hanswer'
    | ok found =>
      rw [hr] at hanswer'
      cases hanswer'
      rfl
  obtain ⟨target', c', hrun', hnetwork, hn, ha⟩ := run_validateTarget_normalized hrun hresolve'
    hnumeric hnormalized e'.sinkWorks (.new false)
  obtain ⟨scan', hstored', hsame, hresolved, hscope', hmodules'⟩ :=
    stored_alone { request with target := scan.targetNormalized } e'.now
      (fun n hn' => hn n (hnetwork.symm.trans hn'))
      fun hnone => by
        obtain ⟨a, -, haddresses, htext⟩ := ha (hnetwork.symm.trans hnone)
        exact ⟨a, haddresses, htext⟩
  have hload' : loadScopeProfile later request.scopeId = .ok scope := by
    unfold loadScopeProfile at hload ⊢
    rw [hlater]
    exact hload
  have hany : later.scopes.any (·.id == scan'.scopeId) = true := by
    obtain ⟨row, hrow, -⟩ := loadScopeProfile_eq_ok hload'
    rw [hscope']
    exact List.any_eq_true.mpr ⟨row, List.mem_of_find?_eq_some hrow,
      List.find?_some (p := fun r : ScopeProfileRow => r.id == request.scopeId) hrow⟩
  have hdb' : (later.recorded request.scopeId c'.entries).createScan scan' e'.now = some _ :=
    Db.createScan_eq_some.mpr ⟨⟨hany, by rw [hmodules']; exact hmodules ▸ hnodup⟩, rfl⟩
  refine ⟨_, _, createScan_eq_ok.mpr ⟨hcheck, scope, hload', target', c', hrun', scan', hstored',
    hdb', rfl⟩, rfl, hsame, hresolved⟩

end

/-- A host of the lab with two addresses, the first of them written at length. -/
def labNames (hostname : String) : Except LookupError (List String) :=
  if hostname = "db.lab" then .ok ["fd00:0:0:0:0:0:0:7", "10.10.0.7"]
  else .error (.gaierror "Name or service not known")

def labNamesCall : CallEnv :=
  ⟨0, fun hostname => match resolveHostname labNames hostname with
    | .ok addresses => .ok addresses
    | .error (.resolution text) => .error text
    | .error (.failure _) => .error "getaddrinfo failed"⟩

theorem labNamesCall_resolves : labNamesCall.ResolvesBy labNames := by
  intro hostname addresses h
  unfold labNamesCall at h
  simp only at h
  split at h
  · next found hfound =>
    cases h
    exact hfound
  · cases h
  · cases h

theorem labNames_numeric : AnswersNumbers labNames := by
  intro hostname infos h
  unfold labNames at h
  split_ifs at h
  cases h
  intro text htext c hc
  have hlast : text.toList.reverse.head? = some '7' := by
    rcases List.mem_pair.mp htext with rfl | rfl <;> rfl
  rw [hlast] at hc
  cases hc
  decide

/-- A scope with networks of both families. -/
def labBoth : Db :=
  (createScope ⟨"lab", ["10.10.0.0/24", "fd00::/64"], false, false⟩ .empty).2

def labHost : ScanBody := { labBody ["host_discovery"] with target := " db.lab" }

def labHostStored : Db := (createScan builtinModules labNamesCall labHost labBoth).2

theorem labHostStored_eq :
    createScan builtinModules labNamesCall labHost labBoth = (.ok 1, labHostStored) :=
  Prod.ext (by decide +kernel) rfl

/-- The host is scanned again by its address, when no name resolves any more. -/
theorem relaunched_lab : ∃ later, createScan builtinModules labCall
    { labHost with target := "fd00::7" } labHostStored = (.ok 2, later) := by
  obtain ⟨scan, hscans, -, hagain⟩ :=
    relaunched labHostStored_eq labNamesCall_resolves labNames_numeric
  have hnormalized : labHostStored.scans.map (·.targetNormalized) = ["fd00::7"] := by
    decide +kernel
  have hnone : labBoth.scans = [] := by decide +kernel
  have htext : scan.targetNormalized = "fd00::7" := by
    rw [hscans, hnone] at hnormalized
    exact List.head_eq_of_cons_eq hnormalized
  obtain ⟨scan', later, hcreate, -⟩ := hagain labCall labHostStored (by decide +kernel)
  rw [htext] at hcreate
  exact ⟨later, hcreate.trans (congrArg (fun id => (Except.ok id, later)) (by decide +kernel))⟩

end ScanLedger
