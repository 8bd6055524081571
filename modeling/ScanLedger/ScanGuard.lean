/-
# ScanGuard

`app/guard/scanguard.py`: scope profiles, and `validate_target`, `connect` and
`open_stream` as programs over what they call: the resolver, the ledger sink,
the governor's slot, the socket and the streams. What those answer is the
environment's choice. A call has one socket at most, the variable `sock` of
`connect`; `sock_connect` is the start of the attempt and `connected` the await
of its end, under the timeout.

Key definitions: `ScopeProfile.create`, `validateTarget`, `connect`,
`openStream`, `Env`, `Call`, `handle`.
-/
import ScanLedger.Governor
import ScanLedger.Lib.Prog
import ScanLedger.Ranges
import ScanLedger.Text

namespace ScanLedger

open Governor (BudgetExceeded)

/-! ### Exceptions and ledger entries -/

/-- What is raised by the calls the program makes. -/
inductive Failure
  | timeout
  | cancelled
  /-- `IntegrityError`: a constraint of the database. -/
  | integrity
  | os (text : String)
  | other (text : String)
  deriving DecidableEq, Repr

/-- The exceptions of the guard, of the modules and of what they call. -/
inductive Exn
  | targetRejected (target reason : String)
  | resolution (text : String)
  | budgetExceeded (e : BudgetExceeded)
  | moduleError (code message : String)
  | governorConfig (e : Governor.GovernorConfigError)
  | failure (f : Failure)
  deriving DecidableEq, Repr

inductive Decision
  | allowed
  | denied
  deriving DecidableEq, Repr

structure LedgerEntry where
  destination : String
  port : Option ℤ
  module : String
  decision : Decision
  reason : String
  outcome : String
  deriving DecidableEq, Repr

def moduleName : String := "scanguard"

/-! ### Scope profiles -/

structure ScopeValidationError where
  message : String
  deriving DecidableEq, Repr

def parseScopeEntry (raw : String) : Except ScopeValidationError IPNetwork :=
  let text := strip raw
  if text.isEmpty then .error ⟨"an empty scope entry is not valid"⟩
  else match ipNetwork text with
    | some n => .ok n
    | none => .error ⟨repr raw ++ " is not a valid IP address or CIDR - scope profiles accept " ++
        "literal addresses and CIDRs only"⟩

/-- A network a profile with these opt-ins may hold. -/
structure ScopeNetwork (allowCgnat allowLinkLocal : Bool) extends IPNetwork where
  breadth : checkPrefixBreadth toIPNetwork = none
  within : networkWithinAllowed toIPNetwork (allowedRangesFor allowCgnat allowLinkLocal) = true

/-- One turn of the loop of `create`. -/
def scopeNetwork (allowCgnat allowLinkLocal : Bool) (raw : String) :
    Except ScopeValidationError (ScopeNetwork allowCgnat allowLinkLocal) := do
  let n ← parseScopeEntry raw
  match hb : checkPrefixBreadth n with
  | some problem => .error ⟨repr raw ++ " is too broad: " ++ problem⟩
  | none =>
    if hw : networkWithinAllowed n (allowedRangesFor allowCgnat allowLinkLocal) = true then
      .ok ⟨n, hb, hw⟩
    else .error ⟨repr raw ++ " is not inside the allowed private ranges " ++
      "(RFC1918, IPv6 ULA, loopback; CGNAT and link-local require opt-in)"⟩

def scopeNetworks (allowCgnat allowLinkLocal : Bool) :
    List String → Except ScopeValidationError (List (ScopeNetwork allowCgnat allowLinkLocal))
  | [] => .ok []
  | raw :: rest => do
    let n ← scopeNetwork allowCgnat allowLinkLocal raw
    let ns ← scopeNetworks allowCgnat allowLinkLocal rest
    return n :: ns

/-- A profile, with networks that went through `create`. -/
structure ScopeProfile where
  name : String
  entries : List String
  allowCgnat : Bool
  allowLinkLocal : Bool
  validated : List (ScopeNetwork allowCgnat allowLinkLocal)

namespace ScopeProfile

def create (name : String) (entries : List String) (allowCgnat allowLinkLocal : Bool) :
    Except ScopeValidationError ScopeProfile :=
  if entries.isEmpty then .error ⟨"a scope profile needs at least one entry"⟩
  else do
    let ns ← scopeNetworks allowCgnat allowLinkLocal entries
    return ⟨name, entries, allowCgnat, allowLinkLocal, ns⟩

def networks (p : ScopeProfile) : List IPNetwork := p.validated.map (·.toIPNetwork)

def containsAddress (p : ScopeProfile) (a : IPAddress) : Bool := p.networks.any (·.contains a)

def containsNetwork (p : ScopeProfile) (n : IPNetwork) : Bool := networkWithinAllowed n p.networks

end ScopeProfile

inductive TargetKind
  | ip
  | cidr
  | host
  deriving DecidableEq, Repr

structure ValidatedTarget where
  raw : String
  kind : TargetKind
  addresses : List IPAddress
  network : Option IPNetwork
  deriving DecidableEq

def ValidatedTarget.covers (t : ValidatedTarget) (a : IPAddress) : Bool :=
  match t.network with
  | some n => n.contains a
  | none => decide (a ∈ t.addresses)

/-! ### What the guard calls -/

inductive Op
  | resolve (hostname : String)
  | record (entry : LedgerEntry)
  /-- `__aenter__` of `governor.slot(host)`. -/
  | slot (host : String)
  /-- Its `__aexit__`. -/
  | release (host : String)
  /-- `NETWORK_GUARD_ACTIVE.set(True)`, answered by the previous value. -/
  | setActive
  | resetActive (token : Bool)
  | socket (v : Version)
  | sockConnect (a : IPAddress) (port : ℤ)
  | connected
  | close
  | reportError (host : String)
  | reportSuccess (host : String)
  /-- `asyncio.open_connection` on the socket, with the TLS server name if any. -/
  | openConnection (serverHostname : Option String)
  deriving DecidableEq

@[reducible] def Op.Answer : Op → Type
  | .resolve _ => List IPAddress
  | .setActive => Bool
  | _ => Unit

/-- The programs of the guard. -/
abbrev Guard (α : Type) : Type := Prog Exn Op Op.Answer α

open Prog

def call (o : Op) : Guard o.Answer := perform o

/-! ### Validating a target -/

/-- The entry of a destination that is allowed. -/
def allowedEntry (destination : String) (port : Option ℤ) (outcome : String) : LedgerEntry :=
  ⟨destination, port, moduleName, .allowed, "inside the active scope profile", outcome⟩

def deniedEntry (destination : String) (port : Option ℤ) (reason : String) : LedgerEntry :=
  ⟨destination, port, moduleName, .denied, reason, "rejected"⟩

/-- `_deny`. -/
def deny {α : Type} (destination : String) (port : Option ℤ) (reason : String) : Guard α := do
  call (.record (deniedEntry destination port reason))
  raise (.targetRejected destination reason)

/-- `if problem is not None: await self._deny(...)`. -/
def denyIf (destination : String) (port : Option ℤ) : Option String → Guard Unit
  | some problem => deny destination port problem
  | none => pure ()

/-- `_classify`. -/
def classify (rawTarget : String) : Guard (TargetKind × List IPAddress × Option IPNetwork) :=
  let text := strip rawTarget
  if text.isEmpty then raise (.targetRejected rawTarget "target is empty")
  else if '/' ∈ text.toList then
    match ipNetwork text with
    | some n => ret (.cidr, [], some n)
    | none => raise (.targetRejected rawTarget ("not a valid CIDR: " ++ repr text ++
        " does not appear to be an IPv4 or IPv6 network"))
  else match ipAddress text with
    | some a => ret (.ip, [a], none)
    | none => tryCatch (do
        let addresses : List IPAddress ← call (.resolve text)
        return (.host, addresses, none)) fun
      | .resolution problem => raise (.targetRejected rawTarget problem)
      | x => raise x

section

variable (scope : ScopeProfile)

/-- Why an address is denied: for what it is, or for lying outside the scope. -/
def addressDenial (a : IPAddress) : Option String :=
  (isAlwaysDenied a).orElse fun _ =>
    if scope.containsAddress a then none else some "outside the active scope profile"

def networkDenial (n : IPNetwork) : Option String :=
  (networkAlwaysDenied n).orElse fun _ =>
    if scope.containsNetwork n then none else some "outside the active scope profile"

/-- `_validate_network`. -/
def validateNetwork (n : IPNetwork) : Guard Unit := do
  denyIf n.str none (checkPrefixBreadth n)
  denyIf n.str none (networkDenial scope n)
  call (.record (allowedEntry n.str none "validated"))

/-- The first loop of `_validate_addresses`: any denied address refuses all. -/
def refuseAny (rawTarget : String) : List IPAddress → Guard Unit
  | [] => pure ()
  | a :: rest => do
    denyIf a.str none ((addressDenial scope a).map fun denial =>
      denial ++ " (from target " ++ rawTarget ++ ")")
    refuseAny rawTarget rest

/-- Its second loop. -/
def recordAll : List IPAddress → Guard Unit
  | [] => pure ()
  | a :: rest => do
    call (.record (allowedEntry a.str none "validated"))
    recordAll rest

/-- `_validate_addresses`. -/
def validateAddresses (rawTarget : String) (addresses : List IPAddress) : Guard Unit :=
  if addresses.isEmpty then raise (.targetRejected rawTarget "target resolved to no addresses")
  else do
    refuseAny scope rawTarget addresses
    recordAll addresses

def validateTarget (rawTarget : String) : Guard ValidatedTarget := do
  let (kind, addresses, networkCandidate) ← classify rawTarget
  match networkCandidate with
  | some n =>
    validateNetwork scope n
    return ⟨rawTarget, kind, [], some n⟩
  | none =>
    validateAddresses scope rawTarget addresses
    return ⟨rawTarget, kind, addresses, none⟩

/-! ### Connecting -/

/-- The checks of `connect`, before it asks for a slot. -/
def connectChecks (target : ValidatedTarget) (a : IPAddress) (port : ℤ) : Guard Unit :=
  if ¬ (0 < port ∧ port ≤ 65535) then
    raise (.targetRejected (a.str ++ ":" ++ toString port) "port is outside 1-65535")
  else if ¬ target.covers a then
    deny a.str (some port) "address is not part of the validated target"
  else denyIf a.str (some port) (addressDenial scope a)

/-- `if sock is not None: sock.close()`. -/
def closeIf : Bool → Guard Unit
  | true => call .close
  | false => pure ()

/-- The `except BaseException` clause of `connect`; `sock` says whether the
variable holds a socket by then. -/
def connectFailed {α : Type} (a : IPAddress) (port : ℤ) (sock : Bool) (x : Exn) : Guard α := do
  closeIf sock
  call (.reportError a.str)
  call (.record (allowedEntry a.str (some port) "connect_failed"))
  raise x

/-- The slot's body: the attempt, with `NETWORK_GUARD_ACTIVE` set. -/
def attempt (a : IPAddress) (port : ℤ) : Guard Unit := do
  let token : Bool ← call .setActive
  tryFinally (do
      tryCatch (call (.socket a.version)) (connectFailed a port false)
      tryCatch (do call (.sockConnect a port); call .connected)
        (connectFailed a port true))
    (call (.resetActive token))

/-- `async with governor.slot(host)`. -/
def withSlot {α : Type} (host : String) (body : Guard α) : Guard α := do
  call (.slot host)
  tryFinally body (call (.release host))

/-- `connect`; the call returns its socket. -/
def connect (target : ValidatedTarget) (a : IPAddress) (port : ℤ) : Guard Unit := do
  connectChecks scope target a port
  withSlot a.str (attempt a port)
  call (.reportSuccess a.str)
  call (.record (allowedEntry a.str (some port) "connected"))

/-- `open_stream`; the call returns the stream over its socket. -/
def openStream (target : ValidatedTarget) (a : IPAddress) (port : ℤ) (useTls : Bool) :
    Guard Unit := do
  connect scope target a port
  let token : Bool ← call .setActive
  tryFinally
    (tryCatch (call (.openConnection (if useTls then some a.str else none))) fun x => do
      call .close
      raise x)
    (call (.resetActive token))

end

/-! ### One call on its own -/

/-- What a resolver may raise. -/
inductive ResolveError
  | resolution (text : String)
  | failure (f : Failure)
  deriving DecidableEq, Repr

def ResolveError.exn : ResolveError → Exn
  | .resolution text => .resolution text
  | .failure f => .failure f

/-- What `governor.slot` may raise. -/
inductive SlotError
  | budget (e : BudgetExceeded)
  | failure (f : Failure)
  deriving DecidableEq, Repr

def SlotError.exn : SlotError → Exn
  | .budget e => .budgetExceeded e
  | .failure f => .failure f

/-- How a write to the ledger sink ends: the entry may be stored and the write
raise all the same, as on a cancel after the commit. -/
inductive Write
  | done
  | raised (stored : Bool) (f : Failure)
  deriving DecidableEq, Repr

def Write.stores : Write → Bool
  | .done => true
  | .raised stored _ => stored

def Write.result : Write → Except Exn Unit
  | .done => .ok ()
  | .raised _ f => .error (.failure f)

/-- What the calls of a program come to. -/
structure Env where
  resolve : String → Except ResolveError (List IPAddress)
  slot : Except SlotError Unit
  socket : Except Failure Unit
  /-- Raised before the attempt starts, or not. -/
  sockConnect : Except Failure Unit
  /-- The end of the attempt: an error, the timeout, a cancel. -/
  connected : Except Failure Unit
  write : LedgerEntry → Write
  openConnection : Except Failure Unit

inductive Sock
  | unset
  | opened
  | closed
  deriving DecidableEq, Repr

/-- A call of the guard as it stands: what it stored, its socket, whether an
attempt was started on it, its slot and its `NETWORK_GUARD_ACTIVE`. -/
structure Call where
  entries : List LedgerEntry
  sock : Sock
  started : Bool
  inSlot : Bool
  active : Bool
  deriving DecidableEq, Repr

/-- A call that begins. -/
def Call.new (active : Bool) : Call := ⟨[], .unset, false, false, active⟩

/-- A call after a write of `entry`. -/
def Call.wrote (env : Env) (c : Call) (entry : LedgerEntry) : Call :=
  { c with entries := c.entries ++ if (env.write entry).stores then [entry] else [] }

/-- Each operation, in the environment of one call. -/
def handle (env : Env) (c : Call) : (o : Op) → Except Exn o.Answer × Call
  | .resolve hostname => ((env.resolve hostname).mapError ResolveError.exn, c)
  | .record entry => ((env.write entry).result, c.wrote env entry)
  | .slot _ => match env.slot with
    | .ok () => (.ok (), { c with inSlot := true })
    | .error e => (.error e.exn, c)
  | .release _ => (.ok (), { c with inSlot := false })
  | .setActive => (.ok c.active, { c with active := true })
  | .resetActive token => (.ok (), { c with active := token })
  | .socket _ => match env.socket with
    | .ok () => (.ok (), { c with sock := .opened, started := false })
    | .error f => (.error (.failure f), c)
  | .sockConnect _ _ => match env.sockConnect with
    | .ok () => (.ok (), { c with started := true })
    | .error f => (.error (.failure f), c)
  | .connected => (env.connected.mapError .failure, c)
  | .close => (.ok (), { c with sock := .closed })
  | .reportError _ => (.ok (), c)
  | .reportSuccess _ => (.ok (), c)
  | .openConnection _ => (env.openConnection.mapError .failure, c)

/-- Nothing fails, and names resolve to these addresses. -/
def Env.calm (addresses : List IPAddress) : Env where
  resolve _ := .ok addresses
  slot := .ok ()
  socket := .ok ()
  sockConnect := .ok ()
  connected := .ok ()
  write _ := .done
  openConnection := .ok ()

/-! ### A lab -/

def labScope : ScopeProfile :=
  (ScopeProfile.create "lab" ["127.0.0.0/24", "10.10.0.0/24"] false false).toOption.get
    (by decide +kernel)

def labAddress : IPAddress := addressLit "10.10.0.5"

def labTarget : ValidatedTarget := ⟨"10.10.0.5", .ip, [labAddress], none⟩

end ScanLedger
