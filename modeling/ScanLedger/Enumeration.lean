/-
# Protocol enumeration

The rest of `app/modules/protocol_enum.py`: a stream to each open port with one GET
on it, a second stream for `/robots.txt`, and the findings of the certificate, the
response and the directives. What a stream comes to is the environment's choice,
and so is what the certificate library reads of the bytes it is given.

Key definitions: `X509`, `certificateFinding`, `robotsFinding`, `enumerate`, `protocolEnum`,
`Published`.
Key theorems: `mem_of_enumerate`, `mem_protocolEnum`.
-/
import ScanLedger.ProtocolEnum

namespace ScanLedger

/-- `MODULE_NAME`. -/
def protocolEnumName : String := "protocol_enum"

/-! ### The certificate -/

structure TlsInfo where
  certificateDer : Option (List UInt8)
  protocol : Option String
  cipher : Option String
  deriving DecidableEq, Repr

/-- What the certificate library reads. Names are texts, and so are times; a
certificate may have no alternative names. -/
structure X509Certificate where
  subject : String
  issuer : String
  serialNumber : ℤ
  notValidBefore : String
  notValidAfter : String
  alternativeNames : Option (List String)
  issuedToIssuer : Bool
  deriving DecidableEq, Repr

/-- What the library makes of bytes, if it does not raise. -/
abbrev X509 : Type := List UInt8 → Option X509Certificate

structure CertificateDetails where
  subject : String
  issuer : String
  serial : String
  notBefore : String
  notAfter : String
  san : List String
  selfSigned : Bool
  deriving DecidableEq, Repr

/-- `format(n, "x")`. -/
def formatHex (n : ℤ) : String := (if n < 0 then "-" else "") ++ hexText n.natAbs

/-- `_parse_certificate`. -/
def parseCertificate (x509 : X509) (der : List UInt8) : Option CertificateDetails :=
  (x509 der).map fun certificate =>
    { subject := certificate.subject
      issuer := certificate.issuer
      serial := formatHex certificate.serialNumber
      notBefore := certificate.notValidBefore
      notAfter := certificate.notValidAfter
      san := certificate.alternativeNames.getD []
      selfSigned := certificate.issuedToIssuer }

section

variable (clock : String → Option ℤ → ℚ) (host : String) (port : ℤ)

/-- The finding of a certificate that could not be parsed. -/
def sessionFinding (tls : TlsInfo) : Finding where
  host := host
  port := some port
  category := .enumeration
  kind := "tls.session"
  title := host ++ ":" ++ toString port ++ " negotiated TLS"
  summary := "Negotiated " ++ (truthy tls.protocol).getD "TLS" ++ " with cipher " ++
    (truthy tls.cipher).getD "unknown" ++ ". The certificate could not be parsed and is " ++
    "reported as unreadable rather than assumed valid."
  module := protocolEnumName
  identityKey := "tls/" ++ toString port
  normalizedValue := .object [("port", .int port), ("protocol", .optional .str tls.protocol),
    ("cipher", .optional .str tls.cipher)]
  rawEvidence := none
  confidence := some .medium
  sources := []
  observedAt := clock host (some port)

/-- The finding of a certificate. -/
def detailsFinding (tls : TlsInfo) (details : CertificateDetails) : Finding where
  host := host
  port := some port
  category := .enumeration
  kind := "tls.cert"
  title := host ++ ":" ++ toString port ++ " presents a TLS certificate for " ++
    (truthy (some details.subject)).getD "an unnamed subject"
  summary := "Issued by " ++ (truthy (some details.issuer)).getD "an unnamed issuer" ++
    ", valid " ++ details.notBefore ++ " to " ++ details.notAfter ++
    (if details.san.isEmpty then "" else ", SAN: " ++ ", ".intercalate (details.san.take 5)) ++
    ". Negotiated " ++ (truthy tls.protocol).getD "TLS" ++ "."
  module := protocolEnumName
  identityKey := "tls/" ++ toString port
  normalizedValue := .object [("port", .int port), ("protocol", .optional .str tls.protocol),
    ("cipher", .optional .str tls.cipher), ("subject", .str details.subject),
    ("issuer", .str details.issuer), ("serial", .str details.serial),
    ("not_before", .str details.notBefore), ("not_after", .str details.notAfter),
    ("san", .strs details.san), ("self_signed", .bool details.selfSigned)]
  rawEvidence := none
  confidence := some .high
  sources := []
  observedAt := clock host (some port)

/-- `_certificate_finding`. -/
def certificateFinding (x509 : X509) (tls : TlsInfo) : Option Finding :=
  tls.certificateDer.map fun der => match parseCertificate x509 der with
    | none => sessionFinding clock host port tls
    | some details => detailsFinding clock host port tls details

/-! ### The directives -/

/-- What `_fetch_path` takes to be the body. -/
def bodyOf (response : HttpResponse) : String :=
  String.ofList ((Split.past blankCrlf response.rawHead.toList).getD [])

/-- The finding of `_fetch_path`. -/
def robotsFinding (response : HttpResponse) : Option Finding :=
  let content := bodyOf response
  if response.status ≠ some 200 ∨ (strip content).isEmpty then none
  else some {
    host := host
    port := some port
    category := .enumeration
    kind := "http.robots"
    title := host ++ ":" ++ toString port ++ " publishes robots.txt"
    summary := "robots.txt returned " ++ toString content.length ++ " characters of directives."
    module := protocolEnumName
    identityKey := "robots/" ++ toString port
    normalizedValue := .object [("port", .int port), ("length", .int content.length)]
    rawEvidence := some (String.ofList (content.toList.take 2000))
    confidence := some .high
    sources := []
    observedAt := clock host (some port) }

end

/-! ### One port -/

/-- What an attempt to open a stream and to make a request on it comes to. -/
inductive WebOutcome
  /-- What the handshake told, and what the exchange comes to or raises. -/
  | opened (tls : Option TlsInfo) (exchange : Except Exn Exchange)
  /-- A timeout, or another `OSError`. -/
  | failed
  | raised (x : Exn)

/-- What the stream for each path comes to, whether a cancel was requested before the
first, and what certificates are. -/
structure WebServices where
  cancelled : String → ℤ → Bool
  stream : IPAddress → ℤ → String → WebOutcome
  x509 : X509

section

variable (u : CharTables) (web : WebServices) (target : ValidatedTarget)
  (clock : String → Option ℤ → ℚ)

/-- `_fetch_path`. -/
def fetchPath (host : String) (port : ℤ) (a : IPAddress) (path : String) :
    Except Exn (Option Finding) :=
  match web.stream a port path with
  | .raised x => .error x
  | .failed => .ok none
  | .opened _ exchange => do
    let exchange ← exchange
    return (fetch u exchange).bind (robotsFinding clock host port)

/-- `_enumerate`. -/
def enumerate (factory : String × ℤ) : Except Exn (List Finding) :=
  let (host, port) := factory
  if web.cancelled host port then .ok []
  else match addressFor target host with
  | none => .ok []
  | some a => match web.stream a port "/" with
    | .raised x => .error x
    | .failed => .ok []
    | .opened tls exchange => do
      let exchange ← exchange
      let robots ← fetchPath u web clock host port a "/robots.txt"
      return (tls.bind (certificateFinding clock host port web.x509)).toList ++
        ((fetch u exchange).toList.flatMap fun response =>
          httpFindings clock host port response (decide (port ∈ tlsPorts))) ++ robots.toList

/-! ### The module -/

def enumerationWaveSize : ℕ := 16

/-- `run`. -/
def protocolEnum (priorFindings : List Finding) : Except Exn ModuleResult :=
  if (openPortsByHost priorFindings).isEmpty then
    .ok ⟨[], false, ["no open ports were available from this scan to enumerate"]⟩
  else do
    let (found, budgetReached) ← collectOutcomes
      (inBoundedWaves (fun factory => (enumerate u web target clock factory).map some)
        (openFactories priorFindings) enumerationWaveSize)
    return ⟨found.flatten, false, if budgetReached then
      ["the governor's probe budget was reached; some ports were not enumerated"] else []⟩

end

/-! ### What is found -/

section

variable {u : CharTables} {web : WebServices} {target : ValidatedTarget}
  {clock : String → Option ℤ → ℚ} {f : Finding}

/-- The finding is that of a certificate, a response or the directives of this port:
what its service publishes about itself. -/
inductive Published (clock : String → Option ℤ → ℚ) (x509 : X509) (host : String) (port : ℤ)
    (f : Finding) : Prop
  | certificate (tls : TlsInfo) (h : certificateFinding clock host port x509 tls = some f)
  | response (response : HttpResponse) (useTls : Bool)
      (h : f ∈ httpFindings clock host port response useTls)
  | directives (response : HttpResponse) (h : robotsFinding clock host port response = some f)

theorem directives_of_fetchPath {host path : String} {port : ℤ} {a : IPAddress}
    (h : fetchPath u web clock host port a path = .ok (some f)) :
    ∃ response, robotsFinding clock host port response = some f := by
  unfold fetchPath at h
  split at h
  · cases h
  · cases h
  · obtain ⟨exchange, -, h⟩ := Raising.bind_eq_ok.mp h
    cases hfetch : fetch u exchange with
    | none =>
      rw [hfetch] at h
      cases h
    | some response =>
      rw [hfetch] at h
      exact ⟨response, Except.ok.inj h⟩

theorem mem_of_enumerate {host : String} {port : ℤ} {found : List Finding}
    (h : enumerate u web target clock (host, port) = .ok found) (hf : f ∈ found) :
    Published clock web.x509 host port f := by
  unfold enumerate at h
  dsimp only at h
  split_ifs at h with hcancelled
  · cases h
    cases hf
  split at h
  · cases h
    cases hf
  split at h
  · cases h
  · cases h
    cases hf
  · obtain ⟨exchange, -, h⟩ := Raising.bind_eq_ok.mp h
    obtain ⟨robots, hrobots, h⟩ := Raising.bind_eq_ok.mp h
    cases h
    rw [List.mem_append, List.mem_append, List.mem_flatMap] at hf
    rcases hf with (hf | ⟨response, -, hf⟩) | hf
    · obtain ⟨tls, -, htls⟩ := Option.bind_eq_some_iff.mp (Option.mem_toList.mp hf)
      exact .certificate tls htls
    · exact .response response _ hf
    · rw [Option.mem_toList.mp hf] at hrobots
      obtain ⟨response, hresponse⟩ := directives_of_fetchPath hrobots
      exact .directives response hresponse

/-- **What is enumerated** is a finding of an open port. -/
theorem mem_protocolEnum {priorFindings : List Finding} {result : ModuleResult}
    (h : protocolEnum u web target clock priorFindings = .ok result) (hf : f ∈ result.findings) :
    ∃ host port, (host, port) ∈ openPairs priorFindings ∧
      Published clock web.x509 host port f := by
  unfold protocolEnum at h
  split_ifs at h with hnone
  · cases h
    cases hf
  · obtain ⟨⟨found, budgetReached⟩, hcollected, h⟩ := Raising.bind_eq_ok.mp h
    cases h
    obtain ⟨findings, hfindings, hf⟩ := List.mem_flatten.mp hf
    obtain ⟨⟨host, port⟩, hfactory, hrun⟩ := mem_of_inBoundedWaves hcollected hfindings
    obtain ⟨_, henumerate, hfound⟩ := Raising.map_eq_ok.mp hrun
    cases hfound
    exact ⟨host, port, mem_openFactories.mp hfactory, mem_of_enumerate henumerate hf⟩

end

end ScanLedger
