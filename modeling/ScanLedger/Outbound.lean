/-
# The gateway to the CVE providers

`app/services/outbound.py`: a URL is checked against the allowlist, and then sent
up to four times until a provider answers for good. What a provider answers, how
long a jittered pause lasts, and what `urlsplit` and `float` make of a text are
the environment's.

Each request takes one grant of the limiter, and the first final answer ends the
call. A pause stands between two attempts, but the pause after a rate limit or a
server error is taken after the last attempt too, where no request follows
(`retry_iff`).

Key definitions: `checkUrl`, `OutboundGateway.headers`,
`OutboundGateway.getJson`, `RetrySpec`.
Key theorems: `checkUrl_eq_ok_iff`, `apiKey_nvd`, `attemptsFrom_retry`, `attemptsFrom_final`,
`sleep_le`, `retry_iff`.
-/
import ScanLedger.Lib.Json
import ScanLedger.Text
import ScanLedger.WindowLimit

namespace ScanLedger

/-! ### Addresses of providers -/

def nvdHost : String := "services.nvd.nist.gov"
def kevHost : String := "www.cisa.gov"

/-- `ALLOWED_PROVIDER_HOSTS`, sorted. -/
def allowedProviderHosts : List String := [nvdHost, kevHost]

/-- What `urlsplit` reads of a URL. -/
structure UrlParts where
  scheme : String
  hostname : Option String
  deriving DecidableEq, Repr

/-- `DisallowedProviderHost`, with its message. -/
structure DisallowedProviderHost where
  message : String
  deriving DecidableEq, Repr

/-- What the gateway calls that is not its own: `urlsplit`, `str.lower`, `float`
of a text or a `ValueError`, whether `asyncio.sleep` takes a NaN (it raises a
`ValueError` from Python 3.13 on), and `random.random()` for the pause after an
attempt. -/
structure OutboundEnv where
  urlsplit : String → UrlParts
  lower : String → String
  float : String → Option FloatValue
  sleepTakesNan : Bool
  random : ℕ → ℚ
  random_nonneg : ∀ n, 0 ≤ random n
  random_le_one : ∀ n, random n ≤ 1

structure OutboundGateway where
  userAgent : String
  nvdApiKey : Option String
  /-- No client was given, so `get_json` opens and closes its own. -/
  ownsClient : Bool

def checkUrl (env : OutboundEnv) (url : String) : Except DisallowedProviderHost String :=
  let parts := env.urlsplit url
  if parts.scheme ≠ "https" then
    .error ⟨repr url ++ " is not https - provider calls must be HTTPS"⟩
  else
    let host := env.lower (parts.hostname.getD "")
    if host ∉ allowedProviderHosts then
      .error ⟨repr host ++ " is not an allowlisted CVE provider (allowed: " ++
        ", ".intercalate allowedProviderHosts ++ ")"⟩
    else .ok url

namespace OutboundGateway

variable (gateway : OutboundGateway)

/-- `api_key_configured`. -/
def apiKeyConfigured : Bool := gateway.nvdApiKey.any fun key => !key.isEmpty

/-- The limiter that the gateway is made with. -/
def limiter : WindowLimit := if gateway.apiKeyConfigured then keyedLimit else publicLimit

def headers (env : OutboundEnv) (url : String) : List (String × String) :=
  [("User-Agent", gateway.userAgent), ("Accept", "application/json")] ++
    match gateway.nvdApiKey with
    | some key =>
      if !key.isEmpty ∧ (env.urlsplit url).hostname = some nvdHost then [("apiKey", key)] else []
    | none => []

end OutboundGateway

/-! ### Answers -/

/-- What an attempt comes to. -/
inductive ProviderAnswer
  /-- `httpx.HTTPError`. -/
  | transportError (text : String)
  /-- The status, what `response.json()` gives or the text of its `ValueError`, and
  the `Retry-After` header. -/
  | response (statusCode : ℤ) (json : Except String Json) (retryAfter : Option String)

/-- `ProviderUnavailable`, and `ProviderRateLimited`, which is one. -/
inductive ProviderError
  | unavailable (message : String) (status : Option ℤ)
  | rateLimited (message : String) (status : Option ℤ)
  deriving DecidableEq, Repr

structure ProviderResponse where
  statusCode : ℤ
  payload : Json
  deriving DecidableEq, Repr

/-- What a call does, in order. -/
inductive OutboundEvent
  /-- `limiter.acquire()` returned. -/
  | grant
  | request (url : String) (params headers : List (String × String))
  | sleep (seconds : FloatValue)
  /-- `client.aclose()`. -/
  | close
  deriving DecidableEq, Repr

def maxAttempts : ℕ := 4
def baseBackoffSeconds : ℚ := 1
def maxRetryBackoffSeconds : ℚ := 30

/-- `min(x, bound)`, which keeps a NaN. -/
def minFloat (x : FloatValue) (bound : ℚ) : FloatValue :=
  match x with
  | .finite q => .finite (min q bound)
  | .infinity true => .infinity true
  | .infinity false => .finite bound
  | .nan => .nan

/-- `_sleep_before_retry`, with the `Retry-After` of the response, if there is a
response. -/
def sleepBeforeRetry (env : OutboundEnv) (attempt : ℕ) (response : Option (Option String)) :
    List OutboundEvent :=
  let ceiling := min (baseBackoffSeconds * 2 ^ (attempt - 1)) maxRetryBackoffSeconds
  let jittered : List OutboundEvent := [.sleep (.finite (ceiling * env.random attempt))]
  match response with
  | some (some retryAfter) =>
    if retryAfter.isEmpty then jittered
    else match env.float retryAfter with
      | none => jittered
      | some x =>
        if minFloat x maxRetryBackoffSeconds = .nan ∧ env.sleepTakesNan = false then jittered
        else [.sleep (minFloat x maxRetryBackoffSeconds)]
  | _ => jittered

section

variable (env : OutboundEnv) (send : List OutboundEvent) (answers : ℕ → ProviderAnswer)

/-- The loop of `get_json` from an attempt on, with the attempts that are left and
`last_error`. -/
def attemptsFrom : ℕ → ℕ → Option ProviderError →
    List OutboundEvent × Except ProviderError ProviderResponse
  | 0, _, lastError =>
    ([], .error (lastError.getD (.unavailable "the provider could not be reached" none)))
  | left + 1, attempt, _ => match answers attempt with
    | .transportError text =>
      let lastError := .unavailable ("could not reach the provider: " ++ text) none
      let pause := if attempt < maxAttempts then sleepBeforeRetry env attempt none else []
      let (events, result) := attemptsFrom left (attempt + 1) (some lastError)
      (send ++ pause ++ events, result)
    | .response statusCode json retryAfter =>
      if statusCode = 200 then match json with
        | .ok payload => (send, .ok ⟨200, payload⟩)
        | .error text =>
          (send, .error
            (.unavailable ("the provider returned unreadable JSON: " ++ text) (some 200)))
      else if statusCode = 403 ∨ statusCode = 429 then
        let lastError := .rateLimited "the provider is rate limiting ScanLedger" (some statusCode)
        let (events, result) := attemptsFrom left (attempt + 1) (some lastError)
        (send ++ sleepBeforeRetry env attempt (some retryAfter) ++ events, result)
      else if 500 ≤ statusCode ∧ statusCode < 600 then
        let lastError := .unavailable ("the provider returned " ++ toString statusCode)
          (some statusCode)
        let (events, result) := attemptsFrom left (attempt + 1) (some lastError)
        (send ++ sleepBeforeRetry env attempt (some retryAfter) ++ events, result)
      else (send, .error
        (.unavailable ("the provider returned " ++ toString statusCode) (some statusCode)))

end

/-- `get_json`: what is done, and what is returned or raised. Attempts count from
one. -/
def OutboundGateway.getJson (gateway : OutboundGateway) (env : OutboundEnv) (url : String)
    (params : List (String × String)) (answers : ℕ → ProviderAnswer) :
    Except DisallowedProviderHost
      (List OutboundEvent × Except ProviderError ProviderResponse) := do
  let url ← checkUrl env url
  let send := [.grant, .request url params (gateway.headers env url)]
  let (events, result) := attemptsFrom env send answers maxAttempts 1 none
  return (events ++ if gateway.ownsClient then [.close] else [], result)

/-! ### One attempt -/

/-- The error of an answer that is worth another attempt. -/
def ProviderAnswer.retryError : ProviderAnswer → Option ProviderError
  | .transportError text => some (.unavailable ("could not reach the provider: " ++ text) none)
  | .response statusCode _ _ =>
    if statusCode = 403 ∨ statusCode = 429 then
      some (.rateLimited "the provider is rate limiting ScanLedger" (some statusCode))
    else if 500 ≤ statusCode ∧ statusCode < 600 then
      some (.unavailable ("the provider returned " ++ toString statusCode) (some statusCode))
    else none

def ProviderAnswer.isResponse : ProviderAnswer → Bool
  | .transportError _ => false
  | .response _ _ _ => true

/-- What a call comes to with an answer that is final. -/
def ProviderAnswer.outcome : ProviderAnswer → Except ProviderError ProviderResponse
  | .response 200 (.ok payload) _ => .ok ⟨200, payload⟩
  | .response 200 (.error text) _ =>
    .error (.unavailable ("the provider returned unreadable JSON: " ++ text) (some 200))
  | .response statusCode _ _ =>
    .error (.unavailable ("the provider returned " ++ toString statusCode) (some statusCode))
  | .transportError text => .error (.unavailable ("could not reach the provider: " ++ text) none)

section

variable {send : List OutboundEvent} {answers : ℕ → ProviderAnswer}

/-- There is one pause, of thirty seconds at most. -/
theorem sleep_le (env : OutboundEnv) (attempt : ℕ) (response : Option (Option String)) :
    ∃ seconds, sleepBeforeRetry env attempt response = [.sleep seconds] ∧
      ∀ q, seconds = .finite q → q ≤ maxRetryBackoffSeconds := by
  have hceiling : min (baseBackoffSeconds * 2 ^ (attempt - 1)) maxRetryBackoffSeconds *
      env.random attempt ≤ maxRetryBackoffSeconds := by
    have hpos : 0 ≤ min (baseBackoffSeconds * 2 ^ (attempt - 1)) maxRetryBackoffSeconds := by
      unfold baseBackoffSeconds maxRetryBackoffSeconds
      positivity
    exact (mul_le_of_le_one_right hpos (env.random_le_one attempt)).trans (min_le_right _ _)
  have hjitter : ∀ q, FloatValue.finite (min (baseBackoffSeconds * 2 ^ (attempt - 1))
      maxRetryBackoffSeconds * env.random attempt) = .finite q → q ≤ maxRetryBackoffSeconds := by
    intro q hq
    rw [← FloatValue.finite.inj hq]
    exact hceiling
  have hmin : ∀ x q, minFloat x maxRetryBackoffSeconds = .finite q →
      q ≤ maxRetryBackoffSeconds := by
    intro x q hq
    unfold minFloat at hq
    split at hq
    · rw [← FloatValue.finite.inj hq]
      exact min_le_right _ _
    · cases hq
    · rw [← FloatValue.finite.inj hq]
    · cases hq
  unfold sleepBeforeRetry
  dsimp only
  split
  · split_ifs
    · exact ⟨_, rfl, hjitter⟩
    · split
      · exact ⟨_, rfl, hjitter⟩
      · split_ifs
        · exact ⟨_, rfl, hjitter⟩
        · exact ⟨_, rfl, hmin _⟩
  · exact ⟨_, rfl, hjitter⟩

/-- An attempt that is worth another one is followed by a pause and the attempts
left, and the pause after a response does not ask whether there are any. -/
theorem attemptsFrom_retry (env : OutboundEnv) (send : List OutboundEvent) (left : ℕ)
    (lastError : Option ProviderError) {attempt : ℕ} {error : ProviderError}
    (h : (answers attempt).retryError = some error) :
    ∃ pause, (pause = [] ∨ ∃ seconds, pause = [.sleep seconds]) ∧
      (pause = [] ↔ ¬ attempt < maxAttempts ∧ (answers attempt).isResponse = false) ∧
      attemptsFrom env send answers (left + 1) attempt lastError =
        (send ++ pause ++ (attemptsFrom env send answers left (attempt + 1) (some error)).1,
          (attemptsFrom env send answers left (attempt + 1) (some error)).2) := by
  cases hanswer : answers attempt with
  | transportError text =>
    rw [hanswer] at h
    have herror := Option.some.inj h
    refine ⟨if attempt < maxAttempts then sleepBeforeRetry env attempt none else [], ?_, ?_, ?_⟩
    · split_ifs
      · obtain ⟨seconds, hsleep, -⟩ := sleep_le env attempt none
        exact .inr ⟨seconds, hsleep⟩
      · exact .inl rfl
    · obtain ⟨seconds, hsleep, -⟩ := sleep_le env attempt none
      rw [hsleep]
      unfold ProviderAnswer.isResponse
      by_cases hlt : attempt < maxAttempts <;> simp [hlt]
    · rw [attemptsFrom, hanswer, ← herror]
  | response statusCode json retryAfter =>
    obtain ⟨seconds, hsleep, -⟩ := sleep_le env attempt (some retryAfter)
    refine ⟨_, .inr ⟨seconds, hsleep⟩, ?_, ?_⟩
    · rw [hsleep]
      simp [ProviderAnswer.isResponse]
    · rw [hanswer] at h
      unfold ProviderAnswer.retryError at h
      dsimp only at h
      rw [attemptsFrom, hanswer]
      dsimp only
      by_cases hlimited : statusCode = 403 ∨ statusCode = 429
      · have hok : statusCode ≠ 200 := by omega
        rw [if_pos hlimited] at h
        rw [if_neg hok, if_pos hlimited, ← Option.some.inj h]
      · rw [if_neg hlimited] at h
        by_cases hserver : 500 ≤ statusCode ∧ statusCode < 600
        · have hok : statusCode ≠ 200 := by omega
          rw [if_pos hserver] at h
          rw [if_neg hok, if_neg hlimited, if_pos hserver, ← Option.some.inj h]
        · rw [if_neg hserver] at h
          cases h

/-- A final answer ends the call. -/
theorem attemptsFrom_final {env : OutboundEnv} {left attempt : ℕ} {lastError : Option ProviderError}
    (h : (answers attempt).retryError = none) :
    attemptsFrom env send answers (left + 1) attempt lastError =
      (send, (answers attempt).outcome) := by
  cases hanswer : answers attempt with
  | transportError text =>
    rw [hanswer] at h
    cases h
  | response statusCode json retryAfter =>
    rw [hanswer] at h
    unfold ProviderAnswer.retryError at h
    dsimp only at h
    split_ifs at h with hlimited hserver
    rw [attemptsFrom, hanswer]
    dsimp only
    by_cases hok : statusCode = 200
    · subst hok
      cases json <;> rfl
    · rw [if_neg hok, if_neg hlimited, if_neg hserver]
      unfold ProviderAnswer.outcome
      split
      · rename_i heq
        cases heq
        exact absurd rfl hok
      · rename_i heq
        cases heq
        exact absurd rfl hok
      · rename_i heq
        cases heq
        rfl
      · rename_i heq
        cases heq

end

/-! ### What a call does -/

namespace OutboundEvent

def isRequest : OutboundEvent → Bool
  | .request _ _ _ => true
  | _ => false

def isGrantOrRequest : OutboundEvent → Bool
  | .grant | .request _ _ _ => true
  | _ => false

end OutboundEvent

/-- A request follows each pause. -/
def SleepsFollowed : List OutboundEvent → Prop
  | [] => True
  | .sleep _ :: events => events.any OutboundEvent.isRequest = true ∧ SleepsFollowed events
  | .grant :: events | .request _ _ _ :: events | .close :: events => SleepsFollowed events

theorem sleepsFollowed_append {after : List OutboundEvent}
    (h : after.any OutboundEvent.isRequest = true) : ∀ before : List OutboundEvent,
    SleepsFollowed (before ++ after) ↔ SleepsFollowed after
  | [] => Iff.rfl
  | .sleep seconds :: before => by
    have hfollowed : (before ++ after).any OutboundEvent.isRequest = true := by
      rw [List.any_append, h, Bool.or_true]
    exact (and_iff_right hfollowed).trans (sleepsFollowed_append h before)
  | .grant :: before | .request _ _ _ :: before | .close :: before =>
    sleepsFollowed_append h before

theorem sleepsFollowed_close : ∀ events : List OutboundEvent,
    SleepsFollowed (events ++ [.close]) ↔ SleepsFollowed events
  | [] => Iff.rfl
  | .sleep seconds :: events => by
    have hsame : (events ++ [OutboundEvent.close]).any OutboundEvent.isRequest =
        events.any OutboundEvent.isRequest := by
      rw [List.any_append]
      exact Bool.or_false _
    exact and_congr (iff_of_eq (congrArg (· = true) hsame)) (sleepsFollowed_close events)
  | .grant :: events | .request _ _ _ :: events | .close :: events =>
    sleepsFollowed_close events

section

variable {env : OutboundEnv} {answers : ℕ → ProviderAnswer} {url : String}
  {params headers : List (String × String)}

/-- A grant, and the request it is for. -/
def granted (url : String) (params headers : List (String × String)) : List OutboundEvent :=
  [.grant, .request url params headers]

/-- The grants and requests of `n` attempts. -/
def grantedTimes (url : String) (params headers : List (String × String)) (n : ℕ) :
    List OutboundEvent := (List.replicate n (granted url params headers)).flatten

/-- An attempt that is worth another one adds a grant and a request. -/
theorem filter_granted {pause events : List OutboundEvent} {n : ℕ}
    (hpause : pause = [] ∨ ∃ seconds, pause = [.sleep seconds])
    (h : events.filter OutboundEvent.isGrantOrRequest = grantedTimes url params headers n) :
    (granted url params headers ++ pause ++ events).filter OutboundEvent.isGrantOrRequest =
      grantedTimes url params headers (n + 1) := by
  have hnone : pause.filter OutboundEvent.isGrantOrRequest = [] := by
    rcases hpause with rfl | ⟨seconds, rfl⟩ <;> rfl
  rw [List.filter_append, List.filter_append, hnone, h]
  rfl

variable (env url params headers) in
/-- The first final answer ends the call. -/
theorem attemptsFrom_stops : ∀ {n left attempt : ℕ} (lastError : Option ProviderError), n < left →
    (∀ i < n, (answers (attempt + i)).retryError.isSome) →
    (answers (attempt + n)).retryError = none →
    (attemptsFrom env (granted url params headers) answers left attempt lastError).1.filter
        OutboundEvent.isGrantOrRequest = grantedTimes url params headers (n + 1) ∧
      (attemptsFrom env (granted url params headers) answers left attempt lastError).1.any
        OutboundEvent.isRequest = true ∧
      SleepsFollowed
        (attemptsFrom env (granted url params headers) answers left attempt lastError).1 ∧
      (attemptsFrom env (granted url params headers) answers left attempt lastError).2 =
        (answers (attempt + n)).outcome
  | 0, left + 1, attempt, lastError, _, _, hfinal => by
    rw [Nat.add_zero] at hfinal ⊢
    rw [attemptsFrom_final hfinal]
    exact ⟨rfl, rfl, trivial, rfl⟩
  | n + 1, left + 1, attempt, lastError, hlt, hretry, hfinal => by
    obtain ⟨error, herror⟩ := Option.isSome_iff_exists.mp (hretry 0 (Nat.zero_lt_succ n))
    rw [Nat.add_zero] at herror
    obtain ⟨pause, hpause, -, hattempt⟩ :=
      attemptsFrom_retry env (granted url params headers) left lastError herror
    have hshift : ∀ i, attempt + 1 + i = attempt + (i + 1) := fun i => by omega
    have hrest : ∀ i < n, (answers (attempt + 1 + i)).retryError.isSome := by
      intro i hi
      rw [hshift]
      exact hretry (i + 1) (Nat.succ_lt_succ hi)
    rw [← hshift] at hfinal ⊢
    obtain ⟨hfilter, hany, hsleeps, hresult⟩ :=
      attemptsFrom_stops (some error) (Nat.lt_of_succ_lt_succ hlt) hrest hfinal
    rw [hattempt]
    refine ⟨filter_granted hpause hfilter, ?_, (sleepsFollowed_append hany _).mpr hsleeps, hresult⟩
    rw [List.any_append, hany, Bool.or_true]

variable (env url params headers) in
/-- The attempts that are left are all made, and the last error is raised. With a
response, the last attempt ends in a pause that nothing follows. -/
theorem attemptsFrom_exhausted : ∀ {left attempt : ℕ} (lastError : Option ProviderError),
    attempt + left = maxAttempts →
    (∀ i < left + 1, (answers (attempt + i)).retryError.isSome) →
    ∃ error, (answers maxAttempts).retryError = some error ∧
      (attemptsFrom env (granted url params headers) answers (left + 1) attempt lastError).1.filter
        OutboundEvent.isGrantOrRequest = grantedTimes url params headers (left + 1) ∧
      (attemptsFrom env (granted url params headers) answers (left + 1) attempt lastError).1.any
        OutboundEvent.isRequest = true ∧
      (attemptsFrom env (granted url params headers) answers (left + 1) attempt lastError).2 =
        .error error ∧
      (SleepsFollowed
          (attemptsFrom env (granted url params headers) answers (left + 1) attempt lastError).1 ↔
        (answers maxAttempts).isResponse = false)
  | 0, attempt, lastError, hlast, hretry => by
    obtain ⟨error, herror⟩ := Option.isSome_iff_exists.mp (hretry 0 Nat.one_pos)
    rw [Nat.add_zero] at herror hlast
    obtain ⟨pause, hpause, hnone, hattempt⟩ :=
      attemptsFrom_retry env (granted url params headers) 0 lastError herror
    have hend : attemptsFrom env (granted url params headers) answers 0 (attempt + 1)
        (some error) = ([], .error error) := rfl
    rw [hattempt, hend]
    subst hlast
    refine ⟨error, herror, filter_granted hpause rfl, rfl, rfl, ?_⟩
    rcases hpause with rfl | ⟨seconds, rfl⟩
    · exact iff_of_true trivial (hnone.mp rfl).2
    · refine iff_of_false ?_ ?_
      · rintro ⟨hfollowed, -⟩
        cases hfollowed
      · intro hresponse
        cases hnone.mpr ⟨lt_irrefl _, hresponse⟩
  | left + 1, attempt, lastError, hlast, hretry => by
    obtain ⟨error, herror⟩ := Option.isSome_iff_exists.mp (hretry 0 (Nat.zero_lt_succ _))
    rw [Nat.add_zero] at herror
    obtain ⟨pause, hpause, -, hattempt⟩ :=
      attemptsFrom_retry env (granted url params headers) (left + 1) lastError herror
    have hshift : ∀ i, attempt + 1 + i = attempt + (i + 1) := fun i => by omega
    have hrest : ∀ i < left + 1, (answers (attempt + 1 + i)).retryError.isSome := by
      intro i hi
      rw [hshift]
      exact hretry (i + 1) (Nat.succ_lt_succ hi)
    obtain ⟨last, hlastError, hfilter, hany, hresult, hsleeps⟩ :=
      attemptsFrom_exhausted (some error) ((hshift left).trans hlast) hrest
    rw [hattempt]
    refine ⟨last, hlastError, filter_granted hpause hfilter, ?_, hresult,
      (sleepsFollowed_append hany _).trans hsleeps⟩
    rw [List.any_append, hany, Bool.or_true]

end

/-! ### The retry law -/

def ProviderError.isRateLimited : ProviderError → Bool
  | .unavailable _ _ => false
  | .rateLimited _ _ => true

/-- The answer number `n`, from zero, is the first final one. -/
def FirstFinal (answers : ℕ → ProviderAnswer) (n : ℕ) : Prop :=
  (∀ i < n, (answers (i + 1)).retryError.isSome) ∧ (answers (n + 1)).retryError = none

/-- What a call does and comes to, by the answers. -/
structure RetrySpec (url : String) (params headers : List (String × String))
    (answers : ℕ → ProviderAnswer)
    (call : List OutboundEvent × Except ProviderError ProviderResponse) : Prop where
  /-- Each request has the one grant before it. -/
  paired : ∃ n ≤ maxAttempts,
    call.1.filter OutboundEvent.isGrantOrRequest = grantedTimes url params headers n
  stops : ∀ n < maxAttempts, FirstFinal answers n →
    call.1.filter OutboundEvent.isGrantOrRequest = grantedTimes url params headers (n + 1)
  returns : ∀ n < maxAttempts, FirstFinal answers n → ∀ response, call.2 = .ok response ↔
    ∃ retryAfter, answers (n + 1) = .response 200 (.ok response.payload) retryAfter ∧
      response.statusCode = 200
  raises : ∀ n < maxAttempts, FirstFinal answers n →
    (∀ payload retryAfter, answers (n + 1) ≠ .response 200 (.ok payload) retryAfter) →
    ∃ message status, call.2 = .error (.unavailable message status)
  exhausted : (∀ i < maxAttempts, (answers (i + 1)).retryError.isSome) →
    ∃ error, (answers maxAttempts).retryError = some error ∧ call.2 = .error error ∧
      (error.isRateLimited = true ↔ ∃ statusCode json retryAfter,
        answers maxAttempts = .response statusCode json retryAfter ∧
        (statusCode = 403 ∨ statusCode = 429))
  slept : SleepsFollowed call.1

/-- The first final answer, or none within the attempts. -/
theorem firstFinal_or_retry (answers : ℕ → ProviderAnswer) : ∀ bound : ℕ,
    (∃ n < bound, FirstFinal answers n) ∨ ∀ i < bound, (answers (i + 1)).retryError.isSome
  | 0 => .inr fun i hi => absurd hi (Nat.not_lt_zero i)
  | bound + 1 => by
    rcases firstFinal_or_retry answers bound with ⟨n, hn, hfinal⟩ | hretry
    · exact .inl ⟨n, Nat.lt_succ_of_lt hn, hfinal⟩
    · cases hlast : (answers (bound + 1)).retryError with
      | none => exact .inl ⟨bound, Nat.lt_succ_self bound, hretry, hlast⟩
      | some error =>
        refine .inr fun i hi => ?_
        rcases Nat.lt_succ_iff_lt_or_eq.mp hi with hlt | rfl
        · exact hretry i hlt
        · rw [hlast]
          rfl

theorem FirstFinal.unique {answers : ℕ → ProviderAnswer} {n n' : ℕ} (h : FirstFinal answers n)
    (h' : FirstFinal answers n') : n = n' := by
  have hnot : ∀ {n n'}, FirstFinal answers n → FirstFinal answers n' → ¬ n < n' := by
    intro n n' hn hn' hlt
    have hsome := hn'.1 n hlt
    rw [hn.2] at hsome
    cases hsome
  exact le_antisymm (not_lt.mp (hnot h' h)) (not_lt.mp (hnot h h'))

/-- The answers of which the last error is a rate limit. -/
theorem isRateLimited_iff {answer : ProviderAnswer} {error : ProviderError}
    (h : answer.retryError = some error) :
    error.isRateLimited = true ↔ ∃ statusCode json retryAfter,
      answer = .response statusCode json retryAfter ∧ (statusCode = 403 ∨ statusCode = 429) := by
  cases answer with
  | transportError text =>
    rw [← Option.some.inj h]
    refine iff_of_false Bool.false_ne_true ?_
    rintro ⟨statusCode, json, retryAfter, hanswer, -⟩
    cases hanswer
  | response statusCode json retryAfter =>
    unfold ProviderAnswer.retryError at h
    dsimp only at h
    split_ifs at h with hlimited hserver
    · rw [← Option.some.inj h]
      exact iff_of_true rfl ⟨statusCode, json, retryAfter, rfl, hlimited⟩
    · rw [← Option.some.inj h]
      refine iff_of_false Bool.false_ne_true ?_
      rintro ⟨statusCode', json', retryAfter', hanswer, hlimited'⟩
      cases hanswer
      exact hlimited hlimited'

/-- A final answer is returned exactly if it is a success with readable JSON. -/
theorem outcome_eq_ok_iff {answer : ProviderAnswer} {response : ProviderResponse} :
    answer.outcome = .ok response ↔ ∃ retryAfter,
      answer = .response 200 (.ok response.payload) retryAfter ∧ response.statusCode = 200 := by
  constructor
  · intro h
    unfold ProviderAnswer.outcome at h
    split at h
    · cases h
      exact ⟨_, rfl, rfl⟩
    all_goals cases h
  · rintro ⟨retryAfter, rfl, hstatus⟩
    obtain ⟨statusCode, payload⟩ := response
    subst hstatus
    rfl

theorem outcome_eq_error {answer : ProviderAnswer}
    (h : ∀ payload retryAfter, answer ≠ .response 200 (.ok payload) retryAfter) :
    ∃ message status, answer.outcome = .error (.unavailable message status) := by
  unfold ProviderAnswer.outcome
  split
  · exact absurd rfl (h _ _)
  all_goals exact ⟨_, _, rfl⟩

/-! ### Calls of the gateway -/

theorem checkUrl_eq_ok_iff {env : OutboundEnv} {url url' : String} :
    checkUrl env url = .ok url' ↔ url' = url ∧ (env.urlsplit url).scheme = "https" ∧
      env.lower ((env.urlsplit url).hostname.getD "") ∈ allowedProviderHosts := by
  unfold checkUrl
  dsimp only
  by_cases hscheme : (env.urlsplit url).scheme = "https"
  · by_cases hhost : env.lower ((env.urlsplit url).hostname.getD "") ∈ allowedProviderHosts
    · rw [if_neg (not_not.mpr hscheme), if_neg (not_not.mpr hhost)]
      exact ⟨fun h => ⟨(Except.ok.inj h).symm, hscheme, hhost⟩, fun h => by rw [h.1]⟩
    · rw [if_neg (not_not.mpr hscheme), if_pos hhost]
      exact iff_of_false nofun fun h => hhost h.2.2
  · rw [if_pos hscheme]
    exact iff_of_false nofun fun h => hscheme h.2.1

section

variable {gateway : OutboundGateway} {env : OutboundEnv} {url : String}
  {params : List (String × String)} {answers : ℕ → ProviderAnswer}

/-- The API key goes only to NVD. -/
theorem apiKey_nvd {key : String} (h : ("apiKey", key) ∈ gateway.headers env url) :
    gateway.nvdApiKey = some key ∧ (env.urlsplit url).hostname = some nvdHost := by
  unfold OutboundGateway.headers at h
  rcases List.mem_append.mp h with hfixed | hkey
  · simp at hfixed
  · cases hconfigured : gateway.nvdApiKey with
    | none =>
      rw [hconfigured] at hkey
      cases hkey
    | some configured =>
      rw [hconfigured] at hkey
      dsimp only at hkey
      split_ifs at hkey with hsent
      · cases List.mem_singleton.mp hkey
        exact ⟨rfl, hsent.2⟩
      · cases hkey

/-- A call to a URL off the allowlist does nothing. -/
theorem getJson_disallowed {error : DisallowedProviderHost} (h : checkUrl env url = .error error) :
    gateway.getJson env url params answers = .error error := by
  unfold OutboundGateway.getJson
  rw [h]
  rfl

theorem getJson_allowed (gateway : OutboundGateway) (params : List (String × String))
    (answers : ℕ → ProviderAnswer) (h : checkUrl env url = .ok url) :
    ∃ close, (close = [] ∨ close = [OutboundEvent.close]) ∧
      gateway.getJson env url params answers =
        .ok ((attemptsFrom env (granted url params (gateway.headers env url)) answers maxAttempts 1
            none).1 ++ close,
          (attemptsFrom env (granted url params (gateway.headers env url)) answers maxAttempts 1
            none).2) := by
  refine ⟨if gateway.ownsClient then [.close] else [], ?_, ?_⟩
  · split_ifs
    · exact .inr rfl
    · exact .inl rfl
  · unfold OutboundGateway.getJson
    rw [h]
    rfl

theorem filter_close {close : List OutboundEvent}
    (h : close = [] ∨ close = [OutboundEvent.close]) (events : List OutboundEvent) :
    (events ++ close).filter OutboundEvent.isGrantOrRequest =
      events.filter OutboundEvent.isGrantOrRequest := by
  have hnone : close.filter OutboundEvent.isGrantOrRequest = [] := by
    rcases h with rfl | rfl <;> rfl
  rw [List.filter_append, hnone, List.append_nil]

theorem sleepsFollowed_end {close : List OutboundEvent}
    (h : close = [] ∨ close = [OutboundEvent.close]) (events : List OutboundEvent) :
    SleepsFollowed (events ++ close) ↔ SleepsFollowed events := by
  rcases h with rfl | rfl
  · rw [List.append_nil]
  · exact sleepsFollowed_close events

/-- A call with a final answer keeps the law. -/
theorem RetrySpec.of_final {n : ℕ}
    {call : List OutboundEvent × Except ProviderError ProviderResponse}
    {headers : List (String × String)} (hn : n < maxAttempts) (hfinal : FirstFinal answers n)
    (hfilter : call.1.filter OutboundEvent.isGrantOrRequest =
      grantedTimes url params headers (n + 1))
    (hresult : call.2 = (answers (n + 1)).outcome) (hslept : SleepsFollowed call.1) :
    RetrySpec url params headers answers call where
  paired := ⟨n + 1, hn, hfilter⟩
  stops := by
    intro n' _ hfinal'
    rw [hfinal'.unique hfinal]
    exact hfilter
  returns := by
    intro n' _ hfinal' response
    rw [hfinal'.unique hfinal, hresult]
    exact outcome_eq_ok_iff
  raises := by
    intro n' _ hfinal' hnot
    rw [hresult]
    rw [hfinal'.unique hfinal] at hnot
    exact outcome_eq_error hnot
  exhausted := by
    intro hretry
    have hsome := hretry n hn
    rw [hfinal.2] at hsome
    cases hsome
  slept := hslept

/-- A call without a final answer keeps the law exactly if each of its pauses is
followed. -/
theorem retrySpec_exhausted_iff {error : ProviderError}
    {call : List OutboundEvent × Except ProviderError ProviderResponse}
    {headers : List (String × String)}
    (hretry : ∀ i < maxAttempts, (answers (i + 1)).retryError.isSome)
    (herror : (answers maxAttempts).retryError = some error)
    (hfilter : call.1.filter OutboundEvent.isGrantOrRequest =
      grantedTimes url params headers maxAttempts)
    (hresult : call.2 = .error error) :
    RetrySpec url params headers answers call ↔ SleepsFollowed call.1 := by
  have hnone : ∀ n < maxAttempts, ¬ FirstFinal answers n := by
    intro n hn hfinal
    have hsome := hretry n hn
    rw [hfinal.2] at hsome
    cases hsome
  refine ⟨RetrySpec.slept, fun hslept => ?_⟩
  exact {
    paired := ⟨maxAttempts, le_rfl, hfilter⟩
    stops := fun n hn hfinal => absurd hfinal (hnone n hn)
    returns := fun n hn hfinal => absurd hfinal (hnone n hn)
    raises := fun n hn hfinal => absurd hfinal (hnone n hn)
    exhausted := fun _ => ⟨error, herror, hresult, isRateLimited_iff herror⟩
    slept := hslept }

end

/-- An environment that reads the one address, with jitter half the ceiling. -/
def nvdEnv : OutboundEnv where
  urlsplit := fun _ => ⟨"https", some nvdHost⟩
  lower := id
  float := fun _ => none
  sleepTakesNan := true
  random := fun _ => 1 / 2
  random_nonneg := fun _ => by norm_num
  random_le_one := fun _ => by norm_num

def nvdGateway : OutboundGateway := ⟨"ScanLedger", none, true⟩

def nvdUrl : String := "https://services.nvd.nist.gov/rest/json/cves/2.0"

theorem checkUrl_nvdUrl : checkUrl nvdEnv nvdUrl = .ok nvdUrl :=
  checkUrl_eq_ok_iff.mpr ⟨rfl, rfl, by decide⟩

end ScanLedger
