import TrackFlow.Json.Value

/-!
# The client of the Central API

`CentralAPIClient.request`: a delegated token is obtained, the request is sent, at most twice and
only once unless it is idempotent, and the answer is mapped to the payload or to a failure.

* `attemptLoop` : the attempts, with the number of requests that they send.
* `attemptLoop_spec` : how the attempts end, and which answer counts.
* `raiseForStatus_eq_ok_iff` : the status codes that are taken for a success.
* `request_eq_ok_iff` : **when a payload is returned.**
-/

namespace TrackFlow

namespace Mcp

open Json

/-- `ErrorCode`. -/
inductive ErrorCode
  | authenticationRequired
  | insufficientScope
  | invalidInput
  | notFound
  | invalidTransition
  | inventoryReadOnly
  | upstreamTimeout
  | upstreamUnavailable
  deriving DecidableEq, Repr

/-- `ToolFailure`. -/
structure ToolFailure where
  code : ErrorCode
  message : String
  deriving DecidableEq, Repr

/-- What `httpx` raises. -/
inductive HttpError
  /-- `ConnectError`. -/
  | connect
  /-- `ReadError`. -/
  | read
  /-- `TimeoutException`. -/
  | timeout
  /-- Any other `HTTPError`. -/
  | other
  deriving DecidableEq, Repr

/-- `Response`; the body is `none` if it is no JSON. -/
structure Response where
  statusCode : ℕ
  json : Option PyValue

/-- An object of a JSON payload. -/
abbrev Payload := List (List Char × PyValue)

/-- `payload.get(key)`. -/
def Payload.get (payload : Payload) (key : String) : PyValue :=
  (payload.lookup key.toList).getD .none

/-- The failure of an `HTTPError`. -/
def httpFailure : HttpError → ToolFailure
  | .timeout => ⟨.upstreamTimeout, "The operations API timed out."⟩
  | _ => ⟨.upstreamUnavailable, "The operations API is unavailable."⟩

/-- The failure of an answer that is no token. -/
def invalidToken : ToolFailure :=
  ⟨.upstreamUnavailable, "The authorization service returned an invalid response."⟩

/-- `_exchange`: the delegated token. -/
def exchange : Except HttpError Response → Except ToolFailure (List Char)
  | .error e => .error (httpFailure e)
  | .ok response =>
    if response.statusCode = 401 ∨ response.statusCode = 403 then
      .error ⟨.authenticationRequired, "Delegated authorization was rejected."⟩
    else if 500 ≤ response.statusCode then
      .error ⟨.upstreamUnavailable, "The authorization service is unavailable."⟩
    else if 400 ≤ response.statusCode then
      .error ⟨.insufficientScope, "Delegated authorization is insufficient."⟩
    else
      match response.json with
      | some (.dict payload) =>
        match Payload.get payload "access_token" with
        | .str token => if token = [] then .error invalidToken else .ok token
        | _ => .error invalidToken
      | _ => .error invalidToken

/-- `TRANSIENT_STATUSES`. -/
def transientStatuses : List ℕ := [502, 503, 504]

/-- `_raise_for_status`. -/
def raiseForStatus (statusCode : ℕ) : Except ToolFailure Unit :=
  if statusCode = 404 then .error ⟨.notFound, "The requested record was not found."⟩
  else if statusCode = 409 then
    .error ⟨.invalidTransition, "The requested ticket transition is not allowed."⟩
  else if statusCode = 400 ∨ statusCode = 422 then
    .error ⟨.invalidInput, "The request was invalid."⟩
  else if statusCode = 401 ∨ statusCode = 403 then
    .error ⟨.insufficientScope, "Delegated authorization is insufficient."⟩
  else if 500 ≤ statusCode then
    .error ⟨.upstreamUnavailable, "The operations API is unavailable."⟩
  else .ok ()

/-- The payload of a response. -/
def payloadOf (response : Response) : Except ToolFailure Payload :=
  match raiseForStatus response.statusCode with
  | .error e => .error e
  | .ok _ =>
    match response.json with
    | some (.dict payload) => .ok payload
    | _ => .error ⟨.upstreamUnavailable, "The operations API returned an invalid response."⟩

/-- How the attempts end. -/
inductive AttemptsEnd
  | answered (response : Response)
  | failed (e : ToolFailure)

/-- The loop over the attempts, with `left` of them to go and `attempt` behind it: how it ends, and
how many requests it has sent then. -/
def attemptLoop (send : ℕ → Except HttpError Response) : ℕ → ℕ → AttemptsEnd × ℕ
  | 0, attempt => (.failed ⟨.upstreamUnavailable, "The operations API is unavailable."⟩, attempt)
  | left + 1, attempt =>
    match send attempt with
    | .error e =>
      if e = .connect ∨ e = .read then
        if left = 0 then
          (.failed ⟨.upstreamUnavailable, "The operations API is unavailable."⟩, attempt + 1)
        else attemptLoop send left (attempt + 1)
      else (.failed (httpFailure e), attempt + 1)
    | .ok response =>
      if response.statusCode ∉ transientStatuses ∨ left = 0 then (.answered response, attempt + 1)
      else attemptLoop send left (attempt + 1)

/-- `request`, with the number of requests that it sends. -/
def request (token : Except HttpError Response) (send : ℕ → Except HttpError Response)
    (idempotent : Bool) : Except ToolFailure Payload × ℕ :=
  match exchange token with
  | .error e => (.error e, 0)
  | .ok _ =>
    match attemptLoop send (if idempotent then 2 else 1) 0 with
    | (.failed e, sent) => (.error e, sent)
    | (.answered response, sent) => (payloadOf response, sent)

/-- An answer that is asked for again if it can be. -/
def Retried : Except HttpError Response → Prop
  | .error e => e = .connect ∨ e = .read
  | .ok response => response.statusCode ∈ transientStatuses

instance (answer : Except HttpError Response) : Decidable (Retried answer) := by
  unfold Retried
  cases answer <;> infer_instance

/-- The attempt whose answer counts. -/
def lastAttempt (send : ℕ → Except HttpError Response) (idempotent : Bool) : ℕ :=
  if idempotent = true ∧ Retried (send 0) then 1 else 0

section

variable {send : ℕ → Except HttpError Response} {idempotent : Bool}
  {token : Except HttpError Response}

/-- How the attempts end with the answer of the last one. -/
def endOf : Except HttpError Response → AttemptsEnd
  | .ok response => .answered response
  | .error .timeout => .failed (httpFailure .timeout)
  | .error _ => .failed ⟨.upstreamUnavailable, "The operations API is unavailable."⟩

/-- The last attempt is not repeated. -/
theorem attemptLoop_one (attempt : ℕ) :
    attemptLoop send 1 attempt = (endOf (send attempt), attempt + 1) := by
  rw [attemptLoop]
  cases send attempt with
  | error e => cases e <;> rfl
  | ok response => exact if_pos (.inr rfl)

/-- An attempt is repeated if its answer is one to retry. -/
theorem attemptLoop_two (attempt : ℕ) :
    attemptLoop send 2 attempt =
      if Retried (send attempt) then attemptLoop send 1 (attempt + 1)
      else (endOf (send attempt), attempt + 1) := by
  rw [attemptLoop]
  cases h : send attempt with
  | error e => cases e <;> rfl
  | ok response =>
    by_cases hr : response.statusCode ∈ transientStatuses
    · rw [if_pos (show Retried (.ok response) from hr)]
      exact if_neg (by simp [hr])
    · rw [if_neg (show ¬Retried (.ok response) from hr)]
      exact if_pos (.inl hr)

/-- The attempts end with the last answer, and send one request each. -/
theorem attemptLoop_spec :
    attemptLoop send (if idempotent then 2 else 1) 0 =
      (endOf (send (lastAttempt send idempotent)), lastAttempt send idempotent + 1) := by
  unfold lastAttempt
  cases idempotent with
  | false => exact attemptLoop_one 0
  | true =>
    rw [if_pos rfl, attemptLoop_two]
    by_cases h : Retried (send 0)
    · rw [if_pos h, if_pos ⟨rfl, h⟩]
      exact attemptLoop_one 1
    · rw [if_neg h, if_neg fun hand => h hand.2]

/-- The status codes that are taken for a success. -/
theorem raiseForStatus_eq_ok_iff {statusCode : ℕ} :
    raiseForStatus statusCode = .ok () ↔
      statusCode < 500 ∧ statusCode ∉ [400, 401, 403, 404, 409, 422] := by
  unfold raiseForStatus
  split_ifs <;> simp_all
  omega

/-- **When a payload is returned.**  The token is obtained, and the last answer is a response of a
status code that is not mapped to a failure, with an object for its body. -/
theorem request_eq_ok_iff {payload : Payload} :
    (request token send idempotent).1 = .ok payload ↔
      (∃ t, exchange token = .ok t) ∧
        ∃ statusCode, send (lastAttempt send idempotent) =
            .ok ⟨statusCode, some (.dict payload)⟩ ∧ raiseForStatus statusCode = .ok () := by
  unfold request
  cases exchange token with
  | error e => simp
  | ok t =>
    dsimp only
    rw [attemptLoop_spec]
    cases send (lastAttempt send idempotent) with
    | error e => cases e <;> simp [endOf]
    | ok response =>
      obtain ⟨statusCode, json⟩ := response
      simp only [endOf, payloadOf, Except.ok.injEq, Response.mk.injEq, exists_eq', true_and]
      cases hstatus : raiseForStatus statusCode with
      | error e =>
        simp only [reduceCtorEq, false_iff, not_exists, not_and]
        rintro code ⟨rfl, -⟩
        rw [hstatus]
        exact fun h => nomatch h
      | ok u =>
        dsimp only
        constructor
        · intro h
          rcases json with _ | (_ | _ | _ | _ | _ | _ | members)
          case some.dict =>
            cases h
            exact ⟨statusCode, ⟨rfl, rfl⟩, hstatus⟩
          all_goals cases h
        · rintro ⟨code, ⟨rfl, rfl⟩, -⟩
          rfl

/-- What the last answer is mapped to. -/
def outcomeOf (answer : Except HttpError Response) : Except ToolFailure Payload :=
  match endOf answer with
  | .failed e => .error e
  | .answered response => payloadOf response

/-- What a request returns once the token is obtained. -/
theorem request_of_token {t : List Char} (h : exchange token = .ok t) :
    (request token send idempotent).1 = outcomeOf (send (lastAttempt send idempotent)) := by
  unfold request outcomeOf
  rw [h]
  dsimp only
  rw [attemptLoop_spec]
  cases endOf (send (lastAttempt send idempotent)) <;> rfl

/-- A lost answer is reported as such. -/
theorem outcomeOf_error (e : HttpError) :
    outcomeOf (.error e) = .error ⟨.upstreamTimeout, "The operations API timed out."⟩ ∨
      outcomeOf (.error e) =
        .error ⟨.upstreamUnavailable, "The operations API is unavailable."⟩ := by
  cases e with
  | timeout => exact .inl rfl
  | connect => exact .inr rfl
  | read => exact .inr rfl
  | other => exact .inr rfl

/-- How many requests are sent. -/
theorem request_sent :
    (request token send idempotent).2 =
      match exchange token with
      | .error _ => 0
      | .ok _ => lastAttempt send idempotent + 1 := by
  unfold request
  cases exchange token with
  | error e => rfl
  | ok t =>
    dsimp only
    rw [attemptLoop_spec]
    cases send (lastAttempt send idempotent) with
    | error e => cases e <;> rfl
    | ok response => rfl

/-- A request that is not idempotent is sent once at most. -/
theorem request_sent_le (token : Except HttpError Response) (send : ℕ → Except HttpError Response) :
    (request token send false).2 ≤ 1 := by
  rw [request_sent]
  cases exchange token with
  | error e => exact Nat.zero_le 1
  | ok t => exact le_rfl

end

end Mcp

end TrackFlow
