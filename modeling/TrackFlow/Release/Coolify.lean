import Mathlib.Data.List.DropRight
import TrackFlow.Json.Ascii
import TrackFlow.LTS.Emits

/-!
# A release through Coolify

`deploy` against an API that answers as it likes: every request may be answered by any JSON value,
by a text that is none, by any HTTP error, by a timeout or by another exception, and an answer may
depend on all that happened before.

* `Client.requestJson` : a request; only reading requests are repeated.
* `targetRecord`, `metadata`, `otherRecordsDigest` : what is compared.
* `deploy` : the release.
* `Captured`, `Verified` : what stands behind an update, and behind a trigger.
* `deploy_release` : **one variable is changed, or nothing is deployed**, over every API.
* `deploy_literally` : three ways in which a change is not seen, or not reported.
-/

namespace TrackFlow

namespace Release

open Json.Ascii Python Eventful

/-! ## Requests -/

inductive Method
  | get
  | patch
  | post
  deriving DecidableEq, Repr

structure Request where
  method : Method
  url : Str
  payload : Option Value
  authorization : Str

/-- What becomes of a request. -/
inductive Answer
  | json (value : Value)
  /-- The response is no JSON. -/
  | invalidJson
  | httpError (code : ℕ)
  /-- A `URLError` or a `TimeoutError`. -/
  | unreachable
  /-- Any other exception. -/
  | raises (what : String)

/-- What a release does. -/
inductive Event
  | request (request : Request) (answer : Answer)
  | sleep (seconds : ℚ)
  /-- The callback was called with a tag, and has returned. -/
  | reported (tag : Str)

/-- An exception. -/
inductive Failure
  | release (message reason : String)
  | other (what : String)
  deriving DecidableEq, Repr

/-- `ReleaseError(message)`. -/
def ReleaseError (message : String) : Failure := .release message "release_error"

/-- The API: what it answers, behind all that happened. -/
abbrev Api := List Event → Request → Answer

/-- `time.sleep`. -/
def sleep (seconds : ℚ) : Eventful Event Failure Unit :=
  if seconds < 0 then raise (.other "sleep length must be non-negative") else emit (.sleep seconds)

def getAttempts : ℕ := 3

def getBackoffSeconds : List ℚ := [2, 4]

structure Client where
  apiBase : Str
  token : Str
  webhook : Str

namespace Client

/-- `CoolifyClient`. -/
def new (apiBase token webhook : Str) : Client :=
  ⟨apiBase.rdropWhile fun c => c = ofChar '/', token, webhook⟩

def request (client : Client) (method : Method) (url : Str) (payload : Option Value) : Request :=
  ⟨method, url, payload, ofString "Bearer " ++ client.token⟩

end Client

section

variable (api : Api)

/-- The loop of `request_json`: the attempts that are left, behind some. -/
def attemptRequest (request : Request) (attempts : ℕ) : ℕ → ℕ → Eventful Event Failure Value
  | 0, _ => raise (.other "unreachable")
  | left + 1, attempt => do
    let answer ← ask (api · request) (.request request)
    let last := attempt + 1 ≥ attempts
    let again := do
      sleep (getBackoffSeconds.getD attempt 0)
      attemptRequest request attempts left (attempt + 1)
    match answer with
    | .json value => pure value
    | .httpError code =>
      let transient := 500 ≤ code ∧ code < 600
      if ¬transient ∨ last then
        raise (.release "Coolify request failed"
          (if transient then "coolify_get_transient_exhausted" else "coolify_http_error"))
      else again
    | .unreachable =>
      if last then
        raise (.release "Coolify request failed"
          (if attempts > 1 then "coolify_get_transient_exhausted" else "coolify_request_failed"))
      else again
    | .invalidJson => raise (.release "Coolify response is invalid" "coolify_invalid_json")
    | .raises what => raise (.other what)

/-- `request_json`. -/
def requestJson (request : Request) (retryTransientGet : Bool) : Eventful Event Failure Value :=
  let attempts := if request.method = .get ∧ retryTransientGet = true then getAttempts else 1
  attemptRequest api request attempts attempts 0

/-! ## `CoolifyClient` -/

/-- The dictionaries of a list, if it holds nothing else. -/
def records : Value → Option (List Dict)
  | .list items => items.mapM fun
    | .dict record => some record
    | _ => none
  | _ => none

namespace Client

def environmentsUrl (client : Client) (applicationUuid : Str) : Str :=
  client.apiBase ++ ofString "/applications/" ++ applicationUuid ++ ofString "/envs"

def deploymentUrl (client : Client) (deploymentUuid : Str) : Str :=
  client.apiBase ++ ofString "/deployments/" ++ deploymentUuid

def environmentsRequest (client : Client) (applicationUuid : Str) : Request :=
  client.request .get (client.environmentsUrl applicationUuid) none

def updateRequest (client : Client) (applicationUuid : Str) (payload : Value) : Request :=
  client.request .patch (client.environmentsUrl applicationUuid) (some payload)

def triggerRequest (client : Client) : Request := client.request .post client.webhook none

def statusRequest (client : Client) (deploymentUuid : Str) : Request :=
  client.request .get (client.deploymentUrl deploymentUuid) none

end Client

def environments (client : Client) (applicationUuid : Str) :
    Eventful Event Failure (List Dict) := do
  let value ← requestJson api (client.environmentsRequest applicationUuid) true
  match records value with
  | some environments => pure environments
  | none => raise (ReleaseError "Coolify environment response is invalid")

def updateEnvironment (client : Client) (applicationUuid : Str) (payload : Value) :
    Eventful Event Failure Unit := do
  let _ ← requestJson api (client.updateRequest applicationUuid payload) false
  pure ()

/-- `_IMAGE_TAG`. -/
def isImageTag (tag : Str) : Bool :=
  tag.take 4 = ofString "sha-" && (tag.drop 4).length == 40 &&
    (tag.drop 4).all fun c => (48 ≤ c.val && c.val ≤ 57) || (97 ≤ c.val && c.val ≤ 102)

/-- `_IDENTIFIER`. -/
def isIdentifier (s : Str) : Bool :=
  s ≠ [] && s.all fun c => (65 ≤ c.val && c.val ≤ 90) || (97 ≤ c.val && c.val ≤ 122) ||
    (48 ≤ c.val && c.val ≤ 57) || c.val == 95 || c.val == 45

/-- `or`. -/
def orElse (v w : Value) : Value := if v.truthy then v else w

/-- Where `trigger` looks for an identifier. -/
def candidates : Value → List Value
  | .list items => items
  | .dict items =>
    match Dict.get items "deployments" with
    | .list deployments => deployments
    | _ => [Dict.get items "data", .dict items]
  | _ => []

/-- The identifier of a candidate. -/
def deploymentUuid : Value → Option Str
  | .dict items =>
    match orElse (Dict.get items "deployment_uuid") (Dict.get items "uuid") with
    | .str uuid => if isIdentifier uuid then some uuid else none
    | _ => none
  | _ => none

def trigger (client : Client) : Eventful Event Failure Str := do
  let value ← requestJson api client.triggerRequest false
  match (candidates value).findSome? deploymentUuid with
  | some uuid => pure uuid
  | none => raise (ReleaseError "Coolify deployment identifier is invalid")

/-- `str` of values that are no strings, and `str.lower`. -/
structure Strings where
  repr : Value → Str
  lower : Str → Str
  lower_ascii : ∀ s, (∀ c ∈ s, c.val < 128) →
    lower s = s.map fun c => if 65 ≤ c.val ∧ c.val ≤ 90 then c + 32 else c

/-- `str`. -/
def Strings.str (strings : Strings) : Value → Str
  | .str s => s
  | v => strings.repr v

/-- The status of a response. -/
def statusOf (strings : Strings) (items : Dict) : Str :=
  let nested := match Dict.get items "data" with
    | .dict data => Dict.get data "status"
    | _ => .none
  strings.lower (strings.str (orElse (Dict.get items "status") (orElse nested (.str []))))

def deploymentStatus (strings : Strings) (client : Client) (uuid : Str) :
    Eventful Event Failure Str := do
  let value ← requestJson api (client.statusRequest uuid) true
  match value with
  | .dict items => pure (statusOf strings items)
  | _ => raise (ReleaseError "Coolify deployment response is invalid")

/-! ## `deploy` -/

def success : List String := ["finished", "success", "succeeded", "completed"]

def failure : List String := ["failed", "failure", "cancelled", "canceled", "cancelled-by-user",
  "canceled-by-user", "error"]

def pending : List String := ["queued", "pending", "in_progress", "in-progress", "running", ""]

/-- `status in statuses`. -/
def oneOf (status : Str) (statuses : List String) : Bool :=
  statuses.any fun s => status = ofString s

def booleanFields : List String := ["is_preview", "is_literal", "is_multiline", "is_shown_once",
  "is_buildtime", "is_runtime"]

/-- `isinstance(value, str) and pattern.fullmatch(value)`. -/
def isMatch (pattern : Str → Bool) : Value → Bool
  | .str s => pattern s
  | _ => false

/-- `_target_record`. -/
def targetRecord (environments : List Dict) : Except Failure Dict :=
  let targets := environments.filter fun item =>
    (Dict.get item "key").isStr (ofString "TRACKFLOW_IMAGE_TAG") &&
      (Dict.get item "is_preview").isIdentical false
  match targets with
  | [target] =>
    if isMatch isIdentifier (Dict.get target "uuid") = false then
      .error (ReleaseError "Production image-tag variable identifier is invalid")
    else if booleanFields.any fun field => !(Dict.get target field).isBool then
      .error (ReleaseError "Production image-tag metadata is invalid")
    else if (Dict.get target "is_buildtime").isIdentical true = false ∨
        (Dict.get target "is_runtime").isIdentical true = false then
      .error (ReleaseError "Production image tag must be available at build time and runtime")
    else .ok target
  | _ => .error (ReleaseError "Expected exactly one production image-tag variable")

/-- The fields of `_metadata`. -/
def metadataFields : List String := ["uuid", "key", "is_preview", "is_literal", "is_multiline",
  "is_shown_once", "is_buildtime", "is_runtime", "comment"]

/-- `_metadata(record) == _metadata(other)`. -/
def sameMetadata (record other : Dict) : Bool :=
  metadataFields.all fun field => (Dict.get record field).eq (Dict.get other field)

/-- The records with another `uuid`. -/
def others (environments : List Dict) (targetUuid : Str) : List Dict :=
  environments.filter fun item => !(Dict.get item "uuid").isStr targetUuid

/-- What `deploy` uses of the standard library. -/
structure Library where
  strings : Strings
  repr : PythonRepr
  sha256 : List Char → Str

variable (lib : Library)

/-- The text that stands for the other records. -/
def othersText (environments : List Dict) (targetUuid : Str) : List Char :=
  dumps lib.repr (Value.list ((others environments targetUuid).map .dict)).sortKeys

/-- `_other_records_digest`. -/
def otherRecordsDigest (environments : List Dict) (targetUuid : Str) : Str :=
  lib.sha256 (othersText lib environments targetUuid)

/-- The update of a record. -/
def updatePayload (target : Dict) (targetImageTag : Str) : Value :=
  .dict [(ofString "key", Dict.get target "key"), (ofString "value", .str targetImageTag),
    (ofString "is_preview", Dict.get target "is_preview"),
    (ofString "is_literal", Dict.get target "is_literal"),
    (ofString "is_multiline", Dict.get target "is_multiline"),
    (ofString "is_shown_once", Dict.get target "is_shown_once"),
    (ofString "is_buildtime", Dict.get target "is_buildtime"),
    (ofString "is_runtime", Dict.get target "is_runtime"),
    (ofString "comment", Dict.get target "comment")]

structure ReleaseResult where
  previousImageTag : Str
  deploymentUuid : Str
  deriving DecidableEq, Repr

/-- The pause before the polls that are left. -/
def pause (left : ℕ) (seconds : ℚ) : Eventful Event Failure Unit :=
  if left ≠ 0 then sleep seconds else pure ()

/-- The polls that are left. -/
def poll (client : Client) (result : ReleaseResult) (pollIntervalSeconds : ℚ) :
    ℕ → Eventful Event Failure ReleaseResult
  | 0 => raise (ReleaseError "Coolify deployment timed out")
  | left + 1 => do
    let status ← deploymentStatus api lib.strings client result.deploymentUuid
    if oneOf status success then pure result
    else if oneOf status failure ∨ oneOf status pending = false then
      raise (ReleaseError "Coolify deployment failed")
    else do
      pause left pollIntervalSeconds
      poll client result pollIntervalSeconds left

/-- The callback; it may raise. -/
abbrev Callback := Str → Option String

/-- The call of `on_previous_image_tag`, if there is one. -/
def report (onPreviousImageTag : Option Callback) (previous : Str) :
    Eventful Event Failure Unit :=
  match onPreviousImageTag with
  | none => pure ()
  | some callback =>
    match callback previous with
    | some what => raise (.other what)
    | none => emit (.reported previous)

/-- A tag to go back to. -/
def rollbackTag : Value → Except Failure Str
  | .str previous =>
    if isImageTag previous then .ok previous
    else .error (ReleaseError "Previous production image tag is not rollback-safe")
  | _ => .error (ReleaseError "Previous production image tag is not rollback-safe")

def deploy (client : Client) (applicationUuid targetImageTag : Str) (pollAttempts : ℤ)
    (pollIntervalSeconds : ℚ) (onPreviousImageTag : Option Callback) :
    Eventful Event Failure ReleaseResult := do
  raiseUnless (isImageTag targetImageTag) (ReleaseError "Image tag is not an immutable SHA")
  raiseUnless (isIdentifier applicationUuid)
    (ReleaseError "Coolify application identifier is invalid")
  let before ← environments api client applicationUuid
  let target ← ofExcept (targetRecord before)
  let previous ← ofExcept (rollbackTag (Dict.get target "value"))
  report onPreviousImageTag previous
  let targetUuid := lib.strings.str (Dict.get target "uuid")
  updateEnvironment api client applicationUuid (updatePayload target targetImageTag)
  let after ← environments api client applicationUuid
  let updated ← ofExcept (targetRecord after)
  raiseUnless (after.length = before.length &&
      otherRecordsDigest lib after targetUuid = otherRecordsDigest lib before targetUuid)
    (ReleaseError "Coolify changed an environment record outside the image tag")
  raiseUnless (sameMetadata updated target && (Dict.get updated "value").isStr targetImageTag)
    (ReleaseError "Coolify image-tag update verification failed")
  let deploymentUuid ← trigger api client
  poll api lib client ⟨previous, deploymentUuid⟩ pollIntervalSeconds pollAttempts.toNat

end

/-! ## Events of the requests -/

/-- The method of a request. -/
def Event.method : Event → Option Method
  | .request q _ => some q.method
  | _ => none

def Event.isUpdate (event : Event) : Bool := event.method = some .patch

def Event.isTrigger (event : Event) : Bool := event.method = some .post

def Event.isReport : Event → Bool
  | .reported _ => true
  | _ => false

/-- An attempt of a request, or a pause between two of them. -/
def Attempt (request : Request) (event : Event) : Prop :=
  (∃ answer, event = .request request answer) ∨ ∃ seconds, event = .sleep seconds

/-- An attempt that has brought no value. -/
def Silent (request : Request) (event : Event) : Prop :=
  (∃ answer, event = .request request answer ∧ ∀ v, answer ≠ .json v) ∨
    ∃ seconds, event = .sleep seconds

/-- What a request brings: its last attempt is answered with the value. -/
def Asked (request : Request) : Except Failure Value → List Event → Prop
  | .ok v, new => ∃ front, (∀ e ∈ front, Silent request e) ∧
    new = front ++ [.request request (.json v)]
  | .error _, new => ∀ e ∈ new, Silent request e

theorem Silent.attempt {request : Request} {e : Event} (h : Silent request e) :
    Attempt request e := by
  obtain ⟨answer, he, -⟩ | hsleep := h
  · exact .inl ⟨answer, he⟩
  · exact .inr hsleep

theorem Asked.attempts {request : Request} {r : Except Failure Value} {new : List Event}
    (h : Asked request r new) : ∀ e ∈ new, Attempt request e := by
  cases r with
  | error f => exact fun e he => (h e he).attempt
  | ok v =>
    obtain ⟨front, hfront, rfl⟩ := h
    intro e he
    rcases List.mem_append.1 he with he | he
    · exact (hfront e he).attempt
    · exact .inl ⟨_, List.mem_singleton.1 he⟩

section

variable {api : Api} {request : Request}

theorem emits_sleep {R : Except Failure Unit → List Event → Prop} {seconds : ℚ}
    (herror : ∀ f, R (.error f) []) (hok : R (.ok ()) [.sleep seconds]) :
    Emits (sleep seconds) R := by
  unfold sleep
  split_ifs
  · exact emits_raise (herror _)
  · exact emits_emit hok

/-- Silent attempts before those of a request are attempts of it. -/
theorem Asked.after {r : Except Failure Value} {front new : List Event}
    (hfront : ∀ e ∈ front, Silent request e) (h : Asked request r new) :
    Asked request r (front ++ new) := by
  cases r with
  | error f => exact fun e he => (List.mem_append.1 he).elim (hfront e) (h e)
  | ok v =>
    obtain ⟨front', hfront', rfl⟩ := h
    refine ⟨front ++ front', fun e he => ?_, (List.append_assoc ..).symm⟩
    exact (List.mem_append.1 he).elim (hfront e) (hfront' e)

/-- What follows an attempt that has brought no value. -/
theorem emits_again {attempts left attempt : ℕ} {event : Event} {seconds : ℚ}
    (hsilent : Silent request event)
    (ih : Emits (attemptRequest api request attempts left attempt) (Asked request)) :
    Emits (do
        sleep seconds
        attemptRequest api request attempts left attempt)
      fun r behind => Asked request r ([event] ++ behind) := by
  have hevent : ∀ e ∈ [event], Silent request e := fun e he => List.mem_singleton.1 he ▸ hsilent
  refine Emits.bind (Q := fun r new => ∀ e ∈ new, Silent request e) ?_ ?_ ?_
  · exact emits_sleep (fun _ e he => absurd he List.not_mem_nil)
      fun e he => .inr ⟨seconds, List.mem_singleton.1 he⟩
  · intro f new hnew e he
    exact (List.mem_append.1 he).elim (hevent e) (hnew e)
  · intro _ new hnew
    refine ih.mono fun r behind hr => ?_
    exact (hr.after hnew).after hevent

/-- The attempts of a request. -/
theorem emits_attemptRequest (attempts left attempt : ℕ) :
    Emits (attemptRequest api request attempts left attempt) (Asked request) := by
  induction left generalizing attempt with
  | zero => exact emits_raise fun e he => absurd he List.not_mem_nil
  | succ left ih =>
    unfold attemptRequest
    refine emits_ask_bind fun answer => ?_
    -- an answer without a value ends the loop, or another attempt follows
    have hagain (hnone : ∀ v, answer ≠ .json v) :
        Emits (do
            sleep (getBackoffSeconds.getD attempt 0)
            attemptRequest api request attempts left (attempt + 1))
          fun r behind => Asked request r ([.request request answer] ++ behind) :=
      emits_again (.inl ⟨answer, rfl, hnone⟩) (ih (attempt + 1))
    have hraise {f : Failure} (hnone : ∀ v, answer ≠ .json v) :
        Emits (raise f : Eventful Event Failure Value)
          fun r behind => Asked request r ([.request request answer] ++ behind) :=
      emits_raise fun e he => .inl ⟨answer, List.mem_singleton.1 he, hnone⟩
    cases answer with
    | json v => exact emits_pure ⟨[], fun e he => absurd he List.not_mem_nil, rfl⟩
    | invalidJson => exact hraise nofun
    | httpError code =>
      simp only
      split_ifs
      · exact hraise nofun
      · exact hraise nofun
      · exact hagain nofun
    | unreachable =>
      simp only
      split_ifs
      · exact hraise nofun
      · exact hraise nofun
      · exact hagain nofun
    | raises what => exact hraise nofun

theorem emits_requestJson (retryTransientGet : Bool) :
    Emits (requestJson api request retryTransientGet) (Asked request) :=
  emits_attemptRequest _ _ _

/-- A request that is not repeated has one attempt. -/
theorem emits_requestJson_once :
    Emits (requestJson api request false) fun _ new =>
      ∃ answer, new = [.request request answer] := by
  have honce : (if request.method = .get ∧ false = true then getAttempts else 1) = 1 :=
    if_neg fun h => Bool.false_ne_true h.2
  unfold requestJson
  rw [honce]
  unfold attemptRequest
  refine emits_ask_bind fun answer => ?_
  have hone : ∃ a, [Event.request request answer] ++ [] = [.request request a] := ⟨answer, rfl⟩
  have hlast : 0 + 1 ≥ 1 := le_rfl
  cases answer with
  | json v => exact emits_pure hone
  | invalidJson => exact emits_raise hone
  | httpError code =>
    simp only [if_pos (Or.inr hlast)]
    exact emits_raise hone
  | unreachable =>
    simp only [if_pos hlast]
    exact emits_raise hone
  | raises what => exact emits_raise hone

theorem records_eq_some {value : Value} {rs : List Dict} (h : records value = some rs) :
    value = .list (rs.map .dict) := by
  cases value with
  | list items =>
    refine congrArg Value.list ?_
    simp only [records] at h
    induction items generalizing rs with
    | nil =>
      cases h
      rfl
    | cons v items ih =>
      rw [List.mapM_cons] at h
      cases v with
      | dict record =>
        obtain ⟨_, hrecord, h⟩ := Option.bind_eq_some_iff.1 h
        obtain ⟨rs', hrs', h⟩ := Option.bind_eq_some_iff.1 h
        cases hrecord
        cases h
        exact congrArg (Value.dict record :: ·) (ih hrs')
      | _ => cases h
  | _ => cases h

variable {lib : Library} {client : Client} {applicationUuid : Str}

/-- What `environments` brings is the answer of its last attempt. -/
theorem emits_environments : Emits (environments api client applicationUuid) fun r new =>
    (∀ e ∈ new, Attempt (client.environmentsRequest applicationUuid) e) ∧
    ∀ rs, r = .ok rs → ∃ front, new = front ++
      [.request (client.environmentsRequest applicationUuid) (.json (.list (rs.map .dict)))] := by
  refine Emits.bind (emits_requestJson true) (fun f new h => ⟨h.attempts, nofun⟩) ?_
  intro value new hnew
  cases hrecords : records value with
  | none =>
    refine emits_raise ⟨?_, nofun⟩
    rw [List.append_nil]
    exact hnew.attempts
  | some rs =>
    refine emits_pure ⟨?_, ?_⟩ <;> rw [List.append_nil]
    · exact hnew.attempts
    · intro rs' hrs'
      cases hrs'
      obtain ⟨front, -, rfl⟩ := hnew
      rw [records_eq_some hrecords]
      exact ⟨front, rfl⟩

theorem emits_updateEnvironment {payload : Value} :
    Emits (updateEnvironment api client applicationUuid payload) fun _ new =>
      ∃ answer, new = [.request (client.updateRequest applicationUuid payload) answer] := by
  refine Emits.bind emits_requestJson_once (fun f new h => h) fun value new hnew => ?_
  refine emits_pure ?_
  rw [List.append_nil]
  exact hnew

theorem emits_trigger : Emits (trigger api client) fun _ new =>
    ∃ answer, new = [.request client.triggerRequest answer] := by
  refine Emits.bind emits_requestJson_once (fun f new h => h) fun value new hnew => ?_
  rw [← List.append_nil new] at hnew
  cases (candidates value).findSome? deploymentUuid with
  | none => exact emits_raise hnew
  | some uuid => exact emits_pure hnew

/-- The status that an event brings. -/
def polledStatus (strings : Strings) : Event → Option Str
  | .request _ (.json (.dict items)) => some (statusOf strings items)
  | _ => none

/-- The statuses that were polled, in their order. -/
def polledStatuses (strings : Strings) (es : List Event) : List Str :=
  es.filterMap (polledStatus strings)

theorem polledStatuses_silent {strings : Strings} {front : List Event}
    (h : ∀ e ∈ front, Silent request e) : polledStatuses strings front = [] := by
  refine List.filterMap_eq_nil_iff.2 fun e he => ?_
  obtain ⟨answer, rfl, hnone⟩ | ⟨seconds, rfl⟩ := h e he
  · cases answer with
    | json v => exact absurd rfl (hnone v)
    | _ => rfl
  · rfl

/-- A poll brings one status. -/
theorem emits_deploymentStatus {uuid : Str} :
    Emits (deploymentStatus api lib.strings client uuid) fun r new =>
      (∀ e ∈ new, Attempt (client.statusRequest uuid) e) ∧
      ∀ s, r = .ok s → polledStatuses lib.strings new = [s] := by
  refine Emits.bind (emits_requestJson true) (fun f new h => ⟨h.attempts, nofun⟩) ?_
  intro value new hnew
  cases value with
  | dict items =>
    refine emits_pure ⟨?_, ?_⟩ <;> rw [List.append_nil]
    · exact hnew.attempts
    · intro s hs
      cases hs
      obtain ⟨front, hfront, rfl⟩ := hnew
      rw [polledStatuses, List.filterMap_append]
      exact congrArg (· ++ [statusOf lib.strings items]) (polledStatuses_silent hfront)
  | _ =>
    refine emits_raise ⟨?_, nofun⟩
    rw [List.append_nil]
    exact hnew.attempts

/-- What the polls end with: a success behind pending statuses. -/
def Polled (strings : Strings) (es : List Event) : Prop :=
  ∃ before last, polledStatuses strings es = before ++ [last] ∧ oneOf last success = true ∧
    ∀ s ∈ before, oneOf s failure = false ∧ oneOf s pending = true

theorem emits_poll {result : ReleaseResult} {seconds : ℚ} (left : ℕ) :
    Emits (poll api lib client result seconds left) fun r new =>
      (∀ e ∈ new, Attempt (client.statusRequest result.deploymentUuid) e) ∧
      ∀ x, r = .ok x → x = result ∧ Polled lib.strings new := by
  induction left with
  | zero => exact emits_raise ⟨fun e he => absurd he List.not_mem_nil, nofun⟩
  | succ left ih =>
    unfold poll
    refine Emits.bind emits_deploymentStatus (fun f new h => ⟨h.1, nofun⟩) ?_
    rintro status new ⟨hattempts, hstatus⟩
    have hstatus := hstatus status rfl
    by_cases hsuccess : oneOf status success = true
    · rw [if_pos hsuccess]
      refine emits_pure ⟨?_, fun x hx => ⟨(Except.ok.inj hx).symm, ?_⟩⟩ <;> rw [List.append_nil]
      · exact hattempts
      · exact ⟨[], status, hstatus, hsuccess, fun s hs => absurd hs List.not_mem_nil⟩
    rw [if_neg hsuccess]
    by_cases hfailure : oneOf status failure = true ∨ oneOf status pending = false
    · rw [if_pos hfailure]
      refine emits_raise ⟨?_, nofun⟩
      rw [List.append_nil]
      exact hattempts
    rw [if_neg hfailure]
    rw [not_or, Bool.not_eq_true, Bool.not_eq_false] at hfailure
    -- the status is pending, and the next poll may follow a pause
    refine Emits.bind (Q := fun _ new => ∀ e ∈ new, ∃ seconds, e = Event.sleep seconds) ?_ ?_ ?_
    · unfold pause
      split_ifs
      · exact emits_sleep (fun _ e he => absurd he List.not_mem_nil)
          fun e he => ⟨seconds, List.mem_singleton.1 he⟩
      · exact emits_pure fun e he => absurd he List.not_mem_nil
    · intro f pause hpause
      refine ⟨fun e he => ?_, nofun⟩
      exact (List.mem_append.1 he).elim (hattempts e) fun he => .inr (hpause e he)
    · intro _ pause hpause
      refine ih.mono fun r behind hr => ⟨fun e he => ?_, fun x hx => ?_⟩
      · rcases List.mem_append.1 he with he | he
        · exact hattempts e he
        · exact (List.mem_append.1 he).elim (fun he => .inr (hpause e he)) (hr.1 e)
      · obtain ⟨hresult, before, last, hbehind, hlast, hbefore⟩ := hr.2 x hx
        have hsilent : ∀ e ∈ pause, Silent (client.statusRequest result.deploymentUuid) e :=
          fun e he => .inr (hpause e he)
        have hpaused : polledStatuses lib.strings pause = [] := polledStatuses_silent hsilent
        refine ⟨hresult, status :: before, last, ?_, hlast, ?_⟩
        · have hall : polledStatuses lib.strings (new ++ (pause ++ behind)) =
              polledStatuses lib.strings new ++ (polledStatuses lib.strings pause ++
                polledStatuses lib.strings behind) := by
            simp only [polledStatuses, List.filterMap_append]
          rw [hall, hstatus, hpaused, hbehind]
          rfl
        · exact List.forall_mem_cons.2 ⟨hfailure, hbefore⟩

/-! ## The order of a release -/

/-- Nothing is changed. -/
def Reading (es : List Event) : Prop := ∀ e ∈ es, e.isUpdate = false ∧ e.isTrigger = false

theorem Reading.append {es es' : List Event} (h : Reading es) (h' : Reading es') :
    Reading (es ++ es') := fun e he => (List.mem_append.1 he).elim (h e) (h' e)

/-- The attempts of a reading request change nothing. -/
theorem reading_of_attempts {es : List Event} (hget : request.method = .get)
    (h : ∀ e ∈ es, Attempt request e) : Reading es := by
  intro e he
  obtain ⟨answer, rfl⟩ | ⟨seconds, rfl⟩ := h e he
  · simp only [Event.isUpdate, Event.isTrigger, Event.method, hget]
    decide
  · exact ⟨rfl, rfl⟩

/-- What the call of the callback leaves. -/
def reportOf (onPreviousImageTag : Option Callback) (previous : Str) : List Event :=
  if onPreviousImageTag.isSome then [.reported previous] else []

/-- Behind these events the tag to go back to is known: the list was read, its one target holds a
tag that is safe, and the callback, if there is one, was called with it. -/
structure Captured (client : Client) (applicationUuid : Str) (onPreviousImageTag : Option Callback)
    (es : List Event) (before : List Dict) (target : Dict) (previous : Str) : Prop where
  read : ∃ front, es = front ++
    [.request (client.environmentsRequest applicationUuid) (.json (.list (before.map .dict)))] ++
      reportOf onPreviousImageTag previous
  found : targetRecord before = .ok target
  value : Dict.get target "value" = .str previous
  safe : isImageTag previous = true

/-- The list was read again, and the checks have passed. -/
structure Verified (lib : Library) (client : Client) (applicationUuid targetImageTag : Str)
    (es : List Event) (before after : List Dict) (target : Dict) : Prop where
  read : ∃ front, es = front ++
    [.request (client.environmentsRequest applicationUuid) (.json (.list (after.map .dict)))]
  length : after.length = before.length
  digest : otherRecordsDigest lib after (lib.strings.str (Dict.get target "uuid")) =
    otherRecordsDigest lib before (lib.strings.str (Dict.get target "uuid"))
  updated : ∃ updated, targetRecord after = .ok updated ∧ sameMetadata updated target = true ∧
    (Dict.get updated "value").isStr targetImageTag = true

/-- What `deploy` has done when it ends: it has stopped before its update, or before its trigger, or
it has polled. -/
inductive Deployed (lib : Library) (client : Client) (applicationUuid targetImageTag : Str)
    (onPreviousImageTag : Option Callback) : Except Failure ReleaseResult → List Event → Prop
  | stopped {f : Failure} {es : List Event} (hreading : Reading es) :
    Deployed lib client applicationUuid targetImageTag onPreviousImageTag (.error f) es
  | updated {f : Failure} {front mid : List Event} {before : List Dict} {target : Dict}
    {previous : Str} {answer : Answer} (hfront : Reading front)
    (hcaptured : Captured client applicationUuid onPreviousImageTag front before target previous)
    (hmid : Reading mid) :
    Deployed lib client applicationUuid targetImageTag onPreviousImageTag (.error f)
      (front ++ .request (client.updateRequest applicationUuid
        (updatePayload target targetImageTag)) answer :: mid)
  | triggered {r : Except Failure ReleaseResult} {front mid polls : List Event}
    {before after : List Dict} {target : Dict} {previous : Str} {answer answer' : Answer}
    (hfront : Reading front)
    (hcaptured : Captured client applicationUuid onPreviousImageTag front before target previous)
    (hmid : Reading mid)
    (hverified : Verified lib client applicationUuid targetImageTag mid before after target)
    (hpolls : Reading polls)
    (hresult : ∀ x, r = .ok x → x.previousImageTag = previous ∧
      (∀ e ∈ polls, Attempt (client.statusRequest x.deploymentUuid) e) ∧
      Polled lib.strings polls) :
    Deployed lib client applicationUuid targetImageTag onPreviousImageTag r
      (front ++ .request (client.updateRequest applicationUuid
        (updatePayload target targetImageTag)) answer ::
          (mid ++ .request client.triggerRequest answer' :: polls))

theorem emits_report {onPreviousImageTag : Option Callback} {previous : Str} :
    Emits (report onPreviousImageTag previous) fun r new =>
      Reading new ∧ (r = .ok () → new = reportOf onPreviousImageTag previous) := by
  have hnil : Reading [] := fun e he => absurd he List.not_mem_nil
  unfold report
  cases onPreviousImageTag with
  | none => exact emits_pure ⟨hnil, fun _ => rfl⟩
  | some callback =>
    simp only
    cases callback previous with
    | some what => exact emits_raise ⟨hnil, nofun⟩
    | none =>
      refine emits_emit ⟨fun e he => ?_, fun _ => rfl⟩
      rw [List.mem_singleton.1 he]
      exact ⟨rfl, rfl⟩

theorem rollbackTag_eq_ok {v : Value} {previous : Str} (h : rollbackTag v = .ok previous) :
    v = .str previous ∧ isImageTag previous = true := by
  cases v with
  | str s =>
    simp only [rollbackTag] at h
    split_ifs at h with htag
    cases h
    exact ⟨rfl, htag⟩
  | _ => cases h

theorem emits_deploy {targetImageTag : Str} {pollAttempts : ℤ} {pollIntervalSeconds : ℚ}
    {onPreviousImageTag : Option Callback} :
    Emits (deploy api lib client applicationUuid targetImageTag pollAttempts pollIntervalSeconds
      onPreviousImageTag)
      (Deployed lib client applicationUuid targetImageTag onPreviousImageTag) := by
  have hnil : Reading [] := fun e he => absurd he List.not_mem_nil
  unfold deploy
  refine emits_raiseUnless_bind (fun _ => .stopped hnil) fun _ => ?_
  refine emits_raiseUnless_bind (fun _ => .stopped hnil) fun _ => ?_
  refine Emits.bind emits_environments
    (fun f new h => .stopped (reading_of_attempts rfl h.1)) fun before read hread => ?_
  have hreading := reading_of_attempts rfl hread.1
  obtain ⟨front, hfront⟩ := hread.2 before rfl
  -- no record, and no tag to go back to
  refine emits_ofExcept_bind (fun f _ => ?_) fun target htarget => ?_
  · rw [List.append_nil]
    exact .stopped hreading
  refine emits_ofExcept_bind (fun f _ => ?_) fun previous hprevious => ?_
  · rw [List.append_nil]
    exact .stopped hreading
  obtain ⟨hvalue, hsafe⟩ := rollbackTag_eq_ok hprevious
  refine Emits.bind emits_report (fun f new h => .stopped (hreading.append h.1))
    fun _ reports hreports => ?_
  have hcaptured : Captured client applicationUuid onPreviousImageTag (read ++ reports) before
      target previous := by
    refine ⟨⟨front, ?_⟩, htarget, hvalue, hsafe⟩
    rw [hfront, hreports.2 rfl]
  have hbefore := hreading.append hreports.1
  -- from here on the update is sent
  refine Emits.bind emits_updateEnvironment ?_ fun _ update hupdate => ?_
  · rintro f new ⟨answer, rfl⟩
    rw [← List.append_assoc]
    exact .updated hbefore hcaptured hnil
  obtain ⟨answer, rfl⟩ := hupdate
  have hstop {f : Failure} {mid : List Event} (hmid : Reading mid) :
      Deployed lib client applicationUuid targetImageTag onPreviousImageTag (.error f)
        (read ++ (reports ++ ([.request (client.updateRequest applicationUuid
          (updatePayload target targetImageTag)) answer] ++ mid))) := by
    rw [← List.append_assoc]
    exact .updated hbefore hcaptured hmid
  refine Emits.bind emits_environments (fun f new h => hstop (reading_of_attempts rfl h.1))
    fun after mid hmid => ?_
  have hmidReading := reading_of_attempts rfl hmid.1
  have hstop' {f : Failure} := hstop (f := f) (hmidReading.append hnil)
  refine emits_ofExcept_bind (fun f _ => hstop') fun updated hupdated => ?_
  refine emits_raiseUnless_bind (fun _ => hstop') fun hothers => ?_
  refine emits_raiseUnless_bind (fun _ => hstop') fun hmetadata => ?_
  rw [Bool.and_eq_true, decide_eq_true_eq, decide_eq_true_eq] at hothers
  rw [Bool.and_eq_true] at hmetadata
  have hverified : Verified lib client applicationUuid targetImageTag mid before after target :=
    ⟨hmid.2 after rfl, hothers.1, hothers.2, updated, hupdated, hmetadata.1, hmetadata.2⟩
  -- and from here on the trigger
  have htriggered {r : Except Failure ReleaseResult} {answer' : Answer} {polls : List Event}
      (hpolls : Reading polls)
      (hresult : ∀ x, r = .ok x → x.previousImageTag = previous ∧
        (∀ e ∈ polls, Attempt (client.statusRequest x.deploymentUuid) e) ∧
        Polled lib.strings polls) :
      Deployed lib client applicationUuid targetImageTag onPreviousImageTag r
        (read ++ (reports ++ ([.request (client.updateRequest applicationUuid
          (updatePayload target targetImageTag)) answer] ++ (mid ++
            ([.request client.triggerRequest answer'] ++ polls))))) := by
    rw [← List.append_assoc]
    exact .triggered hbefore hcaptured hmidReading hverified hpolls hresult
  refine Emits.bind emits_trigger ?_ fun uuid new hnew => ?_
  · rintro f new ⟨answer', rfl⟩
    exact htriggered hnil nofun
  obtain ⟨answer', rfl⟩ := hnew
  refine (emits_poll pollAttempts.toNat).mono fun r polls hr => ?_
  refine htriggered (reading_of_attempts rfl hr.1) fun x hx => ?_
  obtain ⟨rfl, hpolled⟩ := hr.2 x hx
  exact ⟨rfl, hr.1, hpolled⟩

/-! ## What is checked -/

/-- The records are the same, but for the order of their keys and with their strings as UTF-16 code
units. -/
def Agree (records records' : List Dict) : Prop :=
  records.map (fun record => (Value.dict record).sortKeys.utf16) =
    records'.map fun record => (Value.dict record).sortKeys.utf16

/-- The texts of the other records are no collision of `sha256`. -/
def NoCollision (lib : Library) (before after : List Dict) (targetUuid : Str) : Prop :=
  otherRecordsDigest lib after targetUuid = otherRecordsDigest lib before targetUuid →
    othersText lib after targetUuid = othersText lib before targetUuid

/-- One variable has changed. -/
structure OneChange (lib : Library) (before after : List Dict) (target : Dict)
    (targetImageTag : Str) : Prop where
  length : after.length = before.length
  others : ∀ uuid, Dict.get target "uuid" = .str uuid → NoCollision lib before after uuid →
    Agree (others after uuid) (others before uuid) ∧
      ((∀ record ∈ others after uuid, (Value.dict record).WellFormed) →
        (∀ record ∈ others before uuid, (Value.dict record).WellFormed) →
        (others after uuid).map (fun record => (Value.dict record).sortKeys) =
          (others before uuid).map fun record => (Value.dict record).sortKeys)
  updated : ∃ updated, targetRecord after = .ok updated ∧
    (∀ field ∈ "uuid" :: "key" :: booleanFields, Dict.get updated field = Dict.get target field) ∧
    (Dict.get updated "comment").eq (Dict.get target "comment") = true ∧
    Dict.get updated "value" = .str targetImageTag

theorem agree_of_othersText_eq {before after : List Dict} {uuid : Str}
    (h : othersText lib after uuid = othersText lib before uuid) :
    Agree (others after uuid) (others before uuid) := by
  have hunits := utf16_eq_of_dumps_eq h
  simp only [Value.sortKeys, Value.utf16, Value.list.injEq, Value.sortItems_eq_map,
    Value.utf16Items_eq_map, List.map_map] at hunits
  exact hunits

theorem sortKeys_eq_of_othersText_eq {before after : List Dict} {uuid : Str}
    (h : othersText lib after uuid = othersText lib before uuid)
    (hafter : ∀ record ∈ others after uuid, (Value.dict record).WellFormed)
    (hbefore : ∀ record ∈ others before uuid, (Value.dict record).WellFormed) :
    (others after uuid).map (fun record => (Value.dict record).sortKeys) =
      (others before uuid).map fun record => (Value.dict record).sortKeys := by
  have hlist {records : List Dict} (h : ∀ record ∈ records, (Value.dict record).WellFormed) :
      (Value.list (records.map .dict)).WellFormed := by
    refine Value.wellFormedItems_iff.2 fun v hv => ?_
    obtain ⟨record, hrecord, rfl⟩ := List.mem_map.1 hv
    exact h record hrecord
  have hsorted := sortKeys_eq_of_dumps_eq (hlist hafter) (hlist hbefore) h
  simp only [Value.sortKeys, Value.list.injEq, Value.sortItems_eq_map, List.map_map] at hsorted
  exact hsorted

/-- What `_target_record` makes sure of. -/
theorem targetRecord_eq_ok {environments : List Dict} {target : Dict}
    (h : targetRecord environments = .ok target) :
    (∃ uuid, Dict.get target "uuid" = .str uuid ∧ isIdentifier uuid = true) ∧
    Dict.get target "key" = .str (ofString "TRACKFLOW_IMAGE_TAG") ∧
    ∀ field ∈ booleanFields, ∃ b, Dict.get target field = .bool b := by
  unfold targetRecord at h
  simp only at h
  split at h
  case h_1 target' hfilter =>
    split_ifs at h with huuid hboolean htimes
    cases h
    have hmem : target ∈ environments.filter fun item =>
        (Dict.get item "key").isStr (ofString "TRACKFLOW_IMAGE_TAG") &&
          (Dict.get item "is_preview").isIdentical false := by
      rw [hfilter]
      exact List.mem_singleton_self target
    have hkey := (Bool.and_eq_true _ _ ▸ (List.mem_filter.1 hmem).2).1
    refine ⟨?_, Value.eq_of_isStr hkey, fun field hfield => ?_⟩
    · cases hvalue : Dict.get target "uuid" with
      | str uuid =>
        rw [hvalue, Bool.not_eq_false] at huuid
        exact ⟨uuid, rfl, huuid⟩
      | _ =>
        rw [hvalue] at huuid
        exact absurd rfl huuid
    · refine Value.exists_of_isBool ?_
      by_contra hno
      rw [Bool.not_eq_true] at hno
      refine hboolean (List.any_eq_true.2 ⟨field, hfield, ?_⟩)
      rw [hno]
      rfl
  case h_2 => cases h

/-- The checks are enough. -/
theorem Verified.oneChange {targetImageTag : Str} {es : List Event} {before after : List Dict}
    {target : Dict} (htarget : targetRecord before = .ok target)
    (h : Verified lib client applicationUuid targetImageTag es before after target) :
    OneChange lib before after target targetImageTag := by
  obtain ⟨⟨uuid, huuid, -⟩, hkey, hboolean⟩ := targetRecord_eq_ok htarget
  refine ⟨h.length, fun uuid' huuid' hcollision => ?_, ?_⟩
  · obtain hsame : uuid = uuid' := Value.str.inj (huuid.symm.trans huuid')
    subst hsame
    have hdigest := h.digest
    rw [huuid] at hdigest
    have htext := hcollision hdigest
    exact ⟨agree_of_othersText_eq htext, sortKeys_eq_of_othersText_eq htext⟩
  · obtain ⟨updated, hupdated, hmetadata, hvalue⟩ := h.updated
    obtain ⟨⟨uuid', huuid', -⟩, hkey', hboolean'⟩ := targetRecord_eq_ok hupdated
    rw [sameMetadata, List.all_eq_true] at hmetadata
    refine ⟨updated, hupdated, fun field hfield => ?_, hmetadata "comment" (by decide),
      Value.eq_of_isStr hvalue⟩
    rcases List.mem_cons.1 hfield with rfl | hfield
    · have heq := hmetadata "uuid" (by decide)
      rw [huuid'] at heq
      exact huuid'.trans (Value.eq_of_str heq).symm
    rcases List.mem_cons.1 hfield with rfl | hfield
    · exact hkey'.trans hkey.symm
    · have hfields : ∀ field ∈ booleanFields, field ∈ metadataFields := by decide
      obtain ⟨b, hb⟩ := hboolean field hfield
      obtain ⟨b', hb'⟩ := hboolean' field hfield
      have heq := hmetadata field (hfields field hfield)
      rw [hb, hb'] at heq
      rw [hb, hb', Value.eq_of_bool heq]

/-! ## The release -/

/-- The one event with a property, between others without it. -/
theorem eq_of_split {α : Type*} {p : α → Bool} {as bs cs ds : List α} {a b : α}
    (h : as ++ a :: bs = cs ++ b :: ds) (has : ∀ x ∈ as, p x = false)
    (hbs : ∀ x ∈ bs, p x = false) (hb : p b = true) : as = cs ∧ a = b ∧ bs = ds := by
  have hnot {xs : List α} (hxs : ∀ x ∈ xs, p x = false) : b ∉ xs := fun hmem =>
    absurd ((hxs b hmem).symm.trans hb) Bool.false_ne_true
  rcases List.append_eq_append_iff.1 h with ⟨xs, hcs, htail⟩ | ⟨xs, has', htail⟩
  · cases xs with
    | nil =>
      obtain ⟨rfl, rfl⟩ := List.cons.inj htail
      exact ⟨(hcs.trans (List.append_nil as)).symm, rfl, rfl⟩
    | cons x xs =>
      have hmem : b ∈ bs := by
        rw [(List.cons.inj htail).2]
        exact List.mem_append_right xs List.mem_cons_self
      exact absurd hmem (hnot hbs)
  · cases xs with
    | nil =>
      obtain ⟨rfl, rfl⟩ := List.cons.inj htail
      exact ⟨has'.trans (List.append_nil cs), rfl, rfl⟩
    | cons x xs =>
      obtain ⟨rfl, -⟩ := List.cons.inj htail
      have hmem : b ∈ as := by
        rw [has']
        exact List.mem_append_right cs List.mem_cons_self
      exact absurd hmem (hnot has)

theorem countP_le_one {α : Type*} {p : α → Bool} {as bs : List α} {a : α}
    (has : ∀ x ∈ as, p x = false) (hbs : ∀ x ∈ bs, p x = false) :
    (as ++ a :: bs).countP p ≤ 1 := by
  have hzero {xs : List α} (hxs : ∀ x ∈ xs, p x = false) : xs.countP p = 0 :=
    List.countP_eq_zero.2 fun x hx => Bool.eq_false_iff.1 (hxs x hx)
  rw [List.countP_append, List.countP_cons, hzero has, hzero hbs]
  split_ifs <;> decide

/-- **A release changes one variable, or nothing is deployed.**  Whatever the API answers: there is
at most one update and at most one trigger; behind the update stands a tag to go back to, reported
if there is a callback; behind the trigger stands a list in which nothing but the value of the
target has changed; and a success is a status that was polled, behind pending ones. -/
theorem deploy_release (lib : Library) (api : Api) (client : Client)
    (applicationUuid targetImageTag : Str) (pollAttempts : ℤ) (pollIntervalSeconds : ℚ)
    (onPreviousImageTag : Option Callback) {r : Except Failure ReleaseResult} {es : List Event}
    (h : deploy api lib client applicationUuid targetImageTag pollAttempts pollIntervalSeconds
      onPreviousImageTag [] = (r, es)) :
    (es.countP Event.isUpdate ≤ 1 ∧ es.countP Event.isTrigger ≤ 1) ∧
    (∀ front update behind, es = front ++ update :: behind → update.isUpdate = true →
      ∃ before target previous answer,
        Captured client applicationUuid onPreviousImageTag front before target previous ∧
        update = .request (client.updateRequest applicationUuid
          (updatePayload target targetImageTag)) answer) ∧
    (∀ front trigger behind, es = front ++ trigger :: behind → trigger.isTrigger = true →
      ∃ captured update start before target previous after,
        front = captured ++ update :: (start ++ [.request
          (client.environmentsRequest applicationUuid) (.json (.list (after.map .dict)))]) ∧
        update.isUpdate = true ∧
        Captured client applicationUuid onPreviousImageTag captured before target previous ∧
        OneChange lib before after target targetImageTag) ∧
    ∀ x, r = .ok x → ∃ front trigger polls, es = front ++ trigger :: polls ∧
      trigger.isTrigger = true ∧
      (∀ e ∈ polls, Attempt (client.statusRequest x.deploymentUuid) e) ∧
      Polled lib.strings polls := by
  have hno {es : List Event} (hreading : Reading es) :
      (∀ e ∈ es, e.isUpdate = false) ∧ ∀ e ∈ es, e.isTrigger = false :=
    ⟨fun e he => (hreading e he).1, fun e he => (hreading e he).2⟩
  -- an event that is not there has nothing behind it
  have hnone {p : Event → Bool} {q : Prop} {es front behind : List Event} {e : Event}
      (hes : ∀ e ∈ es, p e = false) (heq : es = front ++ e :: behind) (he : p e = true) : q := by
    have hmem : e ∈ es := by
      rw [heq]
      exact List.mem_append_right front List.mem_cons_self
    exact absurd ((hes e hmem).symm.trans he) Bool.false_ne_true
  have hcount {p : Event → Bool} {es : List Event} (hes : ∀ e ∈ es, p e = false) :
      es.countP p ≤ 1 := by
    rw [List.countP_eq_zero.2 fun e he => Bool.eq_false_iff.1 (hes e he)]
    exact Nat.zero_le 1
  cases emits_deploy.run_nil h with
  | stopped hreading =>
    obtain ⟨hupdate, htrigger⟩ := hno hreading
    refine ⟨⟨hcount hupdate, hcount htrigger⟩, ?_, ?_, nofun⟩
    · exact fun front e behind heq he => hnone hupdate heq he
    · exact fun front e behind heq he => hnone htrigger heq he
  | @updated f front mid before target previous answer hfront hcaptured hmid =>
    obtain ⟨hfrontUpdate, hfrontTrigger⟩ := hno hfront
    obtain ⟨hmidUpdate, hmidTrigger⟩ := hno hmid
    have htrigger : ∀ e ∈ front ++ .request (client.updateRequest applicationUuid
        (updatePayload target targetImageTag)) answer :: mid, e.isTrigger = false :=
      List.forall_mem_append.2 ⟨hfrontTrigger, List.forall_mem_cons.2 ⟨rfl, hmidTrigger⟩⟩
    refine ⟨⟨countP_le_one hfrontUpdate hmidUpdate, hcount htrigger⟩, ?_, ?_, nofun⟩
    · intro front' e behind heq he
      obtain ⟨rfl, rfl, rfl⟩ := eq_of_split heq hfrontUpdate hmidUpdate he
      exact ⟨before, target, previous, answer, hcaptured, rfl⟩
    · exact fun front e behind heq he => hnone htrigger heq he
  | @triggered _ front mid polls before after target previous answer answer' hfront hcaptured hmid
      hverified hpolls hresult =>
    obtain ⟨hfrontUpdate, hfrontTrigger⟩ := hno hfront
    obtain ⟨hmidUpdate, hmidTrigger⟩ := hno hmid
    obtain ⟨hpollsUpdate, hpollsTrigger⟩ := hno hpolls
    have hbehind : ∀ e ∈ mid ++ .request client.triggerRequest answer' :: polls,
        e.isUpdate = false :=
      List.forall_mem_append.2 ⟨hmidUpdate, List.forall_mem_cons.2 ⟨rfl, hpollsUpdate⟩⟩
    have hahead : ∀ e ∈ front ++ .request (client.updateRequest applicationUuid
        (updatePayload target targetImageTag)) answer :: mid, e.isTrigger = false :=
      List.forall_mem_append.2 ⟨hfrontTrigger, List.forall_mem_cons.2 ⟨rfl, hmidTrigger⟩⟩
    -- the whole, split at the trigger
    have hassoc : front ++ .request (client.updateRequest applicationUuid
        (updatePayload target targetImageTag)) answer ::
          (mid ++ .request client.triggerRequest answer' :: polls) =
        (front ++ .request (client.updateRequest applicationUuid
          (updatePayload target targetImageTag)) answer :: mid) ++
            .request client.triggerRequest answer' :: polls := by
      rw [List.append_assoc, List.cons_append]
    refine ⟨⟨countP_le_one hfrontUpdate hbehind, ?_⟩, ?_, ?_, ?_⟩
    · rw [hassoc]
      exact countP_le_one hahead hpollsTrigger
    · intro front' e behind heq he
      obtain ⟨rfl, rfl, rfl⟩ := eq_of_split heq hfrontUpdate hbehind he
      exact ⟨before, target, previous, answer, hcaptured, rfl⟩
    · intro front' e behind heq he
      rw [hassoc] at heq
      obtain ⟨rfl, rfl, rfl⟩ := eq_of_split heq hahead hpollsTrigger he
      obtain ⟨start, rfl⟩ := hverified.read
      exact ⟨front, _, start, before, target, previous, after, rfl, rfl, hcaptured,
        hverified.oneChange hcaptured.found⟩
    · intro x hx
      obtain ⟨-, hattempts, hpolled⟩ := hresult x hx
      exact ⟨_, _, polls, hassoc, rfl, hattempts, hpolled⟩

end

/-! ## Releases -/

/-- The digests of the texts below. -/
def digests : List (String × String) :=
  [("[]", "4f53cda18c2baa0c0354bb5f9a3ecbe5ed12ab4d8e11ba873c2f11161202b945"),
    ("[\x7b\"uuid\":\"other\",\"value\":\"\"\x7d]",
      "763d08f2311c9d1780cb4a974c3149df382c9c8a488d4ba476f36c9cfcdb9319"),
    ("[\x7b\"uuid\":\"other\",\"value\":\"\\ud83d\\ude00\"\x7d]",
      "a9fb0249aba4475428125c1104a61f28f8bbb586a5d4ce31b433cc525cc62925")]

/-- A standard library for the texts below. -/
def library : Library where
  strings := ⟨fun _ => [],
    fun s => s.map fun c => if 65 ≤ c.val ∧ c.val ≤ 90 then c + 32 else c, fun _ _ => rfl⟩
  repr := ⟨Json.exactRepr, fun _ => .inr (Option.some_ne_none _)⟩
  sha256 text := match digests.find? fun d => d.1.toList = text with
    | some d => ofString d.2
    | none => []

def oldTag : Str := ofString "sha-0000000000000000000000000000000000000000"

def newTag : Str := ofString "sha-1111111111111111111111111111111111111111"

def coolify : Client := .new (ofString "https://coolify/") (ofString "token") (ofString "hook")

/-- The record of the image tag. -/
def tagRecord (tag : Str) (comment : Value) : Dict :=
  [(ofString "uuid", .str (ofString "tag")),
    (ofString "key", .str (ofString "TRACKFLOW_IMAGE_TAG")), (ofString "value", .str tag),
    (ofString "is_preview", .bool false), (ofString "is_literal", .bool false),
    (ofString "is_multiline", .bool false), (ofString "is_shown_once", .bool false),
    (ofString "is_buildtime", .bool true), (ofString "is_runtime", .bool true),
    (ofString "comment", comment)]

/-- Another record. -/
def otherRecord (value : Str) : Dict :=
  [(ofString "uuid", .str (ofString "other")), (ofString "value", .str value)]

/-- An API with one list before its update, and one after it. -/
def listsApi (before after : List Dict) : Api := fun events request =>
  match request.method with
  | .patch => .json (.dict [])
  | .post => .json (.dict [(ofString "deployment_uuid", .str (ofString "run"))])
  | .get =>
    if request.url = coolify.environmentsUrl (ofString "app") then
      .json (.list ((if events.any Event.isUpdate then after else before).map .dict))
    else .json (.dict [(ofString "status", .str (ofString "Finished"))])

def releaseOf (before after : List Dict) (onPreviousImageTag : Option Callback) :
    Except Failure ReleaseResult × List Event :=
  deploy (listsApi before after) library coolify (ofString "app") newTag 45 20
    onPreviousImageTag []

theorem deploy_release_polled :
    ∃ front trigger polls, (releaseOf [tagRecord oldTag .none, otherRecord []]
        [tagRecord newTag .none, otherRecord []] (some fun _ => none)).2 =
        front ++ trigger :: polls ∧ trigger.isTrigger = true ∧
      (∀ e ∈ polls, Attempt (coolify.statusRequest (ofString "run")) e) ∧
      Polled library.strings polls := by
  have hrelease := deploy_release library (listsApi [tagRecord oldTag .none, otherRecord []]
    [tagRecord newTag .none, otherRecord []]) coolify (ofString "app") newTag 45 20
    (some fun _ => none) rfl
  exact hrelease.2.2.2 ⟨oldTag, ofString "run"⟩ (by decide +kernel)

/-- The words of a release, taken literally: without a callback the tag is not reported; `1` and
`true` are one comment; and a surrogate pair is one text with its character. -/
theorem deploy_literally :
    ((releaseOf [tagRecord oldTag .none] [tagRecord newTag .none] none).2.countP
        Event.isUpdate = 1 ∧
      (releaseOf [tagRecord oldTag .none] [tagRecord newTag .none] none).2.countP
        Event.isReport = 0) ∧
    ((releaseOf [tagRecord oldTag (.int 1)] [tagRecord newTag (.bool true)]
        (some fun _ => none)).2.countP Event.isTrigger = 1 ∧ Value.int 1 ≠ .bool true) ∧
    (releaseOf [tagRecord oldTag .none, otherRecord [0xd83d, 0xde00]]
        [tagRecord newTag .none, otherRecord [0x1f600]]
        (some fun _ => none)).2.countP Event.isTrigger = 1 ∧
      ([0xd83d, 0xde00] : Str) ≠ [0x1f600] := by
  refine ⟨⟨?_, ?_⟩, ⟨?_, nofun⟩, ?_, ?_⟩ <;> decide +kernel

end Release

end TrackFlow
