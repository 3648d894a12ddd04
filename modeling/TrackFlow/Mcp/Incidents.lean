import TrackFlow.Mcp.Tools

/-!
# What the tools tell about incidents

The other side of the client: the Central API, which answers the requests of the tools from the
incident service, and a network that may lose a request or its answer, or answer itself.  Every
attempt meets the tables and the clock as they are then.

* `CentralApi.handle` : the endpoints, with what the service has said.
* `refusesTransition_iff` : when the service refuses a change of status for its transition.
* `tells_truth_iff` : **when a tool tells the truth.**
-/

namespace TrackFlow

/-- The value of a category. -/
def IncidentCategory.value : IncidentCategory → String
  | .lostParcel => "lost_parcel"
  | .deliveryFailure => "delivery_failure"
  | .inventoryDiscrepancy => "inventory_discrepancy"
  | .carrierIssue => "carrier_issue"
  | .returnsIssue => "returns_issue"
  | .warehouseIncident => "warehouse_incident"
  | .systemFailure => "system_failure"
  | .clientComplaint => "client_complaint"
  | .other => "other"

/-- The value of an origin. -/
def IncidentOrigin.value : IncidentOrigin → String
  | .customer => "customer"
  | .branch => "branch"
  | .internal => "internal"

/-- The value of a branch. -/
def Branch.value : Branch → String
  | .central => "central"
  | .laWarehouse => "la_warehouse"
  | .laOffice => "la_office"
  | .zaragozaWarehouse => "zaragoza_warehouse"
  | .zaragozaOffice => "zaragoza_office"

namespace Mcp

open Json IncidentService

/-! ## The Central API -/

/-- What the Central API meets when a request arrives. -/
structure CentralApi (strip : String → String) where
  /-- The caller and its delegated identity, or the response that refuses it. -/
  principal : Except Response (String × Option ScopedPrincipal)
  incidents : Incidents
  /-- Where the database raises, if it does. -/
  fault : Option (ℕ × SqlError)
  createdAt : ℕ
  updatedAt : ℕ
  newId : ℕ
  isoformat : ℕ → String
  /-- The answers of the inventory. -/
  inventory : ApiRequest → Response

/-- A text in JSON. -/
def text (s : String) : PyValue := .str s.toList

/-- The JSON of an incident. -/
def incidentJson (isoformat : ℕ → String) (incident : IncidentRead) : PyValue :=
  .dict [("title".toList, text incident.title), ("description".toList, text incident.description),
    ("category".toList, text incident.category.value),
    ("origin".toList, text incident.origin.value), ("branch".toList, text incident.branch.value),
    ("id".toList, .int incident.id), ("status".toList, text incident.status.value),
    ("created_at".toList, text (isoformat incident.createdAt)),
    ("updated_at".toList, text (isoformat incident.updatedAt)),
    ("created_by_user_uuid".toList, incident.createdByUserUuid.elim .none text)]

/-- The JSON of an error. -/
def errorJson (code message : String) (fields : List (String × String)) : PyValue :=
  .dict [("error".toList, .dict [("code".toList, text code), ("message".toList, text message),
    ("fields".toList, .dict (fields.map fun field => (field.1.toList, text field.2)))])]

/-- The response to a call of the service; `none` if the request does not pass its schema. -/
def respond (isoformat : ℕ → String) (success : ℕ) :
    Option (Except Raised IncidentRead) → Response
  | some (.ok incident) => ⟨success, some (incidentJson isoformat incident)⟩
  | some (.error (.incident e)) =>
    ⟨e.statusCode, some (errorJson e.code e.message ((e.field.map fun f => (f, e.message)).toList))⟩
  | some (.error (.sqlalchemy _)) =>
    ⟨503, some (.dict [("detail".toList, text "Inventory service temporarily unavailable")])⟩
  | some (.error .validation) =>
    ⟨500, some (.dict [("error".toList, .dict [("code".toList, text "INTERNAL_ERROR"),
      ("message".toList, text "Something went wrong. Please try again.")])])⟩
  | none => ⟨400, some (errorJson "VALIDATION_ERROR" "Request validation failed." [])⟩

section

variable {strip : String → String}

/-- The schema of a new incident. -/
def validateCreate (title description : String) (category : IncidentCategory)
    (origin : IncidentOrigin) (branch : Branch) : Option (IncidentCreate strip) :=
  if h : strip (strip title) = strip title ∧ strip (strip description) = strip description ∧
      titleFits (strip title) = true ∧ descriptionFits (strip description) = true then
    some ⟨strip title, strip description, category, origin, branch, h.1, h.2.1, h.2.2.1, h.2.2.2⟩
  else none

namespace CentralApi

variable (api : CentralApi strip)

/-- The endpoints: what the service has said if it was called, and the response. -/
def handle (r : ApiRequest) : Option (Except Raised IncidentRead) × Response :=
  match api.principal with
  | .error refusal => (none, refusal)
  | .ok (userId, principal) =>
    match r with
    | .getIncident incidentId =>
      let said := (((Tx.rescue onRaise (IncidentService.get strip incidentId principal)).run
        (.start api.incidents api.fault)).1)
      (some said, respond api.isoformat 200 (some said))
    | .createIncident title description category origin branch =>
      let said := (validateCreate title description category origin branch).map fun payload =>
        ((Request.create payload userId api.createdAt api.updatedAt api.newId : Request strip).call
          api.incidents api.fault).1
      (said, respond api.isoformat 201 said)
    | .updateIncidentStatus incidentId status =>
      let said := ((Request.updateStatus incidentId status principal api.updatedAt :
        Request strip).call api.incidents api.fault).1
      (some said, respond api.isoformat 200 (some said))
    | r => (none, api.inventory r)

end CentralApi

/-! ## The network -/

/-- What becomes of a request. -/
inductive Delivery
  /-- The Central API answers. -/
  | answered
  /-- The Central API handles the request, and its answer is lost. -/
  | lost (e : HttpError)
  /-- The request does not arrive. -/
  | unreached (e : HttpError)
  /-- The request does not reach the endpoint, and is answered on the way. -/
  | intercepted (response : Response)

/-- A request, what the service has said to it, and what the client sees. -/
structure Exchange where
  request : ApiRequest
  said : Option (Except Raised IncidentRead)
  answer : Except HttpError Response

/-- What a call of a tool meets: the answer of the authorization service, and at every attempt
the Central API and the network. -/
structure Network (strip : String → String) where
  token : Except HttpError Response
  api : ℕ → CentralApi strip
  delivery : ℕ → Delivery

namespace Network

variable (net : Network strip)

/-- An attempt. -/
def exchange (r : ApiRequest) (attempt : ℕ) : Exchange :=
  let (said, response) := (net.api attempt).handle r
  match net.delivery attempt with
  | .answered => ⟨r, said, .ok response⟩
  | .lost e => ⟨r, said, .error e⟩
  | .unreached e => ⟨r, none, .error e⟩
  | .intercepted response => ⟨r, none, .ok response⟩

/-- What the client sees of the attempts. -/
def send (r : ApiRequest) (attempt : ℕ) : Except HttpError Response :=
  (net.exchange r attempt).answer

/-- A call of a tool: its result, and all requests that it sends. -/
def run (scopes : Option (List String)) (call : ToolCall) :
    Except ToolFailure ToolResult × List Exchange :=
  let (result, sent) := callTool scopes net.token net.send call
  match prepare scopes call with
  | .error _ => (result, [])
  | .ok r => (result, (List.range sent).map (net.exchange r))

end Network

/-- The status code of a success. -/
def Successful (statusCode : ℕ) : Prop := 200 ≤ statusCode ∧ statusCode < 300

instance (statusCode : ℕ) : Decidable (Successful statusCode) :=
  inferInstanceAs (Decidable (_ ∧ _))

/-- The service has refused the transition. -/
def Exchange.RefusesTransition (x : Exchange) : Prop :=
  ∃ current status, x.said = some (.error (.incident (invalidTransition current status)))

/-- What a tool may tell of a call. -/
structure TellsTruth (call : ToolCall) (result : Except ToolFailure ToolResult)
    (exchanges : List Exchange) : Prop where
  /-- A mutating call sends at most one mutating request. -/
  once : call.mutating = true → (exchanges.filter fun x => x.request.mutating).length ≤ 1
  /-- A summary is returned only if the API has answered with a success. -/
  summary : ∀ ticket, result = .ok (.summary ticket) →
    ∃ x ∈ exchanges, ∃ response, x.answer = .ok response ∧ Successful response.statusCode
  /-- A refused transition is reported as one. -/
  transition : ∀ ticketId status, call = .ticketUpdateStatus ticketId status →
    ∀ x ∈ exchanges, x.RefusesTransition → ∃ e, result = .error e ∧ e.code = .invalidTransition

namespace Network

variable (net : Network strip)

/-- The last answer is an object of a status code that is neither a success nor mapped. -/
def Misread (scopes : Option (List String)) (call : ToolCall) : Prop :=
  call.IsTicket ∧ ∃ r, prepare scopes call = .ok r ∧ (∃ t, Mcp.exchange net.token = .ok t) ∧
    ∃ statusCode payload,
      net.send r (lastAttempt (net.send r) call.idempotent) =
        .ok ⟨statusCode, some (.dict payload)⟩ ∧
      raiseForStatus statusCode = .ok () ∧ ¬Successful statusCode

/-- The request to change a status arrives, and the transition from the status of the incident is
not allowed. -/
def Refused (scopes : Option (List String)) (call : ToolCall) : Prop :=
  ∃ ticketId status, call = .ticketUpdateStatus ticketId status ∧
    prepare scopes call = .ok (.updateIncidentStatus ticketId.toNat status) ∧
    (∃ t, Mcp.exchange net.token = .ok t) ∧
    (net.delivery 0 = .answered ∨ ∃ e, net.delivery 0 = .lost e) ∧
    ∃ userId principal incident, (net.api 0).principal = .ok (userId, principal) ∧
      (net.api 0).incidents.lookup ticketId.toNat = some incident ∧
      authorizeDelegated incident principal = .ok () ∧
      status ∉ allowedTransitions incident.status ∧ ∀ e, (net.api 0).fault ≠ some (0, e)

end Network

/-! ## When a transition is refused -/

section Service

variable {db : Incidents} {fault : Option (ℕ × SqlError)} {incidentId : ℕ} {status : IncidentStatus}
  {principal : Option ScopedPrincipal} {now : ℕ}

/-- A program answers what its statements end with, or that the service is unavailable. -/
theorem answer_cases {p : Program IncidentRead} {t : List (Option Incidents)}
    {r : Except Raised IncidentRead} (h : Runs .sqlalchemy p db t r) :
    ((∀ k e, fault = some (k, e) → t.length ≤ k) ∧
      ((Tx.rescue onRaise p).run (.start db fault)).1 = r.mapError onRaise) ∨
    ((∃ k e, fault = some (k, e) ∧ k < t.length) ∧
      ((Tx.rescue onRaise p).run (.start db fault)).1 =
        .error (.incident persistenceFailure)) := by
  obtain ⟨w, hw⟩ := h
  rw [(Tx.rescue_run _).2.2]
  rcases hw.session_cases fault with ⟨hclear, hsession⟩ | ⟨k, e, hk, hlt, hsession⟩
  · have hfst : (p.run (.start db fault)).1 = r := congrArg Prod.fst hsession
    rw [hfst]
    exact .inl ⟨hclear, rfl⟩
  · have hfst : (p.run (.start db fault)).1 = .error (.sqlalchemy e) := congrArg Prod.fst hsession
    rw [hfst]
    exact .inr ⟨⟨k, e, hk, hlt⟩, rfl⟩

/-- The service refuses a change of status for its transition exactly when it finds the incident,
authorizes the caller and does not allow the transition. -/
theorem refusesTransition_iff :
    (∃ current status', ((Request.updateStatus incidentId status principal now :
        Request strip).call db fault).1 =
        .error (.incident (invalidTransition current status'))) ↔
      ∃ incident, db.lookup incidentId = some incident ∧
        authorizeDelegated incident principal = .ok () ∧
        status ∉ allowedTransitions incident.status ∧ ∀ e, fault ≠ some (0, e) := by
  change (∃ current status', ((Tx.rescue onRaise (IncidentService.updateStatus strip incidentId
    status principal now)).run (.start db fault)).1 = _) ↔ _
  -- a program that ends in anything else refuses no transition
  have hother {t : List (Option Incidents)} {r : Except Raised IncidentRead}
      (h : Runs .sqlalchemy (IncidentService.updateStatus strip incidentId status principal now) db
        t r) (hr : ∀ current status', r.mapError onRaise ≠
          .error (.incident (invalidTransition current status'))) :
      ¬∃ current status', ((Tx.rescue onRaise (IncidentService.updateStatus strip incidentId status
        principal now)).run (.start db fault)).1 =
          .error (.incident (invalidTransition current status')) := by
    rintro ⟨current, status', hrefused⟩
    rcases answer_cases h with ⟨-, heq⟩ | ⟨-, heq⟩
    · exact hr current status' (heq.symm.trans hrefused)
    · rw [heq] at hrefused
      cases hrefused
  cases hi : db.lookup incidentId with
  | none =>
    simp only [reduceCtorEq, false_and, exists_false, iff_false]
    refine hother (runs_updateStatus_missing hi) fun current status' he => ?_
    have hcode : (404 : ℕ) = 400 :=
      congrArg IncidentError.statusCode (Raised.incident.inj (Except.error.inj he))
    omega
  | some incident =>
    cases ha : authorizeDelegated incident principal with
    | error e =>
      have hdenied := statusCode_of_authorizeDelegated ha
      refine iff_of_false (hother (runs_updateStatus_denied hi ha) fun current status' he => ?_) ?_
      · have hcode : e.statusCode = 400 :=
          congrArg IncidentError.statusCode (Raised.incident.inj (Except.error.inj he))
        omega
      · rintro ⟨_, hsome, hok, -⟩
        cases hsome
        rw [ha] at hok
        cases hok
    | ok u =>
      by_cases hs : status ∈ allowedTransitions incident.status
      · refine iff_of_false (hother (runs_updateStatus_moved hi ha hs)
          fun current status' he => ?_) ?_
        · unfold IncidentService.read at he
          split_ifs at he <;> cases he
        · rintro ⟨_, hsome, -, hnot, -⟩
          cases hsome
          exact hnot hs
      · rcases answer_cases (runs_updateStatus_refused hi ha hs) with
          ⟨hclear, heq⟩ | ⟨⟨k, e, hk, hlt⟩, heq⟩
        · refine iff_of_true ⟨_, _, heq⟩ ⟨incident, rfl, ha, hs, fun e he => ?_⟩
          exact absurd (hclear 0 e he) (by decide)
        · obtain rfl : k = 0 := by simpa using hlt
          refine iff_of_false ?_ ?_
          · rintro ⟨current, status', he⟩
            rw [heq] at he
            cases he
          · rintro ⟨_, -, -, -, hclear⟩
            exact hclear e hk

end Service

/-! ## What the tools tell -/

section Runs

variable {net : Network strip} {scopes : Option (List String)} {call : ToolCall} {r : ApiRequest}

/-- The exchanges of a call that passes its checks, with a token. -/
theorem run_exchanges (hprepare : prepare scopes call = .ok r)
    (htoken : ∃ t, exchange net.token = .ok t) :
    (net.run scopes call).2 =
      (List.range (lastAttempt (net.send r) call.idempotent + 1)).map (net.exchange r) := by
  obtain ⟨t, ht⟩ := htoken
  have hsent : (callTool scopes net.token net.send call).2 =
      lastAttempt (net.send r) call.idempotent + 1 := by
    unfold callTool
    rw [hprepare]
    dsimp only
    rw [request_sent, ht]
  unfold Network.run
  dsimp only
  rw [hprepare]
  dsimp only
  rw [hsent]

/-- A call that does not pass its checks, or gets no token, sends nothing. -/
theorem run_exchanges_eq_nil (h : ∀ r, prepare scopes call = .ok r →
    ¬∃ t, exchange net.token = .ok t) : (net.run scopes call).2 = [] := by
  unfold Network.run
  dsimp only
  cases hprepare : prepare scopes call with
  | error e => rfl
  | ok r =>
    have hnone := h r hprepare
    have hsent : (callTool scopes net.token net.send call).2 = 0 := by
      unfold callTool
      rw [hprepare]
      dsimp only
      rw [request_sent]
      cases ht : exchange net.token with
      | error e => rfl
      | ok t => exact absurd ⟨t, ht⟩ hnone
    dsimp only
    rw [hsent]
    rfl

theorem run_result : (net.run scopes call).1 = (callTool scopes net.token net.send call).1 := by
  unfold Network.run
  dsimp only
  cases prepare scopes call <;> rfl

/-- An answer that is asked for again is no success. -/
theorem not_successful_of_retried {response : Response} (h : Retried (.ok response)) :
    ¬Successful response.statusCode := by
  have hmem : response.statusCode ∈ transientStatuses := h
  simp only [transientStatuses, List.mem_cons, List.not_mem_nil, or_false] at hmem
  unfold Successful
  omega

/-- What the service has said to a change of status that arrives. -/
theorem handle_updateIncidentStatus_iff {api : CentralApi strip} {incidentId : ℕ}
    {status : IncidentStatus} :
    (∃ current status', (api.handle (.updateIncidentStatus incidentId status)).1 =
        some (.error (.incident (invalidTransition current status')))) ↔
      ∃ userId principal incident, api.principal = .ok (userId, principal) ∧
        api.incidents.lookup incidentId = some incident ∧
        authorizeDelegated incident principal = .ok () ∧
        status ∉ allowedTransitions incident.status ∧ ∀ e, api.fault ≠ some (0, e) := by
  unfold CentralApi.handle
  cases hp : api.principal with
  | error refusal => simp
  | ok caller =>
    obtain ⟨userId, principal⟩ := caller
    simp only [Option.some.injEq]
    rw [refusesTransition_iff]
    constructor
    · rintro ⟨incident, h⟩
      exact ⟨userId, principal, incident, rfl, h⟩
    · rintro ⟨_, _, incident, hcaller, h⟩
      cases hcaller
      exact ⟨incident, h⟩

/-- The service refuses the transition of an attempt exactly when the request arrives and the
transition is not allowed. -/
theorem refuses_exchange_iff {incidentId : ℕ} {status : IncidentStatus} {attempt : ℕ} :
    (net.exchange (.updateIncidentStatus incidentId status) attempt).RefusesTransition ↔
      (net.delivery attempt = .answered ∨ ∃ e, net.delivery attempt = .lost e) ∧
      ∃ userId principal incident, (net.api attempt).principal = .ok (userId, principal) ∧
        (net.api attempt).incidents.lookup incidentId = some incident ∧
        authorizeDelegated incident principal = .ok () ∧
        status ∉ allowedTransitions incident.status ∧
        ∀ e, (net.api attempt).fault ≠ some (0, e) := by
  rw [← handle_updateIncidentStatus_iff]
  unfold Exchange.RefusesTransition Network.exchange
  dsimp only
  cases net.delivery attempt with
  | answered => simp
  | lost e => simp
  | unreached e => simp
  | intercepted response => simp

/-- The response to a change of status is that of what the service has said. -/
theorem response_updateIncidentStatus {api : CentralApi strip} {incidentId : ℕ}
    {status : IncidentStatus} {said : Except Raised IncidentRead}
    (h : (api.handle (.updateIncidentStatus incidentId status)).1 = some said) :
    (api.handle (.updateIncidentStatus incidentId status)).2 =
      respond api.isoformat 200 (some said) := by
  unfold CentralApi.handle at h ⊢
  cases hp : api.principal with
  | error refusal =>
    rw [hp] at h
    cases h
  | ok caller =>
    rw [hp] at h
    cases h
    rfl

/-- A refused transition is never reported as one: an answer that arrives is reported as invalid
input. -/
theorem result_of_refused {ticketId : ℤ} {status : IncidentStatus}
    (hprepare : prepare scopes (.ticketUpdateStatus ticketId status) =
      .ok (.updateIncidentStatus ticketId.toNat status))
    (htoken : ∃ t, exchange net.token = .ok t)
    (hrefuses : (net.exchange (.updateIncidentStatus ticketId.toNat status) 0).RefusesTransition) :
    ∃ e, (net.run scopes (.ticketUpdateStatus ticketId status)).1 = .error e ∧
      e.code ≠ .invalidTransition := by
  obtain ⟨t, ht⟩ := htoken
  set r : ApiRequest := .updateIncidentStatus ticketId.toNat status
  have hlast : lastAttempt (net.send r) false = 0 := if_neg fun h => Bool.false_ne_true h.1
  have hresult : (net.run scopes (.ticketUpdateStatus ticketId status)).1 =
      (outcomeOf (net.send r 0)).map (ToolCall.result (.ticketUpdateStatus ticketId status)) := by
    rw [run_result, callTool, hprepare]
    dsimp only [ToolCall.idempotent]
    rw [request_of_token ht, hlast]
  have herror {e : ToolFailure} (h : outcomeOf (net.send r 0) = .error e)
      (hcode : e.code ≠ .invalidTransition) : ∃ e,
      (net.run scopes (.ticketUpdateStatus ticketId status)).1 = .error e ∧
        e.code ≠ .invalidTransition := by
    rw [hresult, h]
    exact ⟨e, rfl, hcode⟩
  obtain ⟨current, status', hsaid⟩ := hrefuses
  unfold Network.exchange at hsaid
  dsimp only at hsaid
  cases hd : net.delivery 0 with
  | answered =>
    rw [hd] at hsaid
    have hsend : net.send r 0 = .ok (respond (net.api 0).isoformat 200
        (some (.error (.incident (invalidTransition current status'))))) := by
      unfold Network.send Network.exchange
      dsimp only
      rw [hd, response_updateIncidentStatus hsaid]
    rw [hsend] at herror
    exact herror rfl (by decide)
  | lost e =>
    have hsend : net.send r 0 = .error e := by
      unfold Network.send Network.exchange
      dsimp only
      rw [hd]
    rw [hsend] at herror
    rcases outcomeOf_error e with h | h
    · exact herror h (by decide)
    · exact herror h (by decide)
  | unreached e =>
    rw [hd] at hsaid
    cases hsaid
  | intercepted response =>
    rw [hd] at hsaid
    cases hsaid

/-- A mutating call is attempted once. -/
theorem lastAttempt_of_mutating {send : ℕ → Except HttpError Response}
    (h : call.mutating = true) : lastAttempt send call.idempotent = 0 := by
  cases call with
  | ticketCheckStatus ticketId => cases h
  | ticketCreate title description category origin branch =>
    exact if_neg fun hand => Bool.false_ne_true hand.1
  | ticketUpdateStatus ticketId status => exact if_neg fun hand => Bool.false_ne_true hand.1
  | inventoryAccess action skuId limit offset => cases h

theorem eq_of_prepare {ticketId : ℤ} {status : IncidentStatus}
    (h : prepare scopes (.ticketUpdateStatus ticketId status) = .ok r) :
    r = .updateIncidentStatus ticketId.toNat status := by
  have hop := prepare_eq_ok h
  simp only [ToolCall.operation] at hop
  split_ifs at hop
  cases hop
  rfl

/-- **When a tool tells the truth.**  Never more than one mutating request is sent; and what the
call reports is true if and only if its last answer is not misread, and no transition is refused. -/
theorem tells_truth_iff (net : Network strip) (scopes : Option (List String)) (call : ToolCall) :
    TellsTruth call (net.run scopes call).1 (net.run scopes call).2 ↔
      ¬net.Misread scopes call ∧ ¬net.Refused scopes call := by
  constructor
  · intro htruth
    constructor
    · rintro ⟨hticket, r, hprepare, htoken, statusCode, payload, hsend, hstatus, hfail⟩
      have hok : (callTool scopes net.token net.send call).1 =
          .ok (.summary (ticketSummary payload)) :=
        summary_of_callTool.2 ⟨hticket, r, payload, hprepare,
          request_eq_ok_iff.2 ⟨htoken, statusCode, hsend, hstatus⟩, rfl⟩
      obtain ⟨x, hx, response, hanswer, hsuccess⟩ :=
        htruth.summary _ (run_result.trans hok)
      rw [run_exchanges hprepare htoken] at hx
      obtain ⟨attempt, hattempt, rfl⟩ := List.mem_map.1 hx
      rw [List.mem_range] at hattempt
      change net.send r attempt = .ok response at hanswer
      -- the successful answer is not the last one, and so it is asked for again
      by_cases hlast : attempt = lastAttempt (net.send r) call.idempotent
      · rw [hlast, hsend] at hanswer
        cases hanswer
        exact hfail hsuccess
      · unfold lastAttempt at hattempt hlast
        split_ifs at hattempt hlast with hretried
        · obtain rfl : attempt = 0 := by omega
          rw [hanswer] at hretried
          exact not_successful_of_retried hretried.2 hsuccess
        · omega
    · rintro ⟨ticketId, status, rfl, hprepare, htoken, hdelivered, hrefused⟩
      have hrefuses := refuses_exchange_iff.2 ⟨hdelivered, hrefused⟩
      have hmem : net.exchange (.updateIncidentStatus ticketId.toNat status) 0 ∈
          (net.run scopes (.ticketUpdateStatus ticketId status)).2 := by
        rw [run_exchanges hprepare htoken]
        exact List.mem_map_of_mem (List.mem_range.2 (Nat.succ_pos _))
      obtain ⟨e, he, hcode⟩ := htruth.transition ticketId status rfl _ hmem hrefuses
      obtain ⟨e', he', hcode'⟩ := result_of_refused hprepare htoken hrefuses
      rw [he] at he'
      cases he'
      exact hcode' hcode
  · rintro ⟨hmisread, hrefused⟩
    refine ⟨fun hmutating => ?_, fun ticket hticket => ?_, ?_⟩
    · refine (List.length_filter_le _ _).trans ?_
      by_cases h : ∃ r, prepare scopes call = .ok r ∧ ∃ t, exchange net.token = .ok t
      · obtain ⟨r, hprepare, htoken⟩ := h
        rw [run_exchanges hprepare htoken, lastAttempt_of_mutating hmutating]
        exact le_rfl
      · rw [run_exchanges_eq_nil fun r hr ht => h ⟨r, hr, ht⟩]
        exact Nat.zero_le 1
    · rw [run_result] at hticket
      obtain ⟨histicket, r, payload, hprepare, hrequest, -⟩ := summary_of_callTool.1 hticket
      obtain ⟨htoken, statusCode, hsend, hstatus⟩ := request_eq_ok_iff.1 hrequest
      refine ⟨net.exchange r (lastAttempt (net.send r) call.idempotent), ?_, _, hsend, ?_⟩
      · rw [run_exchanges hprepare htoken]
        exact List.mem_map_of_mem (List.mem_range.2 (Nat.lt_succ_self _))
      · by_contra hfail
        exact hmisread ⟨histicket, r, hprepare, htoken, statusCode, payload, hsend, hstatus, hfail⟩
    · rintro ticketId status rfl x hx hrefuses
      by_cases h : ∃ r, prepare scopes (.ticketUpdateStatus ticketId status) = .ok r ∧
          ∃ t, exchange net.token = .ok t
      · obtain ⟨r, hprepare, htoken⟩ := h
        obtain rfl := eq_of_prepare hprepare
        rw [run_exchanges hprepare htoken, lastAttempt_of_mutating rfl] at hx
        obtain rfl := List.mem_singleton.1 hx
        obtain ⟨hdelivered, hrefuses⟩ := refuses_exchange_iff.1 hrefuses
        exact absurd ⟨ticketId, status, rfl, hprepare, htoken, hdelivered, hrefuses⟩ hrefused
      · rw [run_exchanges_eq_nil fun r hr ht => h ⟨r, hr, ht⟩] at hx
        cases hx

end Runs

end

/-! ## A refused transition and an unmapped answer -/

/-- A Central API with one open incident. -/
def openIncidentApi : CentralApi id where
  principal := .ok ("u", none)
  incidents := ⟨[⟨7, "Lost parcel", "No trace", .lostParcel, .open, .customer, .central, 0, 0,
    some "u", none⟩], by decide⟩
  fault := none
  createdAt := 1
  updatedAt := 1
  newId := 8
  isoformat _ := ""
  inventory _ := ⟨404, none⟩

/-- A network that obtains a token. -/
def networkOf (delivery : Delivery) : Network id where
  token := .ok ⟨200, some (.dict [("access_token".toList, text "t")])⟩
  api _ := openIncidentApi
  delivery _ := delivery

/-- A call that resolves an open incident. -/
def resolveOpen : ToolCall := .ticketUpdateStatus 7 .resolved

/-- A transition that the service refuses is reported as invalid input; and an answer of a status
code that is not mapped is reported as a ticket. -/
theorem refused_transition_is_invalid_input :
    (((networkOf .answered).run (some ["incidents:write"]) resolveOpen).1 =
        .error ⟨.invalidInput, "The request was invalid."⟩ ∧
      ¬TellsTruth resolveOpen ((networkOf .answered).run (some ["incidents:write"]) resolveOpen).1
        ((networkOf .answered).run (some ["incidents:write"]) resolveOpen).2) ∧
    ((networkOf (.intercepted ⟨429, some (.dict [])⟩)).run (some ["incidents:write"])
        resolveOpen).1 = .ok (.summary ⟨.none, .none, .none, .none, .none⟩) := by
  have hresult : ((networkOf .answered).run (some ["incidents:write"]) resolveOpen).1 =
      .error ⟨.invalidInput, "The request was invalid."⟩ := rfl
  refine ⟨⟨hresult, fun h => ?_⟩, rfl⟩
  have hmem : (networkOf .answered).exchange (.updateIncidentStatus 7 .resolved) 0 ∈
      ((networkOf .answered).run (some ["incidents:write"]) resolveOpen).2 :=
    List.mem_singleton.2 rfl
  obtain ⟨e, he, hcode⟩ := h.transition 7 .resolved rfl _ hmem ⟨.open, .resolved, rfl⟩
  rw [hresult] at he
  cases he
  cases hcode

end Mcp

end TrackFlow
