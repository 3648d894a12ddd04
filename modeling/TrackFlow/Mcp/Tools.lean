import TrackFlow.Incidents.Service
import TrackFlow.Mcp.Upstream
import TrackFlow.Python.Text

/-!
# The tools

The four tools of the MCP server: a call is authorized and checked, sends one request to the Central
API through the client, and returns a summary of the ticket or the payload.

* `prepare` : the request of a call, or the failure of its checks.
* `callTool` : the result of a call, with the number of requests that it sends.
* `callTool_sent_le` : **a mutating call sends one request at most.**
* `summary_of_callTool` : when a summary of a ticket is returned.
-/

namespace TrackFlow

namespace Mcp

open Json

/-- `InventoryAction`. -/
inductive InventoryAction
  | list
  | get
  | create
  | update
  | delete
  deriving DecidableEq, Repr

/-- A call of a tool. -/
inductive ToolCall
  | ticketCheckStatus (ticketId : ℤ)
  | ticketCreate (title description : String) (category : IncidentCategory)
      (origin : IncidentOrigin) (branch : Branch)
  | ticketUpdateStatus (ticketId : ℤ) (status : IncidentStatus)
  | inventoryAccess (action : InventoryAction) (skuId : Option ℤ) (limit offset : ℤ)
  deriving DecidableEq, Repr

/-- A request to the Central API. -/
inductive ApiRequest
  /-- `GET /api/incidents/{id}`. -/
  | getIncident (incidentId : ℕ)
  /-- `POST /api/incidents`. -/
  | createIncident (title description : String) (category : IncidentCategory)
      (origin : IncidentOrigin) (branch : Branch)
  /-- `PATCH /api/incidents/{id}/status`. -/
  | updateIncidentStatus (incidentId : ℕ) (status : IncidentStatus)
  /-- `GET /inventory/products/{id}`. -/
  | getProduct (skuId : ℕ)
  /-- `GET /inventory/products`. -/
  | listProducts (limit offset : ℕ)
  deriving DecidableEq, Repr

/-- The request is no `GET`. -/
def ApiRequest.mutating : ApiRequest → Bool
  | .createIncident .. | .updateIncidentStatus .. => true
  | _ => false

namespace ToolCall

/-- The scope that a tool requires. -/
def requiredScope : ToolCall → String
  | .ticketCheckStatus _ => "incidents:read"
  | .ticketCreate .. => "incidents:write"
  | .ticketUpdateStatus .. => "incidents:write"
  | .inventoryAccess .. => "inventory:read"

/-- The call asks for a change. -/
def mutating : ToolCall → Bool
  | .ticketCreate .. | .ticketUpdateStatus .. => true
  | _ => false

/-- `idempotent`, as the tool passes it. -/
def idempotent : ToolCall → Bool
  | .ticketCheckStatus _ => true
  | .inventoryAccess .. => true
  | _ => false

/-- The failure of a ticket number. -/
def invalidTicketId : ToolFailure := ⟨.invalidInput, "ticket_id must be a positive integer."⟩

/-- The checks of a tool, and the request that it makes. -/
def operation : ToolCall → Except ToolFailure ApiRequest
  | .ticketCheckStatus ticketId =>
    if ticketId ≤ 0 then .error invalidTicketId else .ok (.getIncident ticketId.toNat)
  | .ticketCreate title description category origin branch =>
    if Python.strip title.toList = [] ∨ 200 < title.length ∨
        (Python.strip description.toList).length < 5 ∨ 5000 < description.length then
      .error ⟨.invalidInput, "Ticket title or description is invalid."⟩
    else .ok (.createIncident title description category origin branch)
  | .ticketUpdateStatus ticketId status =>
    if ticketId ≤ 0 then .error invalidTicketId
    else .ok (.updateIncidentStatus ticketId.toNat status)
  | .inventoryAccess action skuId limit offset =>
    if action = .create ∨ action = .update ∨ action = .delete then
      .error ⟨.inventoryReadOnly, "Inventory tools are read-only; no upstream request was made."⟩
    else if limit < 1 ∨ 100 < limit ∨ offset < 0 ∨ (action = .get ∧ skuId.getD 0 ≤ 0) then
      .error ⟨.invalidInput, "Inventory query arguments are invalid."⟩
    else if action = .get then .ok (.getProduct (skuId.getD 0).toNat)
    else .ok (.listProducts limit.toNat offset.toNat)

end ToolCall

/-- `principal`, and then the checks of the tool; `scopes` are those of the token. -/
def prepare (scopes : Option (List String)) (call : ToolCall) : Except ToolFailure ApiRequest :=
  match scopes with
  | none => .error ⟨.authenticationRequired, "Authentication is required."⟩
  | some scopes =>
    if call.requiredScope ∉ scopes then
      .error ⟨.insufficientScope, "The token does not grant this operation."⟩
    else call.operation

/-- `_ticket_summary`. -/
structure TicketSummary where
  ticketId : PyValue
  status : PyValue
  category : PyValue
  createdAt : PyValue
  updatedAt : PyValue

def ticketSummary (payload : Payload) : TicketSummary :=
  ⟨payload.get "id", payload.get "status", payload.get "category", payload.get "created_at",
    payload.get "updated_at"⟩

/-- What a tool returns. -/
inductive ToolResult
  | summary (ticket : TicketSummary)
  | payload (payload : Payload)

/-- The result of a payload. -/
def ToolCall.result (call : ToolCall) (payload : Payload) : ToolResult :=
  match call with
  | .inventoryAccess .. => .payload payload
  | _ => .summary (ticketSummary payload)

/-- A call of a tool, with the number of requests that it sends. -/
def callTool (scopes : Option (List String)) (token : Except HttpError Response)
    (send : ApiRequest → ℕ → Except HttpError Response) (call : ToolCall) :
    Except ToolFailure ToolResult × ℕ :=
  match prepare scopes call with
  | .error e => (.error e, 0)
  | .ok r =>
    let (answer, sent) := request token (send r) call.idempotent
    (answer.map call.result, sent)

section

variable {scopes : Option (List String)} {token : Except HttpError Response}
  {send : ApiRequest → ℕ → Except HttpError Response} {call : ToolCall} {r : ApiRequest}

theorem prepare_eq_ok (h : prepare scopes call = .ok r) : call.operation = .ok r := by
  unfold prepare at h
  split at h
  · cases h
  · split_ifs at h
    exact h

/-- **A mutating call sends one request at most.** -/
theorem callTool_sent_le (h : call.mutating = true) : (callTool scopes token send call).2 ≤ 1 := by
  unfold callTool
  have hidempotent : call.idempotent = false := by
    cases call with
    | ticketCheckStatus ticketId => cases h
    | ticketCreate title description category origin branch => rfl
    | ticketUpdateStatus ticketId status => rfl
    | inventoryAccess action skuId limit offset => cases h
  cases prepare scopes call with
  | error e => exact Nat.zero_le 1
  | ok r =>
    dsimp only
    rw [hidempotent]
    exact request_sent_le token (send r)

/-- The call is one of a ticket. -/
def ToolCall.IsTicket : ToolCall → Prop
  | .inventoryAccess .. => False
  | _ => True

/-- When a result is the summary of a ticket. -/
theorem map_result_eq_summary {answer : Except ToolFailure Payload} {ticket : TicketSummary} :
    answer.map call.result = .ok (.summary ticket) ↔
      call.IsTicket ∧ ∃ payload, answer = .ok payload ∧ ticketSummary payload = ticket := by
  cases answer with
  | error e => simp [Except.map]
  | ok payload => cases call <;> simp [Except.map, ToolCall.result, ToolCall.IsTicket]

/-- When a call returns a summary of a ticket. -/
theorem summary_of_callTool {ticket : TicketSummary} :
    (callTool scopes token send call).1 = .ok (.summary ticket) ↔
      call.IsTicket ∧ ∃ r payload, prepare scopes call = .ok r ∧
        (request token (send r) call.idempotent).1 = .ok payload ∧
        ticketSummary payload = ticket := by
  unfold callTool
  cases prepare scopes call with
  | error e => simp
  | ok r => exact map_result_eq_summary.trans (by simp)

end

end Mcp

end TrackFlow
