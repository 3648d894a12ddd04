import TrackFlow.Sql.Statements
import TrackFlow.Sql.Table

/-!
# The incident service, statement by statement

`create` and `update_status` of `IncidentService` as programs of statements on one connection, and
`get`.  A new incident is inserted, and a changed one updated, when `COMMIT` flushes the session.
The answer is read from the row behind `COMMIT`, and the response schema checks it again: a row
that an import has written may be shorter than the schema allows.

* `allowedTransitions` : the lifecycle of an incident.
* `Request.program` : the statements of a call, with its handlers.
* `Request.raises_unchanged_iff` : **when a call that raises has written nothing**.
-/

namespace TrackFlow

/-- `IncidentCategory`. -/
inductive IncidentCategory
  | lostParcel
  | deliveryFailure
  | inventoryDiscrepancy
  | carrierIssue
  | returnsIssue
  | warehouseIncident
  | systemFailure
  | clientComplaint
  | other
  deriving DecidableEq, Repr

/-- `IncidentStatus`. -/
inductive IncidentStatus
  | «open»
  | inProgress
  | resolved
  | discarded
  deriving DecidableEq, Repr

/-- `IncidentOrigin`. -/
inductive IncidentOrigin
  | customer
  | branch
  | internal
  deriving DecidableEq, Repr

/-- `Branch`. -/
inductive Branch
  | central
  | laWarehouse
  | laOffice
  | zaragozaWarehouse
  | zaragozaOffice
  deriving DecidableEq, Repr

/-- The value of a status. -/
def IncidentStatus.value : IncidentStatus → String
  | .open => "open"
  | .inProgress => "in_progress"
  | .resolved => "resolved"
  | .discarded => "discarded"

/-- `incidents`: one operational incident. -/
structure Incident where
  id : ℕ
  title : String
  description : String
  category : IncidentCategory
  status : IncidentStatus
  origin : IncidentOrigin
  branch : Branch
  createdAt : ℕ
  updatedAt : ℕ
  createdByUserUuid : Option String
  importKeyHash : Option String
  deriving DecidableEq, Repr

/-- The table `incidents`. -/
abbrev Incidents := Table Incident.id

/-- `IncidentError`. -/
structure IncidentError where
  statusCode : ℕ
  code : String
  message : String
  field : Option String := none
  deriving DecidableEq, Repr

/-- The identity of a delegated request. -/
structure ScopedPrincipal where
  userId : String
  role : String
  deriving DecidableEq, Repr

namespace IncidentService

open Tx

/-- The bounds of `Field(min_length=1, max_length=200)` of a title. -/
def titleFits (title : String) : Bool := decide (1 ≤ title.length) && decide (title.length ≤ 200)

/-- The bounds of `Field(min_length=5, max_length=5000)` of a description. -/
def descriptionFits (description : String) : Bool :=
  decide (5 ≤ description.length) && decide (description.length ≤ 5000)

/-- `IncidentCreate`, as the schema has validated it: texts are stripped. -/
structure IncidentCreate (strip : String → String) where
  title : String
  description : String
  category : IncidentCategory
  origin : IncidentOrigin
  branch : Branch
  title_stripped : strip title = title
  description_stripped : strip description = description
  title_fits : titleFits title = true
  description_fits : descriptionFits description = true

/-- `IncidentRead`. -/
structure IncidentRead where
  id : ℕ
  title : String
  description : String
  category : IncidentCategory
  origin : IncidentOrigin
  branch : Branch
  status : IncidentStatus
  createdAt : ℕ
  updatedAt : ℕ
  createdByUserUuid : Option String
  deriving DecidableEq, Repr

/-- What the service raises. -/
inductive Raised
  | incident (e : IncidentError)
  | sqlalchemy (e : SqlError)
  /-- `ValidationError` of the response schema. -/
  | validation
  deriving DecidableEq, Repr

/-- `_persistence_failure`. -/
def persistenceFailure : IncidentError :=
  ⟨503, "SERVICE_UNAVAILABLE", "Incident service temporarily unavailable.", none⟩

/-- The handlers of a call. -/
def onRaise : Raised → Raised
  | .sqlalchemy _ => .incident persistenceFailure
  | e => e

/-- `ALLOWED_TRANSITIONS`. -/
def allowedTransitions : IncidentStatus → List IncidentStatus
  | .open => [.inProgress, .discarded]
  | .inProgress => [.resolved, .discarded]
  | .resolved => []
  | .discarded => []

/-- The refusal of a transition. -/
def invalidTransition (current status : IncidentStatus) : IncidentError :=
  ⟨400, "INVALID_STATUS_TRANSITION",
    "Status cannot change from " ++ current.value ++ " to " ++ status.value ++ ".", some "status"⟩

/-- `_authorize_delegated`. -/
def authorizeDelegated (incident : Incident) : Option ScopedPrincipal → Except IncidentError Unit
  | none => .ok ()
  | some principal =>
    if principal.role = "admin" then .ok ()
    else if incident.createdByUserUuid ≠ some principal.userId then
      .error ⟨403, "INCIDENT_ACCESS_DENIED", "Incident access is not authorized.", none⟩
    else .ok ()

/-- `_read`: the response schema strips and checks the texts of the row. -/
def read (strip : String → String) (incident : Incident) : Except Raised IncidentRead :=
  if titleFits (strip incident.title) && descriptionFits (strip incident.description) then
    .ok ⟨incident.id, strip incident.title, strip incident.description, incident.category,
      incident.origin, incident.branch, incident.status, incident.createdAt, incident.updatedAt,
      incident.createdByUserUuid⟩
  else .error .validation

/-- A program of statements on the incidents. -/
abbrev Program (α : Type) := Tx Raised (Connection SqlError Incidents) α

/-- `get_for_update`. -/
def getForUpdate (incidentId : ℕ) : Program (Option Incident) :=
  select .sqlalchemy fun db => db.lookup incidentId

/-- `session.refresh`: the row is read again. -/
def refresh : Program Unit := select .sqlalchemy fun _ => ()

/-- The flush of a new incident; the reporter has to fit its column. -/
def insertIncident (incident : Incident) : Program Unit :=
  query .sqlalchemy fun db =>
    if incident.createdByUserUuid.any fun u => decide (36 < u.length) then .error .other
    else
      match db.insert incident with
      | none => .error (.integrity none)
      | some db' => .ok ((), db')

/-- The incident in another status. -/
def moveTo (status : IncidentStatus) (now : ℕ) (incident : Incident) : Incident :=
  { incident with status := status, updatedAt := now }

/-- The table behind a change of status. -/
def setStatus (db : Incidents) (incidentId : ℕ) (status : IncidentStatus) (now : ℕ) : Incidents :=
  db.update (fun i => if i.id = incidentId then moveTo status now i else i) fun i => by
    split_ifs <;> rfl

/-- The flush of a changed incident. -/
def updateIncident (incidentId : ℕ) (status : IncidentStatus) (now : ℕ) : Program Unit :=
  query .sqlalchemy fun db => .ok ((), setStatus db incidentId status now)

/-- What `Except` holds, as a program. -/
def ofExcept {α : Type} : Except Raised α → Program α
  | .ok a => pure a
  | .error e => raise e

section Calls

variable (strip : String → String)

/-- The row that `create` adds. -/
def newIncident (payload : IncidentCreate strip) (reporterUuid : String)
    (createdAt updatedAt id : ℕ) : Incident :=
  ⟨id, payload.title, payload.description, payload.category, .open, payload.origin, payload.branch,
    createdAt, updatedAt, some reporterUuid, none⟩

/-- The body of `create`. -/
def create (payload : IncidentCreate strip) (reporterUuid : String)
    (createdAt updatedAt id : ℕ) : Program IncidentRead := do
  let incident := newIncident strip payload reporterUuid createdAt updatedAt id
  insertIncident incident
  commit .sqlalchemy
  refresh
  ofExcept (read strip incident)

/-- The body of `update_status`. -/
def updateStatus (incidentId : ℕ) (status : IncidentStatus) (principal : Option ScopedPrincipal)
    (now : ℕ) : Program IncidentRead := do
  match ← getForUpdate incidentId with
  | none => raise (.incident ⟨404, "INCIDENT_NOT_FOUND", "Incident not found.", none⟩)
  | some incident =>
    match authorizeDelegated incident principal with
    | .error e => raise (.incident e)
    | .ok _ =>
      if status ∉ allowedTransitions incident.status then
        raise (.incident (invalidTransition incident.status status))
      else
        updateIncident incidentId status now
        commit .sqlalchemy
        refresh
        ofExcept (read strip (moveTo status now incident))

/-- `get`. -/
def get (incidentId : ℕ) (principal : Option ScopedPrincipal) : Program IncidentRead := do
  match ← (select .sqlalchemy fun db => db.lookup incidentId : Program (Option Incident)) with
  | none => raise (.incident ⟨404, "INCIDENT_NOT_FOUND", "Incident not found.", none⟩)
  | some incident =>
    match authorizeDelegated incident principal with
    | .error e => raise (.incident e)
    | .ok _ => ofExcept (read strip incident)

/-- A call, with the clock readings and the id that it gets. -/
inductive Request
  | create (payload : IncidentCreate strip) (reporterUuid : String) (createdAt updatedAt id : ℕ)
  | updateStatus (incidentId : ℕ) (status : IncidentStatus) (principal : Option ScopedPrincipal)
      (now : ℕ)

end Calls

namespace Request

variable {strip : String → String}

/-- The call without its handlers. -/
def body : Request strip → Program IncidentRead
  | .create payload reporterUuid createdAt updatedAt id =>
    IncidentService.create strip payload reporterUuid createdAt updatedAt id
  | .updateStatus incidentId status principal now =>
    IncidentService.updateStatus strip incidentId status principal now

/-- The call.  What it does not catch closes the session, which rolls back as well. -/
def program (request : Request strip) : Program IncidentRead := rescue onRaise request.body

/-- What the call answers, and what is committed then. -/
def call (request : Request strip) (db : Incidents) (fault : Option (ℕ × SqlError)) :
    Except Raised IncidentRead × Incidents :=
  let (answer, c) := request.program.run (.start db fault)
  (answer, c.committed)

/-- The checks of the call and of the table pass. -/
def Accepted (db : Incidents) : Request strip → Prop
  | .create _ reporterUuid _ _ id => reporterUuid.length ≤ 36 ∧ db.lookup id = none
  | .updateStatus incidentId status principal _ =>
    ∃ incident, db.lookup incidentId = some incident ∧
      authorizeDelegated incident principal = .ok () ∧ status ∈ allowedTransitions incident.status

/-- How many statements come before `COMMIT`. -/
def before : Request strip → ℕ
  | .create .. => 1
  | .updateStatus .. => 2

/-- The incident is one that the response schema refuses. -/
def Unreadable (db : Incidents) : Request strip → Prop
  | .create .. => False
  | .updateStatus incidentId _ _ _ =>
    ∃ incident, db.lookup incidentId = some incident ∧ read strip incident = .error .validation

/-- What the call commits. -/
def commits (db : Incidents) : Request strip → Incidents
  | .create payload reporterUuid createdAt updatedAt id =>
    (db.insert (newIncident strip payload reporterUuid createdAt updatedAt id)).getD db
  | .updateStatus incidentId status _ now => setStatus db incidentId status now

end Request

/-! ### Raises that have written -/

section Traces

variable {strip : String → String} {db : Incidents}

theorem runs_ofExcept {α : Type} (w : Incidents) (x : Except Raised α) :
    Runs .sqlalchemy (ofExcept x) w [] x := by
  cases x with
  | ok a => exact .pure w a
  | error e => exact .raise w e

theorem read_moveTo_eq_error {status : IncidentStatus} {now : ℕ} {incident : Incident} :
    (∃ e, read strip (moveTo status now incident) = .error e) ↔
      read strip incident = .error .validation := by
  cases h : titleFits (strip incident.title) && descriptionFits (strip incident.description) <;>
    simp [read, moveTo, h, -Bool.and_eq_true]

/-- What `create` has inserted passes the response schema. -/
theorem read_newIncident (payload : IncidentCreate strip) (reporterUuid : String)
    (createdAt updatedAt id : ℕ) :
    ∃ r, read strip (newIncident strip payload reporterUuid createdAt updatedAt id) = .ok r := by
  have hfits : (titleFits (strip payload.title) && descriptionFits (strip payload.description)) =
      true := by
    rw [payload.title_stripped, payload.description_stripped, payload.title_fits,
      payload.description_fits, Bool.and_self]
  exact ⟨_, if_pos hfits⟩

/-- No transition leads to the status it starts from. -/
theorem ne_of_mem_allowedTransitions {current status : IncidentStatus}
    (h : status ∈ allowedTransitions current) : status ≠ current := by
  cases current <;> cases status <;> simp_all [allowedTransitions]

theorem lookup_setStatus {incidentId : ℕ} {incident : Incident} (status : IncidentStatus)
    (now : ℕ) (h : db.lookup incidentId = some incident) :
    (setStatus db incidentId status now).lookup incidentId =
      some (moveTo status now incident) := by
  rw [setStatus, Table.lookup_update, h, Option.map_some, (Table.lookup_eq_some_iff.1 h).2,
    if_pos rfl]

theorem insert_of_lookup_eq_none (incident : Incident) (h : db.lookup incident.id = none) :
    ∃ db', db.insert incident = some db' ∧ db'.rows = db.rows ++ [incident] := by
  have hfresh : incident.id ∉ db.rows.map Incident.id := by
    simpa using Table.lookup_eq_none_iff.1 h
  exact ⟨_, dif_neg hfresh, rfl⟩

theorem insert_of_lookup_ne_none {incident : Incident} (h : db.lookup incident.id ≠ none) :
    db.insert incident = none := by
  refine dif_pos ?_
  by_contra hfresh
  exact h (Table.lookup_eq_none_iff.2 (by simpa using hfresh))

/-! The traces of `update_status`. -/

section UpdateStatus

variable {incidentId : ℕ} {status : IncidentStatus} {principal : Option ScopedPrincipal} {now : ℕ}
  {incident : Incident}

theorem runs_updateStatus_missing (hi : db.lookup incidentId = none) :
    Runs .sqlalchemy (updateStatus strip incidentId status principal now) db [none]
      (.error (.incident ⟨404, "INCIDENT_NOT_FOUND", "Incident not found.", none⟩)) := by
  refine .select_bind ?_
  simp only [hi]
  exact .raise _ _

theorem runs_updateStatus_denied (hi : db.lookup incidentId = some incident) {e : IncidentError}
    (ha : authorizeDelegated incident principal = .error e) :
    Runs .sqlalchemy (updateStatus strip incidentId status principal now) db [none]
      (.error (.incident e)) := by
  refine .select_bind ?_
  simp only [hi, ha]
  exact .raise _ _

theorem runs_updateStatus_refused (hi : db.lookup incidentId = some incident)
    (ha : authorizeDelegated incident principal = .ok ())
    (hs : status ∉ allowedTransitions incident.status) :
    Runs .sqlalchemy (updateStatus strip incidentId status principal now) db [none]
      (.error (.incident (invalidTransition incident.status status))) := by
  refine .select_bind ?_
  simp only [hi, ha, hs, not_false_eq_true, if_true]
  exact .raise _ _

theorem runs_updateStatus_moved (hi : db.lookup incidentId = some incident)
    (ha : authorizeDelegated incident principal = .ok ())
    (hs : status ∈ allowedTransitions incident.status) :
    Runs .sqlalchemy (updateStatus strip incidentId status principal now) db
      [none, none, some (setStatus db incidentId status now), none]
      (read strip (moveTo status now incident)) := by
  refine .select_bind ?_
  simp only [hi, ha, hs, not_true_eq_false, if_false]
  exact .query_bind (b := ()) rfl (.commit_bind (.select_bind (runs_ofExcept _ _)))

theorem statusCode_of_authorizeDelegated {e : IncidentError}
    (ha : authorizeDelegated incident principal = .error e) : e.statusCode = 403 := by
  unfold authorizeDelegated at ha
  split at ha
  · cases ha
  · split_ifs at ha
    cases ha
    rfl

end UpdateStatus

end Traces

namespace Request

variable {strip : String → String} {db : Incidents} {request : Request strip}

theorem refuses_body (h : ¬request.Accepted db) : Refuses .sqlalchemy request.body db := by
  cases request with
  | create payload reporterUuid createdAt updatedAt id =>
    by_cases hlen : 36 < reporterUuid.length
    · exact .query_bind_error (e := .other) (by simp [newIncident, hlen])
    · have hused : db.lookup id ≠ none := fun hid => h ⟨not_lt.1 hlen, hid⟩
      have hinsert : db.insert (newIncident strip payload reporterUuid createdAt updatedAt id) =
          none := insert_of_lookup_ne_none hused
      exact .query_bind_error (e := .integrity none) (by rw [hinsert]; simp [newIncident, hlen])
  | updateStatus incidentId status principal now =>
    cases hi : db.lookup incidentId with
    | none => exact ⟨1, _, runs_updateStatus_missing hi⟩
    | some incident =>
      cases ha : authorizeDelegated incident principal with
      | error e => exact ⟨1, _, runs_updateStatus_denied hi ha⟩
      | ok u => exact ⟨1, _, runs_updateStatus_refused hi ha fun hs => h ⟨incident, hi, ha, hs⟩⟩

/-- The trace of an accepted call. -/
theorem runs_body (h : request.Accepted db) :
    ∃ r, Runs .sqlalchemy request.body db (List.replicate request.before none ++
        some (request.commits db) :: List.replicate 1 none) r ∧
      ((∃ e, r = .error e) ↔ request.Unreadable db) := by
  cases request with
  | create payload reporterUuid createdAt updatedAt id =>
    obtain ⟨hlen, hid⟩ := h
    obtain ⟨db', hinsert, -⟩ := insert_of_lookup_eq_none
      (newIncident strip payload reporterUuid createdAt updatedAt id) hid
    obtain ⟨r, hr⟩ := read_newIncident payload reporterUuid createdAt updatedAt id
    refine ⟨.ok r, ?_, by simp [Unreadable]⟩
    have hcommits : (Request.create payload reporterUuid createdAt updatedAt id).commits db = db' :=
      by rw [commits, hinsert, Option.getD_some]
    rw [hcommits]
    refine Runs.query_bind (b := ()) ?_ (.commit_bind (.select_bind (hr ▸ runs_ofExcept _ _)))
    rw [hinsert]
    simp [newIncident, hlen]
  | updateStatus incidentId status principal now =>
    obtain ⟨incident, hi, ha, hs⟩ := h
    refine ⟨_, runs_updateStatus_moved hi ha hs, ?_⟩
    rw [read_moveTo_eq_error]
    simp [Unreadable, hi]

/-- Every accepted call changes the table. -/
theorem commits_ne (h : request.Accepted db) : request.commits db ≠ db := by
  cases request with
  | create payload reporterUuid createdAt updatedAt id =>
    obtain ⟨db', hinsert, hrows⟩ := insert_of_lookup_eq_none
      (newIncident strip payload reporterUuid createdAt updatedAt id) h.2
    intro hdb
    rw [commits, hinsert, Option.getD_some] at hdb
    rw [hdb] at hrows
    simp at hrows
  | updateStatus incidentId status principal now =>
    obtain ⟨incident, hi, -, hs⟩ := h
    intro hdb
    have hlookup := lookup_setStatus status now hi
    have hstatus : incident = moveTo status now incident := by
      rw [commits] at hdb
      rw [hdb, hi] at hlookup
      exact Option.some.inj hlookup
    exact ne_of_mem_allowedTransitions hs (congrArg Incident.status hstatus).symm

/-- **When a call that raises has written nothing.**  Unless the call is accepted, and behind its
`COMMIT` the refresh fails or the response schema refuses the row. -/
theorem raises_unchanged_iff (db : Incidents) (request : Request strip)
    (fault : Option (ℕ × SqlError)) :
    ((∃ e, (request.call db fault).1 = .error e) → (request.call db fault).2 = db) ↔
      ¬(request.Accepted db ∧ FailsBehind request.before 1 (request.Unreadable db) fault) := by
  by_cases h : request.Accepted db
  · obtain ⟨r, hr, hiff⟩ := runs_body h
    refine (hr.raises_unchanged_iff fault).trans (not_congr ?_)
    have hbehind : FailsBehind request.before 1 (∃ e, r = .error e) fault ↔
        FailsBehind request.before 1 (request.Unreadable db) fault := by
      rcases fault with _ | ⟨k, e⟩
      · exact hiff
      · simp only [FailsBehind, hiff]
    rw [hbehind]
    exact and_congr_left' (iff_of_true (commits_ne h) h)
  · exact iff_of_true (fun _ => (refuses_body h).committed_eq fault) fun hc => h hc.1

end Request

end IncidentService

end TrackFlow
