import TrackFlow.Incidents.Service
import TrackFlow.Sql.RowLock

/-!
# Concurrent calls of the incident service

`create`, `update_status` and `get` of `IncidentService` as a row-lock protocol: each call has a
session of its own, any number of calls run at once, and every statement may fail.  `update_status`
locks the row before it looks at it, so what the checks have seen still holds when `COMMIT` installs
the new status; a refused call never gets that far.

* `exec` : the next statement of a call.
* `Write.effect` : what a write does to an incident that is there.
* `Knows` : what a call knows; `knowledge` is stable under the commits of the others.
* `incident_lifecycle` : **statuses follow the lifecycle, reporters stay, and a delegated principal
  is kept to the incidents it has reported.**
-/

namespace TrackFlow

namespace IncidentService

namespace Rows

open RowLock

/-! ## Rows -/

/-- A row write. -/
inductive Write
  | insert (incident : Incident)
  | setStatus (incidentId : ℕ) (status : IncidentStatus) (now : ℕ)
  deriving DecidableEq, Repr

/-- The incident that a write is about. -/
def Write.incidentId : Write → ℕ
  | .insert incident => incident.id
  | .setStatus incidentId _ _ => incidentId

/-- The table after a write. -/
def install (db : Incidents) : Write → Incidents
  | .insert incident => (db.insert incident).getD db
  | .setStatus incidentId status now => setStatus db incidentId status now

/-- What a write does to an incident that is there. -/
def Write.effect : Write → Incident → Incident
  | .insert _, incident => incident
  | .setStatus incidentId status now, incident =>
    if incident.id = incidentId then moveTo status now incident else incident

/-! ## Calls -/

variable (strip : String → String)

/-- A call; staff have no delegated principal. -/
inductive Call
  | create (payload : IncidentCreate strip) (reporterUuid : String)
  | updateStatus (incidentId : ℕ) (status : IncidentStatus) (principal : Option ScopedPrincipal)
  | get (incidentId : ℕ) (principal : Option ScopedPrincipal)

/-- Where a session is. -/
inductive Loc
  | ready
  /-- The call has come in. -/
  | called (call : Call strip)
  /-- `update_status` has locked the row and read it. -/
  | locked (incidentId : ℕ) (status : IncidentStatus) (principal : Option ScopedPrincipal)
      (incident : Incident)
  /-- `COMMIT` has flushed the write, and is next. -/
  | flushed (call : Call strip) (incidentId : ℕ)
  /-- The row is read again next. -/
  | committed (call : Call strip) (incidentId : ℕ)
  | answered (call : Call strip) (answer : Except Raised IncidentRead)

/-- What decides a statement besides the table. -/
inductive Choice
  | call (call : Call strip)
  /-- The statement is executed: the clock readings, and the id that is drawn. -/
  | ok (createdAt updatedAt id : ℕ)
  /-- The statement fails. -/
  | fail
  /-- `COMMIT` is applied, but its answer is lost. -/
  | lost

variable {strip}

/-- `INCIDENT_NOT_FOUND`. -/
def notFound : IncidentError := ⟨404, "INCIDENT_NOT_FOUND", "Incident not found.", none⟩

/-- `INCIDENT_ACCESS_DENIED`. -/
def accessDenied : IncidentError :=
  ⟨403, "INCIDENT_ACCESS_DENIED", "Incident access is not authorized.", none⟩

/-- The call raises, and its session is rolled back. -/
def raised (call : Call strip) (e : IncidentError) :
    Option (RowLock.Outcome ℕ Write (Loc strip)) :=
  some (.rollback (.answered call (.error (.incident e))))

/-- The next statement of a session. -/
def exec (loc : Loc strip) (choice : Choice strip) (_busy : ℕ → Bool) (db : Incidents) :
    Option (RowLock.Outcome ℕ Write (Loc strip)) :=
  match loc, choice with
  | .ready, .call call => some (.proceed [] [] (.called call))
  | .answered _ _, .call call => some (.proceed [] [] (.called call))
  | .called (.create payload reporterUuid), .ok createdAt updatedAt id =>
    -- a key that another session inserts makes the statement wait, like a lock
    if 36 < reporterUuid.length ∨ db.lookup id ≠ none then
      raised (.create payload reporterUuid) persistenceFailure
    else some (.proceed [id]
      [.insert (newIncident strip payload reporterUuid createdAt updatedAt id)]
      (.flushed (.create payload reporterUuid) id))
  | .called (.updateStatus incidentId status principal), .ok _ _ _ =>
    match db.lookup incidentId with
    | none => raised (.updateStatus incidentId status principal) notFound
    | some incident =>
      some (.proceed [incidentId] [] (.locked incidentId status principal incident))
  | .called (.get incidentId principal), .ok _ _ _ =>
    match db.lookup incidentId with
    | none => raised (.get incidentId principal) notFound
    | some incident =>
      match authorizeDelegated incident principal with
      | .error e => raised (.get incidentId principal) e
      | .ok _ => some (.rollback (.answered (.get incidentId principal) (read strip incident)))
  | .locked incidentId status principal incident, .ok _ updatedAt _ =>
    match authorizeDelegated incident principal with
    | .error e => raised (.updateStatus incidentId status principal) e
    | .ok _ =>
      if status ∉ allowedTransitions incident.status then
        raised (.updateStatus incidentId status principal)
          (invalidTransition incident.status status)
      else some (.proceed [] [.setStatus incidentId status updatedAt]
        (.flushed (.updateStatus incidentId status principal) incidentId))
  | .flushed call incidentId, .ok _ _ _ => some (.commit (.committed call incidentId))
  | .flushed call _, .lost =>
    some (.commit (.answered call (.error (.incident persistenceFailure))))
  | .committed call incidentId, .ok _ _ _ =>
    match db.lookup incidentId with
    | none => raised call persistenceFailure
    | some incident => some (.rollback (.answered call (read strip incident)))
  | .called call, .fail => raised call persistenceFailure
  | .locked incidentId status principal _, .fail =>
    raised (.updateStatus incidentId status principal) persistenceFailure
  | .flushed call _, .fail => raised call persistenceFailure
  | .committed call _, .fail => raised call persistenceFailure
  | _, _ => none

/-- The sessions of the incident service. -/
def protocol (strip : String → String) : Protocol Incidents ℕ Write (Choice strip) (Loc strip) :=
  ⟨install, exec⟩

/-! ## Writes -/

section

variable {db : Incidents} {id : ℕ} {incident : Incident} {w : Write} {ws : List Write}

/-- A write moves the incident that it is about, and no other; a new row does not replace one. -/
theorem lookup_install (h : db.lookup id = some incident) (w : Write) :
    (install db w).lookup id = some (w.effect incident) := by
  cases w with
  | insert new =>
    rw [install]
    cases hnew : db.insert new with
    | none => exact h
    | some db' =>
      obtain ⟨-, hrows⟩ := Table.insert_eq_some hnew
      rw [Option.getD_some, Table.lookup, hrows, List.find?_append]
      exact congrArg (Option.or · _) h
  | setStatus incidentId status now =>
    rw [install, setStatus, Table.lookup_update, h]
    rfl

theorem lookup_install_of_ne (h : w.incidentId ≠ id) :
    (install db w).lookup id = db.lookup id := by
  cases w with
  | insert new =>
    rw [install]
    cases hnew : db.insert new with
    | none => rfl
    | some db' =>
      obtain ⟨-, hrows⟩ := Table.insert_eq_some hnew
      have hnone : [new].find? (fun r => decide (r.id = id)) = none := by
        simpa [Write.incidentId] using h
      rw [Option.getD_some, Table.lookup, hrows, List.find?_append, hnone, Option.or_none]
      rfl
  | setStatus incidentId status now =>
    rw [install, setStatus, Table.lookup_update]
    cases hlookup : db.lookup id with
    | none => rfl
    | some incident =>
      have hid : incident.id = id := (Table.lookup_eq_some_iff.1 hlookup).2
      exact congrArg some (if_neg fun he => h (he.symm.trans hid))

theorem lookup_install_insert {new : Incident} (h : db.lookup new.id = none) :
    (install db (.insert new)).lookup new.id = some new := by
  obtain ⟨db', hinsert, hrows⟩ := insert_of_lookup_eq_none new h
  rw [install, hinsert, Option.getD_some, Table.lookup_eq_some_iff, hrows]
  exact ⟨List.mem_append_right _ (List.mem_singleton_self new), rfl⟩

theorem createdByUserUuid_effect (w : Write) (incident : Incident) :
    (w.effect incident).createdByUserUuid = incident.createdByUserUuid := by
  cases w with
  | insert new => rfl
  | setStatus incidentId status now =>
    rw [Write.effect]
    split_ifs <;> rfl

/-- Rows stay, and so do their reporters. -/
theorem exists_lookup_installAll (h : db.lookup id = some incident) (ws : List Write) :
    ∃ later, ((protocol strip).installAll db ws).lookup id = some later ∧
      later.createdByUserUuid = incident.createdByUserUuid := by
  induction ws generalizing db incident with
  | nil => exact ⟨incident, h, rfl⟩
  | cons w ws ih =>
    obtain ⟨later, hlater, hreporter⟩ := ih (lookup_install h w)
    exact ⟨later, hlater, hreporter.trans (createdByUserUuid_effect w incident)⟩

theorem lookup_installAll_of_ne (h : ∀ w ∈ ws, w.incidentId ≠ id) :
    ((protocol strip).installAll db ws).lookup id = db.lookup id := by
  induction ws generalizing db with
  | nil => rfl
  | cons w ws ih =>
    have htail : ((protocol strip).installAll (install db w) ws).lookup id = _ :=
      ih fun w' hw' => h w' (List.mem_cons_of_mem w hw')
    exact htail.trans (lookup_install_of_ne (h w List.mem_cons_self))

/-! ## Who may read and write -/

theorem authorizeDelegated_eq_error {principal : Option ScopedPrincipal} {e : IncidentError}
    (h : authorizeDelegated incident principal = .error e) : e = accessDenied := by
  cases principal with
  | none => cases h
  | some principal =>
    rw [authorizeDelegated] at h
    split_ifs at h
    exact (Except.error.inj h).symm

/-- The user to whose incidents a delegated principal is kept; staff and admins are not. -/
def keptTo : Option ScopedPrincipal → Option String
  | none => none
  | some principal => if principal.role = "admin" then none else some principal.userId

/-- Authorised is who is kept to no one's incidents, or to those of the reporter. -/
theorem authorizeDelegated_eq_ok_iff {principal : Option ScopedPrincipal} :
    authorizeDelegated incident principal = .ok () ↔
      ∀ user ∈ keptTo principal, incident.createdByUserUuid = some user := by
  cases principal with
  | none => exact iff_of_true rfl fun user huser => by cases huser
  | some principal =>
    rw [authorizeDelegated, keptTo]
    split_ifs with hrole hreporter
    · exact iff_of_true rfl fun user huser => by cases huser
    · exact iff_of_false (fun he => by cases he) fun hall => hreporter (hall _ rfl)
    · exact iff_of_true rfl fun user huser => Option.some.inj huser ▸ not_not.1 hreporter

/-- The call is about the incident. -/
def Call.Targets (id : ℕ) : Call strip → Prop
  | .create _ _ => True
  | .updateStatus incidentId _ _ => incidentId = id
  | .get incidentId _ => incidentId = id

/-- The user whose incidents the call may see, if it may not see all; what `create` has inserted is
its reporter's. -/
def Call.keptTo : Call strip → Option String
  | .create _ reporterUuid => some reporterUuid
  | .updateStatus _ _ principal => Rows.keptTo principal
  | .get _ principal => Rows.keptTo principal

/-- The call is allowed to see the incident. -/
def Call.Entitled (incident : Incident) (call : Call strip) : Prop :=
  ∀ user ∈ call.keptTo, incident.createdByUserUuid = some user

/-- The row of the call, which it may see. -/
def Call.MayRead (db : Incidents) (id : ℕ) (call : Call strip) : Prop :=
  call.Targets id ∧ ∃ incident, db.lookup id = some incident ∧ call.Entitled incident

/-- The answers that tell nothing about an incident. -/
def silent : List (Except Raised IncidentRead) :=
  [.error (.incident notFound), .error (.incident accessDenied),
    .error (.incident persistenceFailure)]

/-- The answer tells nothing, or it is about a row that the call may see. -/
def Call.Answers (db : Incidents) (answer : Except Raised IncidentRead) (call : Call strip) :
    Prop :=
  answer ∈ silent ∨ ∃ id, call.MayRead db id ∧ ∀ r, answer = .ok r → r.id = id

/-- The write is the one that the call makes, behind its checks. -/
def Call.Writes (db : Incidents) (w : Write) : Call strip → Prop
  | .create payload reporterUuid => ∃ createdAt updatedAt id,
      w = .insert (newIncident strip payload reporterUuid createdAt updatedAt id) ∧
        db.lookup id = none
  | .updateStatus incidentId status principal => ∃ incident now,
      w = .setStatus incidentId status now ∧ db.lookup incidentId = some incident ∧
        authorizeDelegated incident principal = .ok () ∧
        status ∈ allowedTransitions incident.status
  | .get _ _ => False

theorem Call.Entitled.of_reporter {call : Call strip} {later : Incident}
    (h : call.Entitled incident)
    (hreporter : later.createdByUserUuid = incident.createdByUserUuid) :
    call.Entitled later := fun user huser => hreporter.trans (h user huser)

/-- What a call may see stays, whatever is committed. -/
theorem Call.MayRead.installAll {call : Call strip} (h : call.MayRead db id) (ws : List Write) :
    call.MayRead ((protocol strip).installAll db ws) id := by
  obtain ⟨htargets, incident, hlookup, hentitled⟩ := h
  obtain ⟨later, hlater, hreporter⟩ := (exists_lookup_installAll hlookup ws :
    ∃ later, ((protocol strip).installAll db ws).lookup id = some later ∧ _)
  exact ⟨htargets, later, hlater, hentitled.of_reporter hreporter⟩

theorem Call.Answers.installAll {call : Call strip} {answer : Except Raised IncidentRead}
    (h : call.Answers db answer) (ws : List Write) :
    call.Answers ((protocol strip).installAll db ws) answer :=
  h.imp_right fun ⟨id, hread, hid⟩ => ⟨id, hread.installAll ws, hid⟩

/-- Behind its own write the call may see the row. -/
theorem Call.Writes.mayRead {call : Call strip} (h : call.Writes db w) :
    call.MayRead (install db w) w.incidentId := by
  cases call with
  | create payload reporterUuid =>
    obtain ⟨createdAt, updatedAt, id, rfl, hnone⟩ := h
    exact ⟨trivial, _, lookup_install_insert hnone, fun user huser => huser⟩
  | updateStatus incidentId status principal =>
    obtain ⟨incident, now, rfl, hlookup, hauthorised, -⟩ := h
    have hentitled :
        (Call.updateStatus incidentId status principal : Call strip).Entitled incident :=
      authorizeDelegated_eq_ok_iff.1 hauthorised
    exact ⟨rfl, _, lookup_install hlookup _,
      hentitled.of_reporter (createdByUserUuid_effect _ incident)⟩
  | get incidentId principal => exact h.elim

/-! ## What the calls know -/

/-- What a session knows of the committed table, with pending writes `ws` and locks `held`. -/
def Loc.Knows (ws : List Write) (held : ℕ → Prop) (db : Incidents) : Loc strip → Prop
  | .ready => ws = []
  | .called _ => ws = []
  | .locked incidentId _ _ incident =>
    ws = [] ∧ held incidentId ∧ db.lookup incidentId = some incident
  | .flushed call id =>
    ∃ w, ws = [w] ∧ w.incidentId = id ∧ held id ∧ call.Writes db w
  | .committed call id => ws = [] ∧ call.MayRead db id
  | .answered call answer => ws = [] ∧ call.Answers db answer

/-- Only rows that are locked are written. -/
theorem Loc.Knows.guarded {loc : Loc strip} {held : ℕ → Prop} (h : loc.Knows ws held db) :
    ∀ w ∈ ws, held w.incidentId := by
  have hnil (hws : ws = []) : ∀ w ∈ ws, held w.incidentId := by simp [hws]
  cases loc with
  | ready => exact hnil h
  | called call => exact hnil h
  | locked incidentId status principal incident => exact hnil h.1
  | flushed call id =>
    obtain ⟨w, rfl, hid, hheld, -⟩ := h
    intro w' hw'
    rw [List.mem_singleton.1 hw', hid]
    exact hheld
  | committed call id => exact hnil h.1
  | answered call answer => exact hnil h.1

/-- A raise that tells nothing. -/
theorem knows_raised {call : Call strip} {e : IncidentError}
    (h : .error (.incident e) ∈ silent) (held : ℕ → Prop) :
    (Loc.answered call (.error (.incident e))).Knows [] held db := ⟨rfl, .inl h⟩

/-- An answer that has been read from the row. -/
theorem knows_read {call : Call strip} (htargets : call.Targets id)
    (hlookup : db.lookup id = some incident) (hentitled : call.Entitled incident)
    (held : ℕ → Prop) : (Loc.answered call (read strip incident)).Knows [] held db := by
  refine ⟨rfl, .inr ⟨id, ⟨htargets, incident, hlookup, hentitled⟩, fun r hr => ?_⟩⟩
  unfold read at hr
  split_ifs at hr
  rw [← Except.ok.inj hr]
  exact (Table.lookup_eq_some_iff.1 hlookup).2

/-- Every statement leads from what is known to what is known. -/
theorem Loc.Knows.step {loc : Loc strip} {held : ℕ → Prop} {choice : Choice strip}
    {busy : ℕ → Bool} {o : RowLock.Outcome ℕ Write (Loc strip)} (h : loc.Knows ws held db)
    (he : exec loc choice busy ((protocol strip).installAll db ws) = some o) :
    o.LeadsTo (fun loc ws held db => loc.Knows ws held db) ws held db
      ((protocol strip).installAll db ws) := by
  have hfailed (call : Call strip) : (.rollback (.answered call
      (.error (.incident persistenceFailure))) : RowLock.Outcome ℕ Write (Loc strip)).LeadsTo
      (fun loc ws held db => loc.Knows ws held db) ws held db
      ((protocol strip).installAll db ws) := knows_raised (by simp [silent]) fun _ => False
  unfold exec raised at he
  split at he
  · -- a call comes in
    cases he
    exact (List.append_nil ws).trans h
  · cases he
    exact (List.append_nil ws).trans h.1
  · -- the row of `create` is inserted
    obtain rfl : ws = [] := h
    split_ifs at he with hbad
    · cases he
      exact hfailed _
    · cases he
      have hnone : db.lookup _ = none := not_not.1 (not_or.1 hbad).2
      exact ⟨_, rfl, rfl, .inr List.mem_cons_self, _, _, _, rfl, hnone⟩
  · -- `update_status` locks the row
    obtain rfl : ws = [] := h
    split at he
    · cases he
      exact knows_raised (by simp [silent]) fun _ => False
    · rename_i hlookup
      cases he
      exact ⟨rfl, .inr List.mem_cons_self, hlookup⟩
  · -- `get` reads the row
    rename_i incidentId principal _ _ _
    have htargets : (Call.get incidentId principal : Call strip).Targets incidentId := rfl
    obtain rfl : ws = [] := h
    split at he
    · cases he
      exact knows_raised (by simp [silent]) fun _ => False
    · rename_i incident hlookup
      split at he
      · rename_i e hdenied
        cases he
        rw [authorizeDelegated_eq_error hdenied]
        exact knows_raised (by simp [silent]) fun _ => False
      · rename_i hauthorised
        cases he
        exact knows_read htargets hlookup (authorizeDelegated_eq_ok_iff.1 hauthorised)
          fun _ => False
  · -- the checks of `update_status`, and its update
    rename_i incidentId status principal incident _ updatedAt _
    obtain ⟨rfl, hheld, hlookup⟩ := h
    split at he
    · rename_i e hdenied
      cases he
      rw [authorizeDelegated_eq_error hdenied]
      exact knows_raised (by simp [silent]) fun _ => False
    · rename_i hauthorised
      split_ifs at he with hstatus
      · cases he
        exact ⟨_, rfl, rfl, .inl hheld, incident, updatedAt, rfl, hlookup, hauthorised, hstatus⟩
      · cases he
        have hentitled := authorizeDelegated_eq_ok_iff.1 hauthorised
        refine ⟨rfl, .inr ⟨incidentId, ⟨rfl, incident, hlookup, hentitled⟩, fun r hr => ?_⟩⟩
        cases hr
  · -- `COMMIT`
    obtain ⟨w, rfl, rfl, -, hwrites⟩ := h
    cases he
    exact ⟨rfl, hwrites.mayRead⟩
  · -- `COMMIT`, of which the session hears nothing
    cases he
    exact knows_raised (by simp [silent]) fun _ => False
  · -- the row is read again
    obtain ⟨rfl, htargets, incident, hlookup, hentitled⟩ := h
    have hview : ((protocol strip).installAll db []).lookup _ = some incident := hlookup
    rw [hview] at he
    cases he
    exact knows_read htargets hlookup hentitled fun _ => False
  · cases he
    exact hfailed _
  · cases he
    exact hfailed _
  · cases he
    exact hfailed _
  · cases he
    exact hfailed _
  · cases he

/-- What a session knows survives the commit of writes to rows that it has not locked. -/
theorem Loc.Knows.stable {loc : Loc strip} {held : ℕ → Prop} {ws' : List Write}
    (h : loc.Knows ws held db) (hother : ∀ w ∈ ws', ¬held w.incidentId) :
    loc.Knows ws held ((protocol strip).installAll db ws') := by
  have hkeep {id : ℕ} (hheld : held id) :
      ((protocol strip).installAll db ws').lookup id = db.lookup id :=
    lookup_installAll_of_ne fun w hw he => hother w hw (he ▸ hheld)
  cases loc with
  | ready => exact h
  | called call => exact h
  | locked incidentId status principal incident =>
    obtain ⟨hws, hheld, hlookup⟩ := h
    exact ⟨hws, hheld, (hkeep hheld).trans hlookup⟩
  | flushed call id =>
    obtain ⟨w, hws, hid, hheld, hwrites⟩ := h
    refine ⟨w, hws, hid, hheld, ?_⟩
    cases call with
    | create payload reporterUuid =>
      obtain ⟨createdAt, updatedAt, new, rfl, hnone⟩ := hwrites
      subst hid
      exact ⟨createdAt, updatedAt, new, rfl, (hkeep hheld).trans hnone⟩
    | updateStatus incidentId status principal =>
      obtain ⟨incident, now, rfl, hlookup, hchecked⟩ := hwrites
      subst hid
      exact ⟨incident, now, rfl, (hkeep hheld).trans hlookup, hchecked⟩
    | get incidentId principal => exact hwrites.elim
  | committed call id => exact ⟨h.1, h.2.installAll ws'⟩
  | answered call answer => exact ⟨h.1, h.2.installAll ws'⟩

/-- Knowledge as a reliance of the calls on each other. -/
def knowledge (strip : String → String) :
    Reliance (protocol strip) (fun _ _ _ => True) fun _ _ _ => True where
  holds loc ws held db := loc.Knows ws held db
  step {a ws _ db c busy o} h _ he := by
    have hexec : exec a c busy ((protocol strip).installAll db ws) = some o := he
    exact h.step hexec
  stable h h' hdisjoint _ := h.stable fun w hw hheld => hdisjoint _ hheld (h'.guarded w hw)

end

/-! ## Runs -/

section

variable {ι : Type*} [DecidableEq ι] {s s' : State ι Incidents ℕ Write (Loc strip)} {i : ι}
  {choice : Choice strip} {id : ℕ} {before : Incident}

/-- Only a session that has flushed its write commits. -/
theorem exec_eq_commit {loc a : Loc strip} {busy : ℕ → Bool} {db : Incidents}
    (he : exec loc choice busy db = some (.commit a)) : ∃ call id, loc = .flushed call id := by
  unfold exec raised at he
  split at he
  case h_7 call id _ _ _ => exact ⟨call, id, rfl⟩
  case h_8 call id => exact ⟨call, id, rfl⟩
  all_goals (repeat' split at he) <;> cases he

/-- What refuses a call. -/
def IsRefusal (e : IncidentError) : Prop :=
  e = notFound ∨ e = accessDenied ∨ ∃ current status, e = invalidTransition current status

/-- The call under way has not committed, or it has been refused. -/
def Loc.Unwritten : Loc strip → Prop
  | .called _ | .locked _ _ _ _ | .flushed _ _ => True
  | .answered _ (.error (.incident e)) => IsRefusal e
  | _ => False

theorem not_isRefusal_persistenceFailure : ¬IsRefusal persistenceFailure := by
  rintro (h | h | ⟨current, status, h⟩) <;> cases congrArg IncidentError.statusCode h

theorem not_unwritten_read (call : Call strip) (incident : Incident) :
    ¬(Loc.answered call (read strip incident)).Unwritten := by
  unfold read
  split_ifs <;> exact id

/-- Within a call, what leads to a refusal has not committed. -/
theorem exec_unwritten {loc : Loc strip} {busy : ℕ → Bool} {db : Incidents}
    {o : RowLock.Outcome ℕ Write (Loc strip)} (he : exec loc choice busy db = some o)
    (hchoice : ∀ call, choice ≠ .call call) (h : o.loc.Unwritten) :
    loc.Unwritten ∧ ∀ a, o ≠ .commit a := by
  unfold exec raised at he
  split at he
  case h_1 => exact absurd rfl (hchoice _)
  case h_2 => exact absurd rfl (hchoice _)
  case h_7 =>
    cases he
    exact h.elim
  case h_8 =>
    cases he
    exact absurd h not_isRefusal_persistenceFailure
  case h_9 =>
    split at he
    · cases he
      exact absurd h not_isRefusal_persistenceFailure
    · cases he
      exact absurd h (not_unwritten_read _ _)
  case h_13 =>
    cases he
    exact absurd h not_isRefusal_persistenceFailure
  all_goals
    (repeat' split at he) <;> cases he <;> exact ⟨trivial, fun _ hcommit => by cases hcommit⟩

theorem all_next (hall : (knowledge strip).All s)
    (hnext : (protocol strip).next s (i, choice) = some s') : (knowledge strip).All s' :=
  (knowledge strip).all_next hall trivial (fun _ _ _ _ => trivial) hnext

/-- What a step can do to a row that is there: nothing, or a change of status behind its checks. -/
theorem lookup_next (hall : (knowledge strip).All s)
    (hnext : (protocol strip).next s (i, choice) = some s')
    (hbefore : s.db.lookup id = some before) :
    s'.db.lookup id = some before ∨
      ∃ status principal now, (s.session i).loc = .flushed (.updateStatus id status principal) id ∧
        authorizeDelegated before principal = .ok () ∧
        status ∈ allowedTransitions before.status ∧
        s'.db.lookup id = some (moveTo status now before) := by
  obtain hsame | ⟨a, hcommit, hview, -⟩ := Protocol.db_next hnext
  · exact .inl (hsame ▸ hbefore)
  · have hexec : exec (s.session i).loc choice (s.busy i) ((protocol strip).view s i) =
        some (.commit a) := hcommit
    obtain ⟨call, target, hloc⟩ := exec_eq_commit hexec
    have hknows : (s.session i).loc.Knows (s.session i).pending
      (fun k => s.owner k = some i) s.db := hall i
    rw [hloc] at hknows ⊢
    obtain ⟨w, hpending, rfl, -, hwrites⟩ := hknows
    have hdb : s'.db = install s.db w := by rw [hview, Protocol.view, hpending]; rfl
    rw [hdb, lookup_install hbefore]
    cases call with
    | create payload reporterUuid =>
      obtain ⟨createdAt, updatedAt, new, rfl, -⟩ := hwrites
      exact .inl rfl
    | updateStatus incidentId status principal =>
      obtain ⟨incident, now, rfl, hlookup, hauthorised, hstatus⟩ := hwrites
      by_cases hid : incidentId = id
      · subst hid
        obtain rfl := Option.some.inj (hbefore.symm.trans hlookup)
        have heffect : (Write.setStatus incidentId status now).effect before =
            moveTo status now before := if_pos (Table.lookup_eq_some_iff.1 hbefore).2
        exact .inr ⟨status, principal, now, rfl, hauthorised, hstatus, congrArg some heffect⟩
      · have hother : before.id ≠ incidentId := fun he =>
          hid (he.symm.trans (Table.lookup_eq_some_iff.1 hbefore).2)
        exact .inl (congrArg some (if_neg hother))
    | get incidentId principal => exact hwrites.elim

/-- A step within a call that leads to a refusal leaves the rows alone. -/
theorem db_next_of_unwritten (hnext : (protocol strip).next s (i, choice) = some s')
    (hchoice : ∀ call, choice ≠ .call call) (h : (s'.session i).loc.Unwritten) :
    (s.session i).loc.Unwritten ∧ s'.db = s.db := by
  obtain ⟨o, he, hloc⟩ := Protocol.session_next_self hnext
  have hexec : exec (s.session i).loc choice (s.busy i) ((protocol strip).view s i) = some o := he
  rw [hloc] at h
  obtain ⟨hbefore, hno⟩ := exec_unwritten hexec hchoice h
  refine ⟨hbefore, ?_⟩
  obtain hsame | ⟨a, hcommit, -, -⟩ := Protocol.db_next hnext
  · exact hsame
  · exact absurd (Option.some.inj (he.symm.trans hcommit)) (hno a)

/-- **A refused call leaves every row as it was**: none of its steps changes the table. -/
theorem refused_unchanged (h : ((protocol strip).machine ι).Run
      (fun _ l => l.1 = i → ∀ call, l.2 ≠ .call call) s s')
    (hloc : (s'.session i).loc.Unwritten) :
    ((protocol strip).machine ι).Run
      (fun s l => l.1 = i → ∀ s', (protocol strip).next s l = some s' → s'.db = s.db) s s' := by
  induction h with
  | refl => exact .refl
  | @tail s₁ s₂ l _ hg hnext ih =>
    obtain ⟨j, choice⟩ := l
    by_cases hj : j = i
    · subst hj
      obtain ⟨hbefore, hsame⟩ := db_next_of_unwritten hnext (hg rfl) hloc
      refine (ih hbefore).tail (fun _ s' hs' => ?_) hnext
      rw [← Option.some.inj (hnext.symm.trans hs')]
      exact hsame
    · rw [Protocol.session_next_of_ne hnext (Ne.symm hj)] at hloc
      exact (ih hloc).tail (fun he => absurd he hj) hnext

/-- What a run can do to a row that is there. -/
theorem lookup_run (h : ((protocol strip).machine ι).Reachable s s')
    (hall : (knowledge strip).All s) (hbefore : s.db.lookup id = some before) :
    ∃ after, s'.db.lookup id = some after ∧
      after.createdByUserUuid = before.createdByUserUuid ∧
      (allowedTransitions before.status = [] → after = before) := by
  suffices hrow : (knowledge strip).All s' ∧ ∃ after, s'.db.lookup id = some after ∧
      after.createdByUserUuid = before.createdByUserUuid ∧
      (allowedTransitions before.status = [] → after = before) from hrow.2
  refine h.invariant (fun s' => (knowledge strip).All s' ∧ ∃ after, s'.db.lookup id = some after ∧
      after.createdByUserUuid = before.createdByUserUuid ∧
      (allowedTransitions before.status = [] → after = before))
    ⟨hall, before, hbefore, rfl, fun _ => rfl⟩ ?_
  rintro s₁ ⟨j, choice⟩ s₂ ⟨hall, after, hafter, hreporter, hfinal⟩ - hnext
  refine ⟨all_next hall hnext, ?_⟩
  obtain hsame | ⟨status, principal, now, -, -, hstatus, hmoved⟩ := lookup_next hall hnext hafter
  · exact ⟨after, hsame, hreporter, hfinal⟩
  · refine ⟨_, hmoved, hreporter, fun hterminal => ?_⟩
    rw [hfinal hterminal, hterminal] at hstatus
    cases hstatus

/-- The sessions at the start, on any table. -/
def start (ι : Type*) (strip : String → String) (db : Incidents) :
    State ι Incidents ℕ Write (Loc strip) := State.start db fun _ => .ready

theorem all_of_reachable {db : Incidents}
    (h : ((protocol strip).machine ι).Reachable (start ι strip db) s) : (knowledge strip).All s :=
  h.invariant (knowledge strip).All ((knowledge strip).all_start fun _ => rfl)
    fun _ _ _ hall _ hnext => all_next hall hnext

/-- **The lifecycle and the ownership of incidents.**  In every state that any calls reach from any
table: a step leaves an incident as it is, or moves it along an edge of the lifecycle, for someone
who may see it; whatever comes later, the incident and its reporter stay, and a resolved or
discarded one stays as it is; an answer tells nothing, or it is about an incident that its call may
see; and a call that goes on to be refused has changed no row on the way. -/
theorem incident_lifecycle {db : Incidents}
    (h : ((protocol strip).machine ι).Reachable (start ι strip db) s) :
    (∀ i choice s', (protocol strip).next s (i, choice) = some s' →
      ∀ id before, s.db.lookup id = some before → s'.db.lookup id = some before ∨
        ∃ status principal now,
          (s.session i).loc = .flushed (.updateStatus id status principal) id ∧
          (∀ user ∈ keptTo principal, before.createdByUserUuid = some user) ∧
          status ∈ allowedTransitions before.status ∧
          s'.db.lookup id = some (moveTo status now before)) ∧
    (∀ s', ((protocol strip).machine ι).Reachable s s' →
      ∀ id before, s.db.lookup id = some before → ∃ after, s'.db.lookup id = some after ∧
        after.createdByUserUuid = before.createdByUserUuid ∧
        (before.status = .resolved ∨ before.status = .discarded → after = before)) ∧
    (∀ i call answer, (s.session i).loc = .answered call answer →
      answer ∈ silent ∨ ∃ id incident, call.Targets id ∧ s.db.lookup id = some incident ∧
        (∀ user ∈ call.keptTo, incident.createdByUserUuid = some user) ∧
        ∀ r, answer = .ok r → r.id = id) ∧
    ∀ i s', ((protocol strip).machine ι).Run
        (fun _ l => l.1 = i → ∀ call, l.2 ≠ .call call) s s' →
      ∀ call e, (s'.session i).loc = .answered call (.error (.incident e)) → IsRefusal e →
        ((protocol strip).machine ι).Run (fun s l => l.1 = i → ∀ s',
          (protocol strip).next s l = some s' → s'.db = s.db) s s' := by
  have hall := all_of_reachable h
  refine ⟨fun i choice s' hnext id before hbefore => ?_, fun s' hrun id before hbefore => ?_,
    fun i call answer hloc => ?_, fun i s' hrun call e hloc hrefusal => ?_⟩
  · refine (lookup_next hall hnext hbefore).imp_right ?_
    rintro ⟨status, principal, now, hloc, hauthorised, hedge⟩
    exact ⟨status, principal, now, hloc, authorizeDelegated_eq_ok_iff.1 hauthorised, hedge⟩
  · obtain ⟨after, hafter, hreporter, hfinal⟩ := lookup_run hrun hall hbefore
    refine ⟨after, hafter, hreporter, fun hstatus => hfinal ?_⟩
    rcases hstatus with hstatus | hstatus <;> rw [hstatus] <;> rfl
  · have hknows : (s.session i).loc.Knows (s.session i).pending
      (fun k => s.owner k = some i) s.db := hall i
    rw [hloc] at hknows
    refine hknows.2.imp_right ?_
    rintro ⟨id, ⟨htargets, incident, hlookup, hentitled⟩, hid⟩
    exact ⟨id, incident, htargets, hlookup, hentitled, hid⟩
  · refine refused_unchanged hrun ?_
    rw [hloc]
    exact hrefusal

end

/-- The caller was denied access. -/
def Loc.denied : Loc strip → Bool
  | .answered _ (.error (.incident e)) => decide (e = accessDenied)
  | _ => false

theorem Loc.eq_answered_of_denied {loc : Loc strip} (h : loc.denied = true) :
    ∃ call, loc = .answered call (.error (.incident accessDenied)) := by
  unfold denied at h
  split at h
  · rw [of_decide_eq_true h]
    exact ⟨_, rfl⟩
  · cases h

/-- Two updates of an incident of Ana: that of Bob waits for that of the staff, and is refused. -/
theorem incident_lifecycle_of_two :
    ∃ (db : Incidents) (s : State (Fin 2) Incidents ℕ Write (Loc id)),
      ((protocol id).machine (Fin 2)).Reachable (start (Fin 2) id db) s ∧
      (s.db.lookup 1).map Incident.status = some .inProgress ∧
      (∃ call, (s.session 1).loc = .answered call (.error (.incident accessDenied))) ∧
      ∀ s', ((protocol id).machine (Fin 2)).Reachable s s' → ∃ after, s'.db.lookup 1 = some after ∧
        after.createdByUserUuid = some "ana" := by
  let incident : Incident := ⟨1, "Lost", "A lost parcel.", .lostParcel, .open, .customer, .central,
    0, 0, some "ana", none⟩
  let db : Incidents := ⟨[incident], by decide⟩
  let bob : ScopedPrincipal := ⟨"bob", "staff"⟩
  obtain ⟨s, hs, hp⟩ := ((protocol id).machine (Fin 2)).exists_reachable (start (Fin 2) id db)
    [(0, .call (.updateStatus 1 .inProgress none)), (0, .ok 0 0 0),
      (1, .call (.updateStatus 1 .discarded (some bob))), (0, .ok 0 5 0), (0, .ok 0 0 0),
      (1, .ok 0 0 0), (1, .ok 0 6 0)]
    (fun s => decide (s.db.lookup 1 = some (moveTo .inProgress 5 incident)) &&
      (s.session 1).loc.denied) (by decide)
  obtain ⟨hlookup, hanswer⟩ := Bool.and_eq_true_iff.1 hp
  have hlookup := of_decide_eq_true hlookup
  refine ⟨db, s, hs, by rw [hlookup]; rfl, Loc.eq_answered_of_denied hanswer, fun s' hrun => ?_⟩
  obtain ⟨after, hafter, hreporter, -⟩ := (incident_lifecycle hs).2.1 s' hrun 1 _ hlookup
  exact ⟨after, hafter, hreporter⟩

end Rows

end IncidentService

end TrackFlow
