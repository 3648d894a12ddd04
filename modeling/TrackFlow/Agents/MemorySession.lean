import TrackFlow.Agents.Memory

/-!
# The statements of the memory service

`create_proposal`, `decide` and `discard_pending` of `memory_service.py` as a row-lock protocol.
A session runs one operation after the other.  `COMMIT` first flushes: the writes that are due are
executed one by one, and a unique constraint that refuses one rolls everything back.

What an operation checks outside these tables (the schema of a candidate, the supplier, the
never-store policy) is an outcome of the choice.  Any statement can fail, which rolls back.

* `decideExec` : the statements of a decision.
* `flushExec` : the flush and the commit.
* `protocol` : the protocol of the sessions.
-/

namespace TrackFlow

namespace Agents

open RowLock

/-- `hashtextextended(key, 0)`, and `str.strip`. -/
structure MemoryPrimitives where
  hashtextextended : String → ℤ
  strip : String → String

/-- A decision request with the conversation that it was made in. -/
structure DecisionCall where
  conversation : Conversation
  decisionId : String
  proposalId : String
  action : Action
  actorUserUuid : String
  traceId : String
  deriving DecidableEq, Repr

/-- `AgentMemoryError`. -/
structure MemoryError where
  statusCode : ℕ
  detail : String
  deriving DecidableEq, Repr

/-- What the last operation of a session returned. -/
inductive Reply
  | none
  | proposal (proposal : Option Proposal)
  | notProposed
  | decision (decision : Decision)
  | refused (error : MemoryError)
  | failed
  deriving DecidableEq, Repr

/-- An operation that has something to commit. -/
inductive Operation
  | create (conversationId : String)
  | decide (call : DecisionCall)
  | discard
  deriving DecidableEq, Repr

/-- Where a session is. -/
inductive Loc
  /-- Between two operations. -/
  | idle (reply : Reply)
  /-- `decide` has found no row of its decision identifier. -/
  | deciding (call : DecisionCall)
  /-- `decide` has locked its proposal. -/
  | locked (call : DecisionCall) (proposal : Proposal)
  /-- `_approve` is about to take the lock of the natural key. -/
  | approving (call : DecisionCall) (proposal : Proposal) (values : CandidateValues)
  /-- `_approve` holds the lock of the natural key. -/
  | consolidating (call : DecisionCall) (proposal : Proposal) (values : CandidateValues)
  /-- The writes `done` are executed, the writes `todo` are due before `COMMIT`. -/
  | flushing (operation : Operation) (reply : Reply) (done todo : List Write)
  /-- A unique constraint refused a write of the operation. -/
  | conflicted (operation : Operation)
  deriving DecidableEq

/-- What decides a statement besides the tables. -/
inductive Choice
  /-- Start `create_proposal`; `valid` if the candidate passes its checks. -/
  | create (conversation : Conversation) (candidate : Option CandidateValues) (traceId id : String)
      (valid : Bool)
  /-- Start `decide`. -/
  | decide (call : DecisionCall)
  /-- Start `discard_pending`. -/
  | discard (conversationId : String)
  /-- The statement is executed: whether the candidate passes its checks, and a new identifier. -/
  | ok (valid : Bool) (id : String)
  /-- The statement fails. -/
  | fail
  deriving DecidableEq

section

variable (P : MemoryPrimitives)

/-- `_candidate_values`. -/
def candidateValues (candidate : CandidateValues) : CandidateValues :=
  { candidate with fact := P.strip candidate.fact }

/-- The column of the jurisdiction. -/
def Jurisdiction.code : Jurisdiction → String
  | .us => "US"
  | .es => "ES"

/-- The column of the kind. -/
def MemoryKind.code : MemoryKind → String
  | .carrierCoverageCorrection => "carrier_coverage_correction"
  | .carrierAssignmentCorrection => "carrier_assignment_correction"
  | .recurringOperationalPattern => "recurring_operational_pattern"
  | .carrierB2bReportingPreference => "carrier_b2b_reporting_preference"

/-- `lock_consolidation_key`: the advisory lock of a natural key. -/
def consolidationKey (key : FactKey) : RowKey :=
  .consolidation (P.hashtextextended
    ("|".intercalate [key.carrierId, key.jurisdiction.code, key.kind.code, key.subjectKey]))

/-! ## Decisions -/

/-- `_require_decision_owner` and `_require_identical`: what a repeated decision returns. -/
def repeated (db : Db) (call : DecisionCall) (existing : Decision) : Reply :=
  let used : Reply := .refused ⟨409, "decision_id was already used for a different decision."⟩
  if existing.conversationId ≠ call.conversation.id ∨
      existing.actorUserUuid ≠ call.actorUserUuid then
    .refused ⟨404, "Memory decision not found."⟩
  else if existing.proposalId ≠ call.proposalId ∨ existing.action ≠ call.action.name then used
  else
    match call.action with
    | .edit edited =>
      if (db.getProposal existing.proposalId).any
          (fun p => candidateValues P edited = p.values) = true then .decision existing
      else used
    | _ => .decision existing

/-- The row that `decide` adds. -/
def DecisionCall.audit (call : DecisionCall) (outcome : DecisionOutcome) (factId : Option String) :
    Decision where
  decisionId := call.decisionId
  proposalId := call.proposalId
  conversationId := call.conversation.id
  actorUserUuid := call.actorUserUuid
  traceId := call.traceId
  action := call.action.name
  outcome
  factId

/-- A decision whose writes are due: what it writes besides its row. -/
def DecisionCall.flush (call : DecisionCall) (outcome : DecisionOutcome) (factId : Option String)
    (writes : List Write) : Loc :=
  let audit := call.audit outcome factId
  .flushing (.decide call) (.decision audit) [] (writes ++ [.insertDecision audit])

/-- The version row of an approval. -/
def DecisionCall.version (call : DecisionCall) (factId : String) (version : ℕ)
    (values : CandidateValues) : Version where
  factId
  version
  values
  actorUserUuid := call.actorUserUuid
  proposalId := call.proposalId
  decisionId := call.decisionId
  traceId := call.traceId

/-- The new fact of `_approve`. -/
def newFact (values : CandidateValues) (id : String) : Fact where
  id
  values
  confirmationCount := 1
  version := 1
  active := true

/-- An approval that makes a new fact. -/
def DecisionCall.create (call : DecisionCall) (values : CandidateValues) (id : String) : Loc :=
  call.flush .approved (some id)
    [.insertFact (newFact values id), .setStatus call.proposalId .approved,
      .insertVersion (call.version id 1 values)]

/-- An approval that confirms a fact. -/
def DecisionCall.confirm (call : DecisionCall) (values : CandidateValues) (fact : Fact) : Loc :=
  call.flush .approved (some fact.id)
    [.setFact fact.id values (fact.confirmationCount + 1) (fact.version + 1),
      .setStatus call.proposalId .approved,
      .insertVersion (call.version fact.id (fact.version + 1) values)]

/-- The statements of `decide`. -/
def decideExec (db : Db) : Loc → Choice → Option (Outcome RowKey Write Loc)
  | .deciding call, .ok _ _ =>
    -- the row is locked, then the decision is looked up again
    match db.getProposal call.proposalId with
    | none =>
      match db.decision call.decisionId with
      | some existing => some (.rollback (.idle (repeated P db call existing)))
      | none => some (.rollback (.idle (.refused ⟨404, "Memory proposal not found."⟩)))
    | some proposal => some (.proceed [.proposal proposal.id] [] (.locked call proposal))
  | .locked call proposal, .ok valid _ =>
    match db.decision call.decisionId with
    | some existing => some (.rollback (.idle (repeated P db call existing)))
    | none =>
      if proposal.conversationId ≠ call.conversation.id then
        some (.rollback (.idle (.refused ⟨404, "Memory proposal not found."⟩)))
      else if proposal.status ≠ .pending then
        some (.rollback (.idle (.refused ⟨409, "Memory proposal is no longer pending."⟩)))
      else
        let ineligible : Reply := .refused ⟨400, "Memory candidate is not eligible for storage."⟩
        match call.action with
        | .edit edited =>
          if valid = false then some (.rollback (.idle ineligible))
          else some (.proceed [] [] (call.flush .edited none
            [.setCandidate call.proposalId (candidateValues P edited) call.traceId]))
        | .reject =>
          some (.proceed [] [] (call.flush .rejected none [.setStatus call.proposalId .rejected]))
        | .approve =>
          if valid = false then some (.rollback (.idle ineligible))
          else some (.proceed [] []
            (.approving call proposal (candidateValues P proposal.values)))
  | .approving call proposal values, .ok _ _ =>
    some (.proceed [consolidationKey P values.key] [] (.consolidating call proposal values))
  | .consolidating call _ values, .ok _ id =>
    match db.consolidatedFact values.key with
    | none => some (.proceed [] [] (call.create values id))
    | some fact => some (.proceed [.fact fact.id] [] (call.confirm values fact))
  | _, _ => none

/-- What follows a unique constraint that refused a write. -/
def conflictedExec (db : Db) : Operation → Outcome RowKey Write Loc
  | .create conversationId =>
    .rollback (.idle (.proposal (db.pendingProposal conversationId)))
  | .decide call =>
    match db.decision call.decisionId with
    | some existing => .rollback (.idle (repeated P db call existing))
    | none =>
      .rollback (.idle (.refused ⟨409, "Memory decision conflicted with another request."⟩))
  | .discard => .rollback (.idle .failed)

/-- The next write, or `COMMIT` after the last one. -/
def flushExec (db : Db) (operation : Operation) (reply : Reply) (done : List Write) :
    List Write → Outcome RowKey Write Loc
  | [] => .commit (.idle reply)
  | write :: todo =>
    if write.conflicts db then
      match write with
      -- the flush of a new fact is not the one that `decide` guards
      | .insertFact _ => .rollback (.idle .failed)
      | _ => .rollback (.conflicted operation)
    else .proceed write.locks [write] (.flushing operation reply (done ++ [write]) todo)

/-- The new proposal of `create_proposal`. -/
def newProposal (conversationId : String) (values : CandidateValues) (traceId id : String) :
    Proposal where
  id
  conversationId
  values
  status := .pending
  traceId

/-- The statement a session executes. -/
def exec (db : Db) : Loc → Choice → Option (Outcome RowKey Write Loc)
  | .idle _, .create conversation candidate traceId id valid =>
    match candidate, db.pendingProposal conversation.id with
    | none, pending => some (.rollback (.idle (.proposal pending)))
    | some _, some pending => some (.rollback (.idle (.proposal (some pending))))
    | some candidate, none =>
      if valid = false then some (.rollback (.idle .notProposed))
      else
        let row := newProposal conversation.id (candidateValues P candidate) traceId id
        some (.proceed [] [] (.flushing (.create conversation.id) (.proposal (some row)) []
          [.insertProposal row]))
  | .idle _, .decide call =>
    match db.decision call.decisionId with
    | some existing => some (.rollback (.idle (repeated P db call existing)))
    | none => some (.proceed [] [] (.deciding call))
  | .idle _, .discard conversationId =>
    match db.pendingProposal conversationId with
    | none => some (.rollback (.idle .none))
    -- the row is not locked
    | some pending => some (.proceed [] [] (.flushing .discard .none []
        [.setStatus pending.id .discarded]))
  | .idle _, _ => none
  | _, .fail => some (.rollback (.idle .failed))
  | .flushing operation reply done todo, .ok _ _ => some (flushExec db operation reply done todo)
  | .conflicted operation, .ok _ _ => some (conflictedExec P db operation)
  | loc, c => decideExec P db loc c

/-- The protocol of the sessions. -/
def protocol : Protocol Db RowKey Write Choice Loc where
  install := Write.install
  exec loc c _ db := exec P db loc c

/-! ## What a statement does -/

/-- A session that has nothing to commit between two operations. -/
def Loc.IsQuiet : Loc → Prop
  | .idle _ => True
  | .conflicted _ => True
  | _ => False

/-- Everything a statement can do. -/
inductive Statement (db : Db) : Loc → Outcome RowKey Write Loc → Prop
  | leave (loc loc' : Loc) (quiet : loc'.IsQuiet) : Statement db loc (.rollback loc')
  | commit (operation : Operation) (reply : Reply) (done : List Write) :
      Statement db (.flushing operation reply done []) (.commit (.idle reply))
  | write (operation : Operation) (reply : Reply) (done todo : List Write) (w : Write)
      (free : w.conflicts db = false) :
      Statement db (.flushing operation reply done (w :: todo))
        (.proceed w.locks [w] (.flushing operation reply (done ++ [w]) todo))
  | propose (before reply : Reply) (conversationId : String) (values : CandidateValues)
      (traceId id : String) :
      Statement db (.idle before) (.proceed [] [] (.flushing (.create conversationId) reply []
        [.insertProposal (newProposal conversationId values traceId id)]))
  | discard (before : Reply) (conversationId : String) (p : Proposal)
      (found : db.pendingProposal conversationId = some p) :
      Statement db (.idle before)
        (.proceed [] [] (.flushing .discard .none [] [.setStatus p.id .discarded]))
  | start (before : Reply) (call : DecisionCall) :
      Statement db (.idle before) (.proceed [] [] (.deciding call))
  | lock (call : DecisionCall) (p : Proposal) (found : db.getProposal call.proposalId = some p) :
      Statement db (.deciding call) (.proceed [.proposal p.id] [] (.locked call p))
  | edit (call : DecisionCall) (p : Proposal) (edited : CandidateValues)
      (pending : p.status = .pending) :
      Statement db (.locked call p) (.proceed [] [] (call.flush .edited none
        [.setCandidate call.proposalId (candidateValues P edited) call.traceId]))
  | reject (call : DecisionCall) (p : Proposal) (pending : p.status = .pending) :
      Statement db (.locked call p)
        (.proceed [] [] (call.flush .rejected none [.setStatus call.proposalId .rejected]))
  | approve (call : DecisionCall) (p : Proposal) (pending : p.status = .pending) :
      Statement db (.locked call p)
        (.proceed [] [] (.approving call p (candidateValues P p.values)))
  | consolidate (call : DecisionCall) (p : Proposal) (values : CandidateValues) :
      Statement db (.approving call p values)
        (.proceed [consolidationKey P values.key] [] (.consolidating call p values))
  | create (call : DecisionCall) (p : Proposal) (values : CandidateValues) (id : String)
      (absent : db.consolidatedFact values.key = none) :
      Statement db (.consolidating call p values) (.proceed [] [] (call.create values id))
  | confirm (call : DecisionCall) (p : Proposal) (values : CandidateValues) (fact : Fact)
      (found : db.consolidatedFact values.key = some fact) :
      Statement db (.consolidating call p values)
        (.proceed [.fact fact.id] [] (call.confirm values fact))

end

section

variable {P : MemoryPrimitives} {db : Db} {loc : Loc} {c : Choice} {o : Outcome RowKey Write Loc}

theorem Statement.of_flushExec (operation : Operation) (reply : Reply) (done todo : List Write) :
    Statement P db (.flushing operation reply done todo)
      (flushExec db operation reply done todo) := by
  cases todo with
  | nil => exact .commit operation reply done
  | cons w todo =>
    unfold flushExec
    dsimp only
    split
    · split <;> exact .leave _ _ trivial
    · rename_i hw
      exact .write operation reply done todo w (Bool.eq_false_iff.2 hw)

theorem Statement.of_decideExec (h : decideExec P db loc c = some o) : Statement P db loc o := by
  unfold decideExec at h
  split at h
  · -- the proposal is locked
    split at h
    · split at h <;> cases h <;> exact .leave _ _ trivial
    · cases h
      exact .lock _ _ ‹_›
  · split at h
    · cases h
      exact .leave _ _ trivial
    split at h
    · cases h
      exact .leave _ _ trivial
    split at h
    · cases h
      exact .leave _ _ trivial
    rename_i hpending
    replace hpending := not_not.1 hpending
    dsimp only at h
    split at h
    · split at h <;> cases h
      · exact .leave _ _ trivial
      · exact .edit _ _ _ hpending
    · cases h
      exact .reject _ _ hpending
    · split at h <;> cases h
      · exact .leave _ _ trivial
      · exact .approve _ _ hpending
  · cases h
    exact .consolidate _ _ _
  · split at h <;> cases h
    · exact .create _ _ _ _ ‹_›
    · exact .confirm _ _ _ _ ‹_›
  · cases h

/-- **Everything a statement can do.** -/
theorem Statement.of_exec (h : exec P db loc c = some o) : Statement P db loc o := by
  unfold exec at h
  split at h
  · split at h
    · cases h
      exact .leave _ _ trivial
    · cases h
      exact .leave _ _ trivial
    · split_ifs at h <;> cases h
      · exact .leave _ _ trivial
      · exact .propose _ _ _ _ _ _
  · split at h <;> cases h
    · exact .leave _ _ trivial
    · exact .start _ _
  · split at h <;> cases h
    · exact .leave _ _ trivial
    · exact .discard _ _ _ ‹_›
  · cases h
  · cases h
    exact .leave _ _ trivial
  · cases h
    exact .of_flushExec _ _ _ _
  · rename_i operation _ _
    cases operation <;> simp only [conflictedExec] at h
    · cases h
      exact .leave _ _ trivial
    · split at h <;> cases h <;> exact .leave _ _ trivial
    · cases h
      exact .leave _ _ trivial
  · exact .of_decideExec h

end

/-! ## Sessions for concrete runs -/

/-- Natural keys that all share one advisory lock. -/
def plainMemory : MemoryPrimitives := ⟨fun _ => 0, id⟩

/-- A candidate about the delays of a carrier. -/
def delayPattern (fact : String) : CandidateValues where
  key := ⟨"seur", .es, .recurringOperationalPattern, "delay"⟩
  fact
  recurrenceCount := 2
  effectiveAt := none

/-- The approval of the proposal `name` in the conversation `name`. -/
def approvalOf (name : String) : DecisionCall where
  conversation := ⟨name, .es⟩
  decisionId := name
  proposalId := name
  action := .approve
  actorUserUuid := "ana"
  traceId := name

/-- A session executes `n` statements; new rows get the identifier `id`. -/
def statements (session : Bool) (n : ℕ) (id : String) : List (Bool × Choice) :=
  List.replicate n (session, .ok true id)

end Agents

end TrackFlow
