import TrackFlow.Sql.RowLock
import Mathlib.Data.Int.Notation
import Mathlib.Data.List.Nodup

/-!
# Confirmed memory

The rows of the agents' memory (`models.py`) and the statements that write them
(`memory_repository.py`).  A proposal waits for a typed decision; an approved one becomes a fact,
or confirms the fact of its natural key, and every approval leaves a version row.

* `Write` : the row writes; `Write.conflicts` is a unique constraint that refuses one.
* `Write.locks` : the rows and index entries that a write locks.
* `Write.install` : the tables after a write.
-/

namespace TrackFlow

namespace Agents

/-- The jurisdictions of the policies. -/
inductive Jurisdiction
  | us
  | es
  deriving DecidableEq, Repr

/-- `MEMORY_KINDS`. -/
inductive MemoryKind
  | carrierCoverageCorrection
  | carrierAssignmentCorrection
  | recurringOperationalPattern
  | carrierB2bReportingPreference
  deriving DecidableEq, Repr

/-- `ck_agent_memory_proposals_status`. -/
inductive ProposalStatus
  | pending
  | approved
  | rejected
  | discarded
  deriving DecidableEq, Repr

/-- The natural key of a fact, `uq_agent_memory_facts_consolidation`. -/
structure FactKey where
  carrierId : String
  jurisdiction : Jurisdiction
  kind : MemoryKind
  subjectKey : String
  deriving DecidableEq, Repr

/-- `_CandidateValues`: what a candidate says, with the natural key it says it about. -/
structure CandidateValues where
  key : FactKey
  fact : String
  recurrenceCount : ℕ
  effectiveAt : Option ℕ
  deriving DecidableEq, Repr

/-- `AgentConversation`. -/
structure Conversation where
  id : String
  jurisdiction : Jurisdiction
  deriving DecidableEq, Repr

/-- `AgentMemoryProposal`. -/
structure Proposal where
  id : String
  conversationId : String
  values : CandidateValues
  status : ProposalStatus
  traceId : String
  deriving DecidableEq, Repr

/-- `AgentMemoryFact`. -/
structure Fact where
  id : String
  values : CandidateValues
  confirmationCount : ℕ
  version : ℕ
  active : Bool
  deriving DecidableEq, Repr

/-- What a user decides about a proposal. -/
inductive Action
  | approve
  | reject
  | edit (editedCandidate : CandidateValues)
  deriving DecidableEq, Repr

/-- The column `outcome` with its `reason_code`. -/
inductive DecisionOutcome
  | approved
  | rejected
  | edited
  deriving DecidableEq, Repr

/-- `reason_code`. -/
def DecisionOutcome.reasonCode : DecisionOutcome → String
  | .approved => "human_confirmed"
  | .rejected => "human_rejected"
  | .edited => "human_edit"

/-- The column `action`. -/
inductive ActionName
  | approve
  | reject
  | edit
  deriving DecidableEq, Repr

/-- The column `action` of a decision. -/
def Action.name : Action → ActionName
  | .approve => .approve
  | .reject => .reject
  | .edit _ => .edit

/-- `AgentMemoryDecision`. -/
structure Decision where
  decisionId : String
  proposalId : String
  conversationId : String
  actorUserUuid : String
  traceId : String
  action : ActionName
  outcome : DecisionOutcome
  factId : Option String
  deriving DecidableEq, Repr

/-- `AgentMemoryVersion`. -/
structure Version where
  factId : String
  version : ℕ
  values : CandidateValues
  actorUserUuid : String
  proposalId : String
  decisionId : String
  traceId : String
  deriving DecidableEq, Repr

/-- The memory tables. -/
structure Db where
  proposals : List Proposal
  facts : List Fact
  versions : List Version
  decisions : List Decision
  deriving DecidableEq, Repr

/-- The tables without rows. -/
def Db.empty : Db := ⟨[], [], [], []⟩

/-! ## Queries -/

namespace Db

/-- `pending_proposal`: by `uq_agent_memory_proposals_one_pending` there is one at most. -/
def pendingProposal (db : Db) (conversationId : String) : Option Proposal :=
  db.proposals.find? fun p => p.conversationId = conversationId ∧ p.status = .pending

/-- `get_proposal`, and `locked_proposal` without its lock. -/
def getProposal (db : Db) (proposalId : String) : Option Proposal :=
  db.proposals.find? fun p => p.id = proposalId

/-- `decision`. -/
def decision (db : Db) (decisionId : String) : Option Decision :=
  db.decisions.find? fun d => d.decisionId = decisionId

/-- `consolidated_fact` without its lock. -/
def consolidatedFact (db : Db) (key : FactKey) : Option Fact :=
  db.facts.find? fun f => f.values.key = key

end Db

/-! ## Writes -/

/-- A row or an index entry, or the advisory lock of a number. -/
inductive RowKey
  | proposal (id : String)
  | pendingSlot (conversationId : String)
  | fact (id : String)
  | factKey (key : FactKey)
  | consolidation (hash : ℤ)
  | version (factId : String) (version : ℕ)
  | decision (decisionId : String)
  deriving DecidableEq

/-- A row write.  An `UPDATE` sets the columns that the mapped object has changed. -/
inductive Write
  | insertProposal (proposal : Proposal)
  | setStatus (proposalId : String) (status : ProposalStatus)
  | setCandidate (proposalId : String) (values : CandidateValues) (traceId : String)
  | insertFact (fact : Fact)
  | setFact (factId : String) (values : CandidateValues) (confirmationCount version : ℕ)
  | insertVersion (version : Version)
  | insertDecision (decision : Decision)
  deriving DecidableEq

namespace Write

/-- A committed row, or one of the session, takes a unique value of the new row. -/
def conflicts (db : Db) : Write → Bool
  | .insertProposal p => db.proposals.any fun q =>
      q.id = p.id ∨ (p.status = .pending ∧ q.status = .pending ∧
        q.conversationId = p.conversationId)
  | .insertFact f => db.facts.any fun g => g.id = f.id ∨ g.values.key = f.values.key
  | .insertVersion v => db.versions.any fun w => w.factId = v.factId ∧ w.version = v.version
  | .insertDecision d => db.decisions.any fun e => e.decisionId = d.decisionId
  | _ => false

/-- An `UPDATE` locks its row, an `INSERT` its entries in the unique indexes. -/
def locks : Write → List RowKey
  | .insertProposal p => [.proposal p.id, .pendingSlot p.conversationId]
  | .setStatus proposalId _ => [.proposal proposalId]
  | .setCandidate proposalId _ _ => [.proposal proposalId]
  | .insertFact f => [.fact f.id, .factKey f.values.key]
  | .setFact factId _ _ _ => [.fact factId]
  | .insertVersion v => [.version v.factId v.version]
  | .insertDecision d => [.decision d.decisionId]

/-- The tables after a write. -/
def install (db : Db) : Write → Db
  | .insertProposal p => { db with proposals := db.proposals ++ [p] }
  | .setStatus proposalId status =>
    { db with proposals := db.proposals.map fun p =>
        if p.id = proposalId then { p with status } else p }
  | .setCandidate proposalId values traceId =>
    { db with proposals := db.proposals.map fun p =>
        if p.id = proposalId then { p with values, traceId } else p }
  | .insertFact f => { db with facts := db.facts ++ [f] }
  | .setFact factId values confirmationCount version =>
    -- the columns of the natural key are not among those that are set
    { db with facts := db.facts.map fun f =>
        if f.id = factId then
          { f with
            values := { values with key := f.values.key }
            confirmationCount
            version
            active := true }
        else f }
  | .insertVersion v => { db with versions := db.versions ++ [v] }
  | .insertDecision d => { db with decisions := db.decisions ++ [d] }

end Write

end Agents

end TrackFlow
