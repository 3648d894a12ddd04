import Mathlib.Data.List.Perm.Basic
import TrackFlow.Rfp.IntakeGraph
import TrackFlow.Sql.Statements
import TrackFlow.Sql.Table

/-!
# Tickets and their sections

The rows that the background work of an RFP writes, and `repository.py` as programs of statements.
A commit flushes every changed object of the session, the sections that were loaded as well as the
ticket that is saved.

* `RfpTables.SectionsMatch` : a ticket past its intake has one section for each of its departments.
* `RfpTables.DraftsRecorded` : the sections of an evaluated ticket have drafts or recorded errors.
* `SectionsMatch.putTicket`, `DraftsRecorded.putTicket` and `SectionsMatch.putSections`,
  `DraftsRecorded.putSections` : what keeps them.
-/

namespace TrackFlow

namespace Rfp

open Tx

/-- `RfpTicket`, as the background work reads and writes it. -/
structure RfpTicket where
  id : String
  status : TicketStatus
  clientName : Option String
  clientCountry : Option Country
  currency : Option Currency
  servicesRequested : Option (List ServiceTag)
  monthlyVolume : Option ℕ
  deadlineDays : Option ℕ
  budgetRange : Option String
  departmentsNeeded : Option (List Department)
  markdownText : Option String
  discardReason : Option String
  updatedAt : ℕ
  deriving DecidableEq, Repr

/-- The ticket is past its intake. -/
def RfpTicket.PastIntake (ticket : RfpTicket) : Prop :=
  ticket.status = .drafting ∨ ticket.status = .underEvaluation ∨
    ticket.status = .waitingForApproval ∨ ticket.status = .done

/-- The ticket is under evaluation or later. -/
def RfpTicket.Evaluated (ticket : RfpTicket) : Prop :=
  ticket.status = .underEvaluation ∨ ticket.status = .waitingForApproval ∨ ticket.status = .done

instance (ticket : RfpTicket) : Decidable ticket.PastIntake :=
  inferInstanceAs (Decidable (_ ∨ _ ∨ _ ∨ _))

instance (ticket : RfpTicket) : Decidable ticket.Evaluated :=
  inferInstanceAs (Decidable (_ ∨ _ ∨ _))

/-- `uq_rfp_sections_ticket_department`. -/
def DepartmentSection.key (row : DepartmentSection) : String × Department :=
  (row.ticketId, row.departmentId)

/-- The tables `rfp_tickets` and `rfp_department_sections`. -/
structure RfpTables where
  tickets : Table RfpTicket.id
  sections : Table DepartmentSection.key

namespace RfpTables

/-- The sections of a ticket. -/
def sectionsOf (db : RfpTables) (ticketId : String) : List DepartmentSection :=
  db.sections.rows.filter fun row => row.ticketId = ticketId

/-- A ticket past its intake has exactly one section for each entry of its departments. -/
def SectionsMatch (db : RfpTables) : Prop :=
  ∀ ticket ∈ db.tickets.rows, ticket.PastIntake →
    ((db.sectionsOf ticket.id).map DepartmentSection.departmentId).Perm
      (ticket.departmentsNeeded.getD [])

instance (db : RfpTables) : Decidable db.SectionsMatch :=
  inferInstanceAs (Decidable (∀ ticket ∈ db.tickets.rows, ticket.PastIntake → List.Perm _ _))

/-- Every section of an evaluated ticket has its draft or its generation error recorded. -/
def DraftsRecorded (db : RfpTables) : Prop :=
  ∀ ticket ∈ db.tickets.rows, ticket.Evaluated →
    ∀ row ∈ db.sectionsOf ticket.id, row.Recorded

instance (db : RfpTables) : Decidable db.DraftsRecorded :=
  inferInstanceAs (Decidable (∀ ticket ∈ db.tickets.rows, ticket.Evaluated →
    ∀ row ∈ db.sectionsOf ticket.id, row.Recorded))

/-- `UPDATE rfp_tickets` of a loaded ticket. -/
def putTicket (db : RfpTables) (ticket : RfpTicket) : RfpTables :=
  { db with
    tickets := db.tickets.update (fun row => if row.id = ticket.id then ticket else row)
      fun row => by
        split_ifs with h
        · exact h.symm
        · rfl }

/-- The row behind an update of several loaded sections. -/
def written (rows : List DepartmentSection) (row : DepartmentSection) : DepartmentSection :=
  (rows.find? fun r => r.key = row.key).getD row

theorem key_written (rows : List DepartmentSection) (row : DepartmentSection) :
    (written rows row).key = row.key := by
  unfold written
  cases h : rows.find? fun r => r.key = row.key with
  | none => rfl
  | some r => simpa using List.find?_some h

/-- `UPDATE rfp_department_sections` of loaded sections. -/
def putSections (db : RfpTables) (rows : List DepartmentSection) : RfpTables :=
  { db with sections := db.sections.update (written rows) (key_written rows) }

/-- `INSERT INTO rfp_department_sections`. -/
def addSections (db : RfpTables) : List DepartmentSection → Option RfpTables
  | [] => some db
  | row :: rows =>
    (db.sections.insert row).bind fun sections => { db with sections }.addSections rows

end RfpTables

/-! ### What the updates keep -/

section

variable {db db' : RfpTables} {ticket : RfpTicket} {rows : List DepartmentSection}
  {ticketId : String}

namespace RfpTables

@[simp] theorem sectionsOf_putTicket : (db.putTicket ticket).sectionsOf ticketId =
    db.sectionsOf ticketId := rfl

/-- What the ticket and all others have, the tickets behind an update have. -/
theorem forall_putTicket {P : RfpTicket → Prop}
    (h : ∀ row ∈ db.tickets.rows, row.id ≠ ticket.id → P row) (hticket : P ticket) :
    ∀ row ∈ (db.putTicket ticket).tickets.rows, P row := by
  intro row hrow
  obtain ⟨old, hold, rfl⟩ := List.mem_map.1 hrow
  split_ifs with hid
  · exact hticket
  · exact h old hold hid

theorem SectionsMatch.putTicket (h : db.SectionsMatch)
    (hticket : ticket.PastIntake → ((db.sectionsOf ticket.id).map
      DepartmentSection.departmentId).Perm (ticket.departmentsNeeded.getD [])) :
    (db.putTicket ticket).SectionsMatch :=
  forall_putTicket (fun row hrow _ => h row hrow) hticket

theorem DraftsRecorded.putTicket (h : db.DraftsRecorded)
    (hticket : ticket.Evaluated → ∀ row ∈ db.sectionsOf ticket.id, row.Recorded) :
    (db.putTicket ticket).DraftsRecorded :=
  forall_putTicket (fun row hrow _ => h row hrow) hticket

/-- An update of sections changes them where they are. -/
theorem sectionsOf_putSections :
    (db.putSections rows).sectionsOf ticketId = (db.sectionsOf ticketId).map (written rows) := by
  unfold sectionsOf putSections
  rw [Table.rows_update, List.filter_map]
  congr 1
  refine List.filter_congr fun row _ => ?_
  have hkey : (written rows row).ticketId = row.ticketId :=
    congrArg Prod.fst (key_written rows row)
  simp only [Function.comp_apply, hkey]

theorem SectionsMatch.putSections (h : db.SectionsMatch) : (db.putSections rows).SectionsMatch := by
  intro ticket hticket hpast
  have hkey : DepartmentSection.departmentId ∘ written rows = DepartmentSection.departmentId :=
    funext fun row => congrArg Prod.snd (key_written rows row)
  rw [sectionsOf_putSections, List.map_map, hkey]
  exact h ticket hticket hpast

@[simp] theorem putSections_nil : db.putSections [] = db := by
  have hwritten : written [] = id := funext fun _ => rfl
  rcases db with ⟨tickets, ⟨sections, hsections⟩⟩
  simp only [putSections, Table.update, hwritten, List.map_id]

/-- A written row is one of those that were loaded, or the row before. -/
theorem written_mem_or_eq (rows : List DepartmentSection) (row : DepartmentSection) :
    written rows row ∈ rows ∨
      written rows row = row ∧ ∀ r ∈ rows, r.key ≠ row.key := by
  unfold written
  cases h : rows.find? fun r => r.key = row.key with
  | none => exact .inr ⟨rfl, by simpa using h⟩
  | some r => exact .inl (List.mem_of_find?_eq_some h)

theorem DraftsRecorded.putSections (h : db.DraftsRecorded) (hrows : ∀ r ∈ rows, r.Recorded) :
    (db.putSections rows).DraftsRecorded := by
  intro ticket hticket heval row hrow
  rw [sectionsOf_putSections] at hrow
  obtain ⟨old, hold, rfl⟩ := List.mem_map.1 hrow
  rcases written_mem_or_eq rows old with hmem | ⟨heq, -⟩
  · exact hrows _ hmem
  · rw [heq]
    exact h ticket hticket heval old hold

/-- A ticket all of whose sections are written with a draft or an error has them recorded. -/
theorem recorded_putSections (hrows : ∀ r ∈ rows, r.Recorded)
    (hall : ∀ row ∈ db.sectionsOf ticketId, ∃ r ∈ rows, r.key = row.key) :
    ∀ row ∈ (db.putSections rows).sectionsOf ticketId, row.Recorded := by
  intro row hrow
  rw [sectionsOf_putSections] at hrow
  obtain ⟨old, hold, rfl⟩ := List.mem_map.1 hrow
  rcases written_mem_or_eq rows old with hmem | ⟨-, hne⟩
  · exact hrows _ hmem
  · obtain ⟨r, hr, hkey⟩ := hall old hold
    exact absurd hkey (hne r hr)

/-- Sections with new keys are added. -/
theorem addSections_eq_some (hnodup : (rows.map DepartmentSection.key).Nodup)
    (hfresh : ∀ row ∈ rows, ∀ r ∈ db.sections.rows, r.key ≠ row.key) :
    ∃ db', db.addSections rows = some db' ∧ db'.tickets = db.tickets ∧
      db'.sections.rows = db.sections.rows ++ rows := by
  induction rows generalizing db with
  | nil => exact ⟨db, rfl, rfl, (List.append_nil _).symm⟩
  | cons row rows ih =>
    rw [List.map_cons, List.nodup_cons] at hnodup
    have hrow : row.key ∉ db.sections.rows.map DepartmentSection.key := by
      intro hmem
      obtain ⟨r, hr, hkey⟩ := List.mem_map.1 hmem
      exact hfresh row List.mem_cons_self r hr hkey
    have hinsert : ∃ sections, db.sections.insert row = some sections ∧
        sections.rows = db.sections.rows ++ [row] := by
      unfold Table.insert
      rw [dif_neg hrow]
      exact ⟨_, rfl, rfl⟩
    obtain ⟨sections, hsome, hsections⟩ := hinsert
    have hnext : ∀ row' ∈ rows, ∀ r ∈ sections.rows, r.key ≠ row'.key := by
      intro row' hrow' r hr
      rw [hsections] at hr
      rcases List.mem_append.1 hr with hr | hr
      · exact hfresh row' (List.mem_cons_of_mem _ hrow') r hr
      · obtain rfl := List.mem_singleton.1 hr
        intro hkey
        exact hnodup.1 (hkey ▸ List.mem_map_of_mem hrow')
    obtain ⟨db', hdb', htickets, hrows⟩ := @ih { db with sections } hnodup.2 hnext
    refine ⟨db', ?_, htickets, ?_⟩
    · rw [RfpTables.addSections, hsome]
      exact hdb'
    · rw [hrows, hsections, List.append_assoc, List.singleton_append]

end RfpTables

end

/-! ### The repository -/

/-- How a statement fails. -/
inductive Fault
  /-- The process ends. -/
  | crash
  /-- An exception is raised. -/
  | raised
  deriving DecidableEq, Repr

/-- A program of statements on the tables. -/
abbrev RfpProgram (α : Type) := Tx Fault (Connection Fault RfpTables) α

namespace Repository

/-- `get`. -/
def get (ticketId : String) : RfpProgram (Option RfpTicket) :=
  select id fun db => db.tickets.lookup ticketId

/-- The rank of a department in the order of the values. -/
def rank : Department → ℕ
  | .lastmile => 0
  | .reverse => 1
  | .warehouse => 2

/-- `sections_for_ticket`. -/
def sectionsForTicket (ticketId : String) : RfpProgram (List DepartmentSection) :=
  select id fun db =>
    (db.sectionsOf ticketId).mergeSort fun a b => decide (rank a.departmentId ≤ rank b.departmentId)

/-- The flush of a loaded ticket. -/
def flushTicket (ticket : RfpTicket) : RfpProgram Unit :=
  query id fun db => .ok ((), db.putTicket ticket)

/-- The flush of the loaded sections that have changed. -/
def flushSections : List DepartmentSection → RfpProgram Unit
  | [] => pure ()
  | rows => query id fun db => .ok ((), db.putSections rows)

/-- The insertion of new sections. -/
def inserted (rows : List DepartmentSection) (db : RfpTables) : Except Fault (Unit × RfpTables) :=
  match db.addSections rows with
  | none => .error .raised
  | some db => .ok ((), db)

/-- The flush of new sections. -/
def insertSections : List DepartmentSection → RfpProgram Unit
  | [] => pure ()
  | rows => query id (inserted rows)

/-- `save`, in a session where `dirty` are the changed sections. -/
def save (ticket : RfpTicket) (dirty : List DepartmentSection) : RfpProgram Unit := do
  flushTicket ticket
  flushSections dirty
  commit id
  select id fun _ => ()

/-- `add_sections` of new sections. -/
def addSections (rows : List DepartmentSection) : RfpProgram Unit := do
  insertSections rows
  commit id

/-- `add_sections` of loaded sections. -/
def saveSections (rows : List DepartmentSection) : RfpProgram Unit := do
  flushSections rows
  commit id

end Repository

end Rfp

end TrackFlow
