import TrackFlow.Rfp.Tickets

/-!
# The background work of an RFP

`run_intake_for_ticket`: the outcome of the intake graph is applied to the ticket, its sections are
generated, and the approval threads are opened.  Every stage runs in sessions of its own; what a
stage raises is swallowed, and a crash ends all.

* `applyOutcome` : the ticket is saved, and then its sections are added.
* `runGenerationForTicket`, `startTicketApproval` : the later stages.
* `runIntakeForTicket` : the states that are committed.
* `all_complete_iff` : **when every committed state has all sections.**
* `drafts_recorded` : **an evaluated ticket has its drafts or errors recorded, in every run.**
-/

namespace TrackFlow

namespace Rfp

open Agents Tx Repository RfpTables

/-- What the work depends on. -/
structure Background where
  /-- What the models answer for a document; `none` if `run_intake` raises. -/
  answers : String → Option IntakeAnswers
  /-- What the iterations of a section bring. -/
  attempt : RfpTicket → DepartmentSection → ℕ → Attempt
  maxIterations : ℕ
  /-- `rag_config` and `settings` are given. -/
  ragConfig : Bool
  settings : Bool
  /-- The approval threads are opened without an exception. -/
  opened : Bool
  /-- The readings of the clock. -/
  clock : ℕ → ℕ

/-- Where the sessions fail, if they do. -/
structure Faults where
  intake : Option (ℕ × Fault)
  generation : Option (ℕ × Fault)
  approvalRead : Option (ℕ × Fault)
  approvalWrite : Option (ℕ × Fault)

/-- The ticket of a routed outcome. -/
def routedTicket (now : ℕ) (ticket : RfpTicket) (metadata : MetadataResult) : RfpTicket :=
  { ticket with
    updatedAt := now
    clientName := metadata.clientName
    clientCountry := metadata.clientCountry
    currency := currencyFor metadata.clientCountry
    servicesRequested := some metadata.servicesRequested
    monthlyVolume := metadata.monthlyVolume
    deadlineDays := metadata.deadlineDays
    budgetRange := metadata.budgetRange
    departmentsNeeded := some (planDepartments metadata.servicesRequested)
    status := .drafting }

/-- The sections of a routed outcome. -/
def newSections (now : ℕ) (ticketId : String) (metadata : MetadataResult)
    (departmentAspects : List (Department × List String)) : List DepartmentSection :=
  (planDepartments metadata.servicesRequested).map fun department =>
    ⟨ticketId, department, (departmentAspects.lookup department).getD [], none, none, 0, .pending,
      now⟩

/-- `_apply_outcome`. -/
def applyOutcome (now : ℕ) (ticket : RfpTicket) : IntakeResult → RfpProgram Unit
  | .discarded reason =>
    save { ticket with updatedAt := now, status := .discarded, discardReason := some reason } []
  | .error _ => save { ticket with updatedAt := now } []
  | .routed metadata departmentAspects => do
    save (routedTicket now ticket metadata) []
    Repository.addSections (newSections now ticket.id metadata departmentAspects)

namespace Background

variable (work : Background)

/-- The session of the intake: the outcome that it has applied. -/
def intakeSession (ticketId : String) : RfpProgram (Option IntakeResult) := do
  match ← Repository.get ticketId with
  | none => pure none
  | some ticket =>
    match work.answers (ticket.markdownText.getD "") with
    | none => raise .raised
    | some answers =>
      let outcome := (runIntake answers).1
      applyOutcome (work.clock 0) ticket outcome
      pure (some outcome)

/-- `_generate_one` for every section; `none` if an exception leaves one. -/
def generateAll (ticket : RfpTicket) (sections : List DepartmentSection) :
    Option (List DepartmentSection) :=
  sections.mapM fun row =>
    (generateOne work.maxIterations (work.attempt ticket row) row).map Prod.fst

/-- The session of `run_generation_for_ticket`. -/
def generationSession (ticketId : String) : RfpProgram Unit := do
  match ← Repository.get ticketId with
  | none => pure ()
  | some ticket =>
    if ticket.status ≠ .drafting then pure ()
    else
      let sections ← sectionsForTicket ticketId
      match work.generateAll ticket sections with
      | none => raise .raised
      | some generated =>
        save { ticket with status := .underEvaluation, updatedAt := work.clock 1 } generated
        saveSections (generated.map fun row => { row with updatedAt := work.clock 2 })

/-- The first session of `start_ticket_approval`: whether there are threads to open. -/
def approvalRead (ticketId : String) : RfpProgram Bool := do
  match ← Repository.get ticketId with
  | none => pure false
  | some ticket =>
    if ticket.status ≠ .underEvaluation then pure false
    else
      let _ ← sectionsForTicket ticketId
      pure true

/-- The second session of `start_ticket_approval`. -/
def approvalWrite (ticketId : String) : RfpProgram Unit := do
  match ← Repository.get ticketId with
  | none => pure ()
  | some ticket =>
    if ticket.status ≠ .underEvaluation then pure ()
    else save { ticket with status := .waitingForApproval, updatedAt := work.clock 3 } []

variable (faults : Faults) (ticketId : String)

/-- `start_ticket_approval`: the states that it commits. -/
def startTicketApproval (db : RfpTables) : List RfpTables :=
  match ((approvalRead ticketId).session faults.approvalRead db).1 with
  | .ok true =>
    if work.opened then ((work.approvalWrite ticketId).session faults.approvalWrite db).2 else []
  | _ => []

/-- `run_generation_for_ticket`, and what follows it: the states that are committed. -/
def runGenerationForTicket (db : RfpTables) : List RfpTables :=
  let (ended, states) := (work.generationSession ticketId).session faults.generation db
  match ended with
  | .error .crash => states
  | _ =>
    states ++
      if work.settings then work.startTicketApproval faults ticketId (states.getLastD db) else []

/-- `run_intake_for_ticket`: the states that are committed, the first one included. -/
def runIntakeForTicket (db : RfpTables) : List RfpTables :=
  let (ended, states) := (work.intakeSession ticketId).session faults.intake db
  match ended with
  | .ok (some (.routed _ _)) =>
    db :: states ++
      if work.ragConfig then work.runGenerationForTicket faults ticketId (states.getLastD db)
      else []
  | _ => db :: states

end Background

/-! ### What the statements commit -/

section

variable {db db' : RfpTables} {ticket : RfpTicket} {rows : List DepartmentSection}
  {ticketId : String}

/-- The statements of a flush. -/
def flushTrace : List DepartmentSection → List (Option RfpTables)
  | [] => []
  | _ :: _ => [none]

theorem reduceOption_flushTrace (rows : List DepartmentSection) :
    (flushTrace rows).reduceOption = [] := by
  cases rows <;> rfl

theorem does_flushSections (rows : List DepartmentSection) (db : RfpTables) :
    Does id (flushSections rows) db (flushTrace rows) (.ok ()) (db.putSections rows) := by
  cases rows with
  | nil =>
    rw [putSections_nil]
    exact .pure db ()
  | cons row rows =>
    exact Does.query (f := fun db : RfpTables => .ok ((), db.putSections (row :: rows))) rfl

/-- `save` commits the ticket and the changed sections at once. -/
theorem does_save (ticket : RfpTicket) (rows : List DepartmentSection) (db : RfpTables) :
    Does id (save ticket rows) db
      (none :: (flushTrace rows ++ [some ((db.putTicket ticket).putSections rows), none])) (.ok ())
      ((db.putTicket ticket).putSections rows) := by
  have hticket : Does id (flushTicket ticket) db [none] (.ok ()) (db.putTicket ticket) := .query rfl
  exact hticket.bind ((does_flushSections rows _).bind ((Does.commit _).bind (.select _ _)))

/-- `save` in a session without changed sections. -/
theorem does_save_nil (ticket : RfpTicket) (db : RfpTables) :
    Does id (save ticket []) db [none, some (db.putTicket ticket), none] (.ok ())
      (db.putTicket ticket) := by
  have h := does_save ticket [] db
  rwa [putSections_nil] at h

theorem does_saveSections (rows : List DepartmentSection) (db : RfpTables) :
    Does id (saveSections rows) db (flushTrace rows ++ [some (db.putSections rows)]) (.ok ())
      (db.putSections rows) :=
  (does_flushSections rows db).bind (.commit _)

theorem does_addSections (h : db.addSections rows = some db') :
    Does id (Repository.addSections rows) db (flushTrace rows ++ [some db']) (.ok ()) db' := by
  have hinsert : Does id (insertSections rows) db (flushTrace rows) (.ok ()) db' := by
    cases rows with
    | nil =>
      cases h
      exact .pure db ()
    | cons row rows =>
      have hinserted : inserted (row :: rows) db = .ok ((), db') := by
        unfold inserted
        rw [h]
      exact Does.query (f := inserted (row :: rows)) hinserted
  exact hinsert.bind (.commit db')

theorem does_get_bind {α : Type} {f : Option RfpTicket → RfpProgram α}
    {t : List (Option RfpTables)} {r : Except Fault α} {w : RfpTables}
    (h : Does id (f (db.tickets.lookup ticketId)) db t r w) :
    Does id (Repository.get ticketId >>= f) db (none :: t) r w :=
  (Does.select _ db).bind h

/-! ### What the later stages keep -/

/-- What holds of the sections of `db` holds of those of `db'`. -/
structure Keeps (db db' : RfpTables) : Prop where
  sections : db.SectionsMatch → db'.SectionsMatch
  drafts : db.DraftsRecorded → db'.DraftsRecorded

theorem Keeps.refl (db : RfpTables) : Keeps db db := ⟨id, id⟩

theorem Keeps.trans {db'' : RfpTables} (h : Keeps db db') (h' : Keeps db' db'') : Keeps db db'' :=
  ⟨h'.sections ∘ h.sections, h'.drafts ∘ h.drafts⟩

theorem keeps_getLastD {states : List RfpTables} (h : ∀ s ∈ states, Keeps db s) :
    Keeps db (states.getLastD db) := by
  rcases List.eq_nil_or_concat' states with rfl | ⟨rest, last, rfl⟩
  · exact .refl db
  · rw [List.getLastD_concat]
    exact h last (List.mem_append_right _ (List.mem_singleton_self _))

variable {work : Background} {faults : Faults} {fault : Option (ℕ × Fault)}

theorem mem_of_lookup (h : db.tickets.lookup ticketId = some ticket) :
    ticket ∈ db.tickets.rows ∧ ticket.id = ticketId :=
  Table.lookup_eq_some_iff.1 h

/-- Every generated section has a draft or an error, and every section is generated. -/
theorem generateAll_spec {sections generated : List DepartmentSection}
    (h : work.generateAll ticket sections = some generated) :
    (∀ r ∈ generated, r.Recorded) ∧ ∀ row ∈ sections, ∃ r ∈ generated, r.key = row.key := by
  constructor
  · intro r hr
    obtain ⟨row, -, hrow⟩ := (mem_of_mapM h r).1 hr
    obtain ⟨⟨row', step, calls⟩, hone, rfl⟩ := Option.map_eq_some_iff.1 hrow
    exact recorded_of_generateOne hone
  · intro row hrow
    have hmem := List.mem_map_of_mem (f := fun row =>
      (generateOne work.maxIterations (work.attempt ticket row) row).map Prod.fst) hrow
    rw [mapM_eq_some_iff.1 h] at hmem
    obtain ⟨r, hr, hsome⟩ := List.mem_map.1 hmem
    obtain ⟨⟨row', step, calls⟩, hone, rfl⟩ := Option.map_eq_some_iff.1 hsome.symm
    obtain ⟨hid, hdepartment⟩ := key_of_generateOne hone
    exact ⟨row', hr, Prod.ext hid hdepartment⟩

/-- The commit of the drafts keeps the sections, and records all drafts of the ticket. -/
theorem keeps_generated {generated : List DepartmentSection} {now : ℕ}
    (hticket : db.tickets.lookup ticketId = some ticket) (hstatus : ticket.status = .drafting)
    (hrows : ∀ r ∈ generated, r.Recorded)
    (hall : ∀ row ∈ db.sectionsOf ticketId, ∃ r ∈ generated, r.key = row.key) :
    Keeps db ((db.putTicket { ticket with
      status := .underEvaluation, updatedAt := now }).putSections generated) := by
  obtain ⟨hmem, rfl⟩ := mem_of_lookup hticket
  refine ⟨fun h => SectionsMatch.putSections (h.putTicket fun _ => h ticket hmem (.inl hstatus)),
    fun h => ?_⟩
  exact forall_putTicket (fun row hrow _ => h.putSections hrows row hrow) fun _ =>
    recorded_putSections hrows hall

/-- The session of the generation commits nothing but what keeps the sections. -/
theorem generationSession_spec (work : Background) (ticketId : String) (db : RfpTables) :
    ∃ t r w, Does id (work.generationSession ticketId) db t r w ∧
      ∀ s ∈ t.reduceOption, Keeps db s := by
  have hnothing (n : ℕ) : ∀ s ∈ (List.replicate n (none : Option RfpTables)).reduceOption,
      Keeps db s := by
    intro s hs
    simp [List.reduceOption] at hs
  unfold Background.generationSession
  cases hticket : db.tickets.lookup ticketId with
  | none =>
    refine ⟨[none], .ok (), db, does_get_bind ?_, hnothing 1⟩
    rw [hticket]
    exact .pure db ()
  | some ticket =>
    by_cases hstatus : ticket.status = .drafting
    · set sections := (db.sectionsOf ticketId).mergeSort fun a b =>
        decide (rank a.departmentId ≤ rank b.departmentId) with hsections
      cases hgenerate : work.generateAll ticket sections with
      | none =>
        refine ⟨[none, none], .error .raised, db, does_get_bind ?_, hnothing 2⟩
        rw [hticket]
        dsimp only
        rw [if_neg (not_not.2 hstatus)]
        refine (Does.select _ db).bind ?_
        rw [← hsections, hgenerate]
        exact .raise db Fault.raised
      | some generated =>
        set evaluated : RfpTicket :=
          { ticket with status := .underEvaluation, updatedAt := work.clock 1 }
        set db₁ := (db.putTicket evaluated).putSections generated
        set dated := generated.map fun row => { row with updatedAt := work.clock 2 }
        refine ⟨none :: (none :: ((none :: (flushTrace generated ++ [some db₁, none])) ++
          (flushTrace dated ++ [some (db₁.putSections dated)]))), .ok (), db₁.putSections dated,
          does_get_bind ?_, ?_⟩
        · rw [hticket]
          dsimp only
          rw [if_neg (not_not.2 hstatus)]
          refine (Does.select _ db).bind ?_
          rw [← hsections, hgenerate]
          exact (does_save evaluated generated db).bind (does_saveSections dated db₁)
        · obtain ⟨hrows, hall⟩ := generateAll_spec hgenerate
          have hfirst : Keeps db db₁ := keeps_generated hticket hstatus hrows fun row hrow =>
            hall row (List.mem_mergeSort.2 hrow)
          have hdated : ∀ r ∈ dated, r.Recorded := by
            intro r hr
            obtain ⟨row, hrow, rfl⟩ := List.mem_map.1 hr
            exact hrows row hrow
          have hsecond : Keeps db (db₁.putSections dated) :=
            hfirst.trans ⟨fun h => h.putSections, fun h => h.putSections hdated⟩
          intro s hs
          simp only [List.reduceOption_cons_of_none, List.reduceOption_append,
            reduceOption_flushTrace, List.reduceOption_cons_of_some, List.reduceOption_nil,
            List.nil_append, List.singleton_append, List.mem_cons, List.not_mem_nil, or_false] at hs
          rcases hs with rfl | rfl
          · exact hfirst
          · exact hsecond
    · refine ⟨[none], .ok (), db, does_get_bind ?_, hnothing 1⟩
      rw [hticket]
      dsimp only
      rw [if_pos hstatus]
      exact .pure db ()

/-- The session that moves the ticket on commits nothing but what keeps the sections. -/
theorem approvalWrite_spec (work : Background) (ticketId : String) (db : RfpTables) :
    ∃ t r w, Does id (work.approvalWrite ticketId) db t r w ∧ ∀ s ∈ t.reduceOption, Keeps db s := by
  have hnothing : ∀ s ∈ [(none : Option RfpTables)].reduceOption, Keeps db s :=
    fun s hs => nomatch hs
  unfold Background.approvalWrite
  cases hticket : db.tickets.lookup ticketId with
  | none =>
    refine ⟨[none], .ok (), db, does_get_bind ?_, hnothing⟩
    rw [hticket]
    exact .pure db ()
  | some ticket =>
    by_cases hstatus : ticket.status = .underEvaluation
    · set waiting : RfpTicket :=
        { ticket with status := .waitingForApproval, updatedAt := work.clock 3 }
      refine ⟨none :: [none, some (db.putTicket waiting), none], .ok (), db.putTicket waiting,
        does_get_bind ?_, ?_⟩
      · rw [hticket]
        dsimp only
        rw [if_neg (not_not.2 hstatus)]
        exact does_save_nil waiting db
      · intro s hs
        obtain rfl : s = db.putTicket waiting := by simpa [List.reduceOption] using hs
        obtain ⟨hmem, -⟩ := mem_of_lookup hticket
        exact ⟨fun h => h.putTicket fun _ => h ticket hmem (.inr (.inl hstatus)),
          fun h => h.putTicket fun _ => h ticket hmem (.inl hstatus)⟩
    · refine ⟨[none], .ok (), db, does_get_bind ?_, hnothing⟩
      rw [hticket]
      dsimp only
      rw [if_pos hstatus]
      exact .pure db ()

theorem keeps_startTicketApproval :
    ∀ s ∈ work.startTicketApproval faults ticketId db, Keeps db s := by
  obtain ⟨t, r, w, hdoes, hkeeps⟩ := approvalWrite_spec work ticketId db
  intro s hs
  unfold Background.startTicketApproval at hs
  split at hs
  · split_ifs at hs
    · exact hkeeps s (hdoes.mem_session hs)
    · cases hs
  · cases hs

/-- The later stages commit nothing but what keeps the sections. -/
theorem keeps_runGenerationForTicket :
    ∀ s ∈ work.runGenerationForTicket faults ticketId db, Keeps db s := by
  obtain ⟨t, r, w, hdoes, hkeeps⟩ := generationSession_spec work ticketId db
  have hstates : ∀ s ∈ ((work.generationSession ticketId).session faults.generation db).2,
      Keeps db s := fun s hs => hkeeps s (hdoes.mem_session hs)
  intro s hs
  unfold Background.runGenerationForTicket at hs
  dsimp only at hs
  split at hs
  · exact hstates s hs
  · rcases List.mem_append.1 hs with hs | hs
    · exact hstates s hs
    · split_ifs at hs
      · exact (keeps_getLastD hstates).trans (keeps_startTicketApproval s hs)
      · cases hs

/-! ### What the intake commits -/

/-- The ticket as `create_from_upload` has added it. -/
structure Uploaded (db : RfpTables) (ticketId : String) (ticket : RfpTicket) : Prop where
  found : db.tickets.lookup ticketId = some ticket
  analyzing : ticket.status = .analyzing
  sections : db.sectionsOf ticketId = []

/-- The outcome of the intake graph for a ticket; `none` if it raises. -/
def Background.outcome (work : Background) (ticket : RfpTicket) : Option IntakeResult :=
  (work.answers (ticket.markdownText.getD "")).map fun answers => (runIntake answers).1

/-- The session runs to the end of what it applies. -/
theorem does_intakeSession {result : IntakeResult} {t : List (Option RfpTables)}
    (hticket : db.tickets.lookup ticketId = some ticket)
    (hresult : work.outcome ticket = some result)
    (h : Does id (applyOutcome (work.clock 0) ticket result) db t (.ok ()) db') :
    Does id (work.intakeSession ticketId) db (none :: (t ++ [])) (.ok (some result)) db' := by
  obtain ⟨answers, hanswers, rfl⟩ := Option.map_eq_some_iff.1 hresult
  unfold Background.intakeSession
  refine does_get_bind ?_
  rw [hticket]
  dsimp only
  rw [hanswers]
  exact h.bind (.pure db' _)

theorem does_intakeSession_raise (hticket : db.tickets.lookup ticketId = some ticket)
    (hresult : work.outcome ticket = none) :
    Does id (work.intakeSession ticketId) db [none] (.error .raised) db := by
  have hanswers := Option.map_eq_none_iff.1 hresult
  unfold Background.intakeSession
  refine does_get_bind ?_
  rw [hticket]
  dsimp only
  rw [hanswers]
  exact .raise db Fault.raised

/-- The states of a routed outcome: the ticket is drafting without sections, and then has them. -/
theorem routed_spec {metadata : MetadataResult} {aspects : List (Department × List String)}
    {now : ℕ} (h : Uploaded db ticketId ticket) :
    ∃ full, Does id (applyOutcome now ticket (.routed metadata aspects)) db
        ([none, some (db.putTicket (routedTicket now ticket metadata)), none] ++
          (flushTrace (newSections now ticket.id metadata aspects) ++ [some full])) (.ok ()) full ∧
      full.tickets = (db.putTicket (routedTicket now ticket metadata)).tickets ∧
      full.sections.rows = db.sections.rows ++ newSections now ticket.id metadata aspects := by
  obtain ⟨-, rfl⟩ := mem_of_lookup h.found
  set drafted := db.putTicket (routedTicket now ticket metadata)
  set rows := newSections now ticket.id metadata aspects with hrows
  have hkeys : rows.map DepartmentSection.key =
      (planDepartments metadata.servicesRequested).map (Prod.mk ticket.id) := by
    rw [hrows, newSections, List.map_map]
    rfl
  have hnodup : (rows.map DepartmentSection.key).Nodup := by
    rw [hkeys]
    exact (nodup_planDepartments _).map fun _ _ he => congrArg Prod.snd he
  have hfresh : ∀ row ∈ rows, ∀ r ∈ drafted.sections.rows, r.key ≠ row.key := by
    intro row hrow r hr hkey
    have hmem : row.key ∈ rows.map DepartmentSection.key := List.mem_map_of_mem hrow
    rw [hkeys] at hmem
    obtain ⟨department, -, hdepartment⟩ := List.mem_map.1 hmem
    have hid : r.ticketId = ticket.id := congrArg Prod.fst (hkey.trans hdepartment.symm)
    have hnone : r ∈ db.sectionsOf ticket.id := List.mem_filter.2 ⟨hr, decide_eq_true hid⟩
    rw [h.sections] at hnone
    cases hnone
  obtain ⟨full, hfull, htickets, hsections⟩ := addSections_eq_some hnodup hfresh
  refine ⟨full, ?_, htickets, hsections⟩
  exact (does_save_nil _ db).bind (does_addSections hfull)

/-- A ticket that is drafting without sections is complete only if it needs no department. -/
theorem sectionsMatch_drafted_iff {metadata : MetadataResult} {now : ℕ}
    (hdb : db.SectionsMatch) (h : Uploaded db ticketId ticket) :
    (db.putTicket (routedTicket now ticket metadata)).SectionsMatch ↔
      planDepartments metadata.servicesRequested = [] := by
  obtain ⟨hmem, rfl⟩ := mem_of_lookup h.found
  constructor
  · intro hmatch
    have hrouted : routedTicket now ticket metadata ∈
        (db.putTicket (routedTicket now ticket metadata)).tickets.rows :=
      List.mem_map.2 ⟨ticket, hmem, if_pos rfl⟩
    have hperm := hmatch _ hrouted (.inl rfl)
    rw [sectionsOf_putTicket] at hperm
    change ((db.sectionsOf ticket.id).map _).Perm (planDepartments metadata.servicesRequested)
      at hperm
    rw [h.sections] at hperm
    exact hperm.nil_eq.symm
  · intro hnone
    refine hdb.putTicket fun _ => ?_
    change ((db.sectionsOf ticket.id).map _).Perm (planDepartments metadata.servicesRequested)
    rw [h.sections, hnone]
    exact .nil

/-- A routed ticket with its sections is complete. -/
theorem complete_full {full : RfpTables} {metadata : MetadataResult}
    {aspects : List (Department × List String)} {now : ℕ} (h : Uploaded db ticketId ticket)
    (htickets : full.tickets = (db.putTicket (routedTicket now ticket metadata)).tickets)
    (hsections : full.sections.rows =
      db.sections.rows ++ newSections now ticket.id metadata aspects) :
    Keeps db full := by
  obtain ⟨hmem, rfl⟩ := mem_of_lookup h.found
  have hnew (id : String) : full.sectionsOf id = db.sectionsOf id ++
      if id = ticket.id then newSections now ticket.id metadata aspects else [] := by
    unfold sectionsOf
    rw [hsections, List.filter_append]
    congr 1
    have hid : ∀ row ∈ newSections now ticket.id metadata aspects, row.ticketId = ticket.id := by
      intro row hrow
      obtain ⟨department, -, rfl⟩ := List.mem_map.1 hrow
      rfl
    split_ifs with he
    · exact List.filter_eq_self.2 fun row hrow => decide_eq_true ((hid row hrow).trans he.symm)
    · refine List.filter_eq_nil_iff.2 fun row hrow hrow' => he ?_
      exact (of_decide_eq_true hrow').symm.trans (hid row hrow)
  have hother (row : RfpTicket) (hne : row.id ≠ ticket.id) :
      full.sectionsOf row.id = db.sectionsOf row.id := by
    rw [hnew, if_neg hne, List.append_nil]
  constructor
  · intro hdb
    unfold SectionsMatch
    rw [htickets]
    refine forall_putTicket (fun row hrow hne hpast => ?_) fun _ => ?_
    · rw [hother row hne]
      exact hdb row hrow hpast
    · change ((full.sectionsOf ticket.id).map _).Perm (planDepartments metadata.servicesRequested)
      rw [hnew, if_pos rfl, h.sections, List.nil_append, newSections, List.map_map]
      exact .of_eq (List.map_id _)
  · intro hdb
    unfold DraftsRecorded
    rw [htickets]
    refine forall_putTicket (fun row hrow hne heval => ?_) fun heval => ?_
    · rw [hother row hne]
      exact hdb row hrow heval
    · rcases heval with hs | hs | hs <;> cases hs

/-- An outcome is applied in halves: it needs sections, and the commit of the ticket, the third
statement of the session, goes through. -/
def Background.HalfApplied (work : Background) (faults : Faults) (ticket : RfpTicket) : Prop :=
  (∃ result, work.outcome ticket = some result ∧ result.departments ≠ []) ∧
    ∀ k e, faults.intake = some (k, e) → 2 < k

/-- A committed state is the first one, one of the intake, or one of the stages that follow it. -/
theorem mem_runIntakeForTicket {s : RfpTables}
    (hs : s ∈ work.runIntakeForTicket faults ticketId db) :
    s = db ∨ s ∈ ((work.intakeSession ticketId).session faults.intake db).2 ∨
      ∃ metadata aspects, ((work.intakeSession ticketId).session faults.intake db).1 =
          .ok (some (.routed metadata aspects)) ∧
        s ∈ work.runGenerationForTicket faults ticketId
          (((work.intakeSession ticketId).session faults.intake db).2.getLastD db) := by
  unfold Background.runIntakeForTicket at hs
  dsimp only at hs
  split at hs
  · rename_i metadata aspects hended
    rcases List.mem_append.1 hs with hs | hs
    · rcases List.mem_cons.1 hs with rfl | hs
      · exact .inl rfl
      · exact .inr (.inl hs)
    · split_ifs at hs
      · exact .inr (.inr ⟨metadata, aspects, hended, hs⟩)
      · cases hs
  · rcases List.mem_cons.1 hs with rfl | hs
    · exact .inl rfl
    · exact .inr (.inl hs)

theorem mem_run_of_mem_session {s : RfpTables}
    (hs : s ∈ ((work.intakeSession ticketId).session faults.intake db).2) :
    s ∈ work.runIntakeForTicket faults ticketId db := by
  unfold Background.runIntakeForTicket
  dsimp only
  split
  · exact List.mem_append_left _ (List.mem_cons_of_mem _ hs)
  · exact List.mem_cons_of_mem _ hs

/-- An outcome that is not routed changes the ticket alone. -/
theorem keeps_of_not_routed (h : Uploaded db ticketId ticket)
    (hrouted : ∀ metadata aspects, work.outcome ticket ≠ some (.routed metadata aspects)) :
    ∀ s ∈ work.runIntakeForTicket faults ticketId db, Keeps db s := by
  -- a session with one commit at most, and no routed outcome
  have hrun {t : List (Option RfpTables)} {r : Except Fault (Option IntakeResult)} {w : RfpTables}
      (hdoes : Does id (work.intakeSession ticketId) db t r w)
      (hkeeps : ∀ s ∈ t.reduceOption, Keeps db s)
      (hr : ∀ metadata aspects, r ≠ .ok (some (.routed metadata aspects))) :
      ∀ s ∈ work.runIntakeForTicket faults ticketId db, Keeps db s := by
    intro s hs
    rcases mem_runIntakeForTicket hs with rfl | hs | ⟨metadata, aspects, hended, -⟩
    · exact .refl s
    · exact hkeeps s (hdoes.mem_session hs)
    · exact absurd (hdoes.session_ok hended).1 (hr metadata aspects)
  -- a result that saves the ticket in a status before or beside the intake
  have hsave {result : IntakeResult} {saved : RfpTicket}
      (hresult : work.outcome ticket = some result)
      (happly : applyOutcome (work.clock 0) ticket result = save saved [])
      (hpast : ¬saved.PastIntake) :
      ∀ s ∈ work.runIntakeForTicket faults ticketId db, Keeps db s := by
    have hdoes := does_intakeSession h.found hresult (by
      rw [happly]
      exact does_save_nil saved db)
    refine hrun hdoes (fun s hs => ?_) fun metadata aspects he => ?_
    · obtain rfl : s = db.putTicket saved := by simpa [List.reduceOption] using hs
      exact ⟨fun hdb => hdb.putTicket fun hp => absurd hp hpast,
        fun hdb => hdb.putTicket fun hp => absurd (.inr hp) hpast⟩
    · rw [hresult] at hrouted
      exact hrouted metadata aspects (Except.ok.inj he)
  cases hresult : work.outcome ticket with
  | none =>
    exact hrun (does_intakeSession_raise h.found hresult) (fun s hs => nomatch hs)
      fun metadata aspects he => nomatch he
  | some result =>
    cases result with
    | discarded reason =>
      refine hsave hresult rfl ?_
      rintro (hs | hs | hs | hs) <;> cases hs
    | error detail =>
      refine hsave hresult rfl ?_
      rintro (hs | hs | hs | hs) <;> exact nomatch h.analyzing.symm.trans hs
    | routed metadata aspects => exact absurd hresult (hrouted metadata aspects)

/-- What a routed outcome commits: the drafting ticket without sections, then the full one, and
then the stages that follow it. -/
theorem routed_run_spec {metadata : MetadataResult} {aspects : List (Department × List String)}
    (h : Uploaded db ticketId ticket)
    (hresult : work.outcome ticket = some (.routed metadata aspects)) :
    let drafted := db.putTicket (routedTicket (work.clock 0) ticket metadata)
    (∀ s ∈ work.runIntakeForTicket faults ticketId db, Keeps db s ∨
      (s = drafted ∧ ∀ k e, faults.intake = some (k, e) → 2 < k)) ∧
    ((∀ k e, faults.intake = some (k, e) → 2 < k) →
      drafted ∈ work.runIntakeForTicket faults ticketId db) := by
  intro drafted
  obtain ⟨full, happly, htickets, hsections⟩ :=
    routed_spec h
  have hfull : Keeps db full := complete_full h htickets hsections
  have hdoes := does_intakeSession h.found hresult happly
  set rest : List (Option RfpTables) :=
    none :: (flushTrace (newSections (work.clock 0) ticket.id metadata aspects) ++
      [some full] ++ [])
  have hrest : rest.reduceOption = [full] := by
    simp [rest, reduceOption_flushTrace, List.reduceOption_append]
  change Does id _ _ (none :: none :: some drafted :: rest) _ _ at hdoes
  have hall : (none :: none :: some drafted :: rest).reduceOption = [drafted, full] := by
    rw [List.reduceOption_cons_of_none, List.reduceOption_cons_of_none,
      List.reduceOption_cons_of_some, hrest]
  set session := (work.intakeSession ticketId).session faults.intake db with hsession
  -- the drafting ticket is committed unless the first three statements fail
  have hstates : ((∀ k e, faults.intake = some (k, e) → 2 < k) ∧
      ∃ later, session.2 = drafted :: later ∧ ∀ s ∈ later, s = full) ∨
      (¬(∀ k e, faults.intake = some (k, e) → 2 < k) ∧ session.2 = []) := by
    rcases hdoes.session_cases faults.intake with ⟨hclear, heq⟩ | ⟨k, e, hk, -, heq⟩
    · refine .inl ⟨fun k e hk => ?_, [full], by rw [hsession, heq, hall], by simp⟩
      have hle := hclear k e hk
      simp only [List.length_cons] at hle
      omega
    · rcases k with _ | _ | _ | k
      · exact .inr ⟨fun hgo => absurd (hgo 0 e hk) (by omega), by rw [hsession, heq]; rfl⟩
      · exact .inr ⟨fun hgo => absurd (hgo 1 e hk) (by omega), by rw [hsession, heq]; rfl⟩
      · exact .inr ⟨fun hgo => absurd (hgo 2 e hk) (by omega), by rw [hsession, heq]; rfl⟩
      · refine .inl ⟨fun k' e' hk' => ?_, (rest.take k).reduceOption,
          by rw [hsession, heq]; rfl, ?_⟩
        · rw [hk] at hk'
          cases hk'
          omega
        · intro s hs
          have hmem : s ∈ rest.reduceOption := ((List.take_sublist k rest).filterMap id).subset hs
          rw [hrest] at hmem
          exact List.mem_singleton.1 hmem
  constructor
  · intro s hs
    rcases mem_runIntakeForTicket hs with rfl | hs | ⟨_, _, hended, hs⟩
    · exact .inl (.refl s)
    · rcases hstates with ⟨hgo, later, heq, hlater⟩ | ⟨-, heq⟩
      · rw [← hsession, heq] at hs
        rcases List.mem_cons.1 hs with rfl | hs
        · exact .inr ⟨rfl, hgo⟩
        · exact .inl (hlater s hs ▸ hfull)
      · rw [← hsession, heq] at hs
        cases hs
    · rw [(hdoes.session_ok hended).2, hall] at hs
      exact .inl (hfull.trans (keeps_runGenerationForTicket s hs))
  · intro hgo
    refine mem_run_of_mem_session ?_
    rcases hstates with ⟨-, later, heq, -⟩ | ⟨hnot, -⟩
    · rw [← hsession, heq]
      exact List.mem_cons_self
    · exact absurd hgo hnot

/-- **Drafts or errors are recorded.**  In every committed state of every run, each section of a
ticket that is under evaluation or later has its draft or its generation error recorded. -/
theorem drafts_recorded (h : Uploaded db ticketId ticket) (hdrafts : db.DraftsRecorded) :
    ∀ s ∈ work.runIntakeForTicket faults ticketId db, s.DraftsRecorded := by
  intro s hs
  by_cases hrouted : ∃ metadata aspects, work.outcome ticket = some (.routed metadata aspects)
  · obtain ⟨metadata, aspects, hresult⟩ := hrouted
    rcases (routed_run_spec h hresult).1 s hs with hkeeps | ⟨rfl, -⟩
    · exact hkeeps.drafts hdrafts
    · refine hdrafts.putTicket fun heval => ?_
      rcases heval with he | he | he <;> cases he
  · push Not at hrouted
    exact (keeps_of_not_routed h hrouted s hs).drafts hdrafts

/-- **All sections, in every committed state.**  Every state that the background work of an
uploaded ticket commits has one section for each department of every ticket past its intake, and
the drafts or errors of every evaluated ticket, if and only if the outcome is not applied in
halves. -/
theorem all_complete_iff (h : Uploaded db ticketId ticket) (hsections : db.SectionsMatch)
    (hdrafts : db.DraftsRecorded) :
    (∀ s ∈ work.runIntakeForTicket faults ticketId db, s.SectionsMatch ∧ s.DraftsRecorded) ↔
      ¬work.HalfApplied faults ticket := by
  constructor
  · rintro hall ⟨⟨result, hresult, hdepartments⟩, hgo⟩
    cases result with
    | discarded reason => exact hdepartments rfl
    | error detail => exact hdepartments rfl
    | routed metadata aspects =>
      have hmem := (routed_run_spec h hresult).2 hgo
      exact hdepartments ((sectionsMatch_drafted_iff hsections h).1 (hall _ hmem).1)
  · intro hnot s hs
    refine ⟨?_, drafts_recorded h hdrafts s hs⟩
    by_cases hrouted : ∃ metadata aspects, work.outcome ticket = some (.routed metadata aspects)
    · obtain ⟨metadata, aspects, hresult⟩ := hrouted
      rcases (routed_run_spec h hresult).1 s hs with hkeeps | ⟨rfl, hgo⟩
      · exact hkeeps.sections hsections
      · refine (sectionsMatch_drafted_iff hsections h).2 (Decidable.byContradiction fun hne => ?_)
        exact hnot ⟨⟨_, hresult, hne⟩, hgo⟩
    · push Not at hrouted
      exact (keeps_of_not_routed h hrouted s hs).sections hsections

end

/-! ### A crash between the two commits -/

/-- An uploaded ticket. -/
def uploadedTicket : RfpTicket :=
  ⟨"t", .analyzing, none, none, none, none, none, none, none, none, some "rfp", none, 0⟩

/-- The tables behind its upload. -/
def uploadedTables : RfpTables := ⟨⟨[uploadedTicket], by decide⟩, .empty⟩

/-- Models that take the document for an RFP of the given services. -/
def workFor (services : List ServiceTag) : Background where
  answers _ := some ⟨.parsed ⟨true, "rfp"⟩ none,
    .parsed ⟨some "client", some .US, services, some 100, none, none⟩ none,
    fun _ => .parsed ["speed"] none⟩
  attempt _ _ _ := .drafted "draft" none ⟨true, []⟩
  maxIterations := 2
  ragConfig := true
  settings := true
  opened := true
  clock n := n + 1

/-- The process ends before the second commit of the intake. -/
def crashBeforeSections : Faults := ⟨some (5, .crash), none, none, none⟩

theorem uploaded_uploadedTables : Uploaded uploadedTables "t" uploadedTicket :=
  ⟨by decide, rfl, rfl⟩

/-- The ticket of a warehousing RFP is left drafting, with no section at all. -/
theorem drafting_without_sections :
    ∃ s ∈ (workFor [.warehousing]).runIntakeForTicket crashBeforeSections "t" uploadedTables,
      s.tickets.rows.map RfpTicket.status = [.drafting] ∧ s.sections.rows = [] ∧
        ¬s.SectionsMatch := by
  refine ⟨_, List.mem_of_getLast? (a := _) rfl, ?_⟩
  decide

/-- An RFP of no service is complete in every committed state. -/
theorem all_complete_without_services :
    (workFor []).runIntakeForTicket crashBeforeSections "t" uploadedTables ≠ [] ∧
      ∀ s ∈ (workFor []).runIntakeForTicket crashBeforeSections "t" uploadedTables,
        s.SectionsMatch ∧ s.DraftsRecorded := by
  refine ⟨by decide, (all_complete_iff uploaded_uploadedTables (by decide) (by decide)).2 ?_⟩
  rintro ⟨⟨result, hresult, hdepartments⟩, -⟩
  cases hresult
  exact hdepartments rfl

end Rfp

end TrackFlow
