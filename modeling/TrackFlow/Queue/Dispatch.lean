import TrackFlow.Queue.ManualRequests
import TrackFlow.Reporting.Schedule

/-!
# The dispatcher enqueues every slot once

Any number of dispatchers tick at any times; each tick asks for the run of the slot that is current.
The requests are those of `Queue.Enqueue`, beside workers and the other requests.

* `dispatchRequest` : what a tick asks for; `dispatchRequest_eq_some_iff` : which ticks ask for it.
* `Exclusive` : `uq_pipeline_runs_scheduled_date` and `uq_pipeline_runs_scheduled_for`.
* `scheduling` : the assertion about one session.
* `slot_is_enqueued_once` : **a slot has one run as soon as one tick in its window has returned, and
  no run without a tick in its window.**
-/

namespace TrackFlow

namespace Queue

open RowLock

variable {β : Type*}

/-! ## Scheduled runs -/

/-- A scheduled run of this pipeline, with the columns of its request. -/
structure Requests.Scheduled (db : Requests β) (r : PipelineRun) (c : RunRequest) : Prop where
  mem : r ∈ db.queue.runs.rows
  pipelineName : r.pipelineName = pipelineName
  triggerType : r.triggerType = .scheduled
  columns : db.requests.lookup r.id = some c

/-- The columns have the business date or the slot. -/
def RunRequest.Meets (c : RunRequest) (businessDate scheduledFor : Option ℕ) : Prop :=
  businessDate.isSome = true ∧ c.scheduledBusinessDate = businessDate ∨
    scheduledFor.isSome = true ∧ c.scheduledFor = scheduledFor

/-- The index entries of a business date and of a slot. -/
def slotEntries (businessDate scheduledFor : Option ℕ) : List EntryKey :=
  businessDate.toList.map .scheduledDate ++ scheduledFor.toList.map .scheduledFor

/-- No two scheduled runs share a date or a slot, and each is one that was asked for. -/
structure Exclusive (Q : ScheduledRequest → Prop) (db : Requests β) : Prop where
  eq : ∀ {r c r' c'}, db.Scheduled r c → db.Scheduled r' c' →
    c'.Meets c.scheduledBusinessDate c.scheduledFor → r = r'
  asked : ∀ {r c}, db.Scheduled r c →
    ∃ q, Q q ∧ c.scheduledBusinessDate = q.businessDate ∧ c.scheduledFor = q.scheduledFor

/-- A scheduled run that a session inserts: its entries are locked, and free. -/
structure Slotted (Q : ScheduledRequest → Prop) (columns : RunRequest) (held : EntryKey → Prop)
    (db : Requests β) : Prop where
  locked : ∀ e ∈ slotEntries columns.scheduledBusinessDate columns.scheduledFor, held e
  free : db.hasSlot columns.scheduledBusinessDate columns.scheduledFor = false
  asked : ∃ q, Q q ∧ columns.scheduledBusinessDate = q.businessDate ∧
    columns.scheduledFor = q.scheduledFor

/-- The writes of a session, when every scheduled run that it inserts has free entries. -/
structure Enters (Q : ScheduledRequest → Prop) (ws : List (RequestWrite β))
    (held : EntryKey → Prop) (db : Requests β) : Prop where
  written : Written ws held db
  slotted : ∀ run columns, RequestWrite.insertRun run columns ∈ ws →
    run.triggerType = .scheduled → Slotted Q columns held db

section Writes

variable {Q : ScheduledRequest → Prop} {db db' : Requests β} {ws : List (RequestWrite β)}
  {held held' : EntryKey → Prop} {r r' run : PipelineRun} {c c' columns : RunRequest}
  {businessDate scheduledFor : Option ℕ}

theorem Requests.hasSlot_iff : db.hasSlot businessDate scheduledFor = true ↔
    ∃ r c, db.Scheduled r c ∧ c.Meets businessDate scheduledFor := by
  simp only [Requests.hasSlot, List.any_eq_true, Bool.and_eq_true, decide_eq_true_eq,
    Option.any_eq_true, Bool.or_eq_true]
  constructor
  · rintro ⟨r, hr, ⟨hname, ht⟩, c, hc, hmeets⟩
    exact ⟨r, c, ⟨hr, hname, ht, hc⟩, hmeets⟩
  · rintro ⟨r, c, h, hmeets⟩
    exact ⟨r, h.mem, ⟨h.pipelineName, h.triggerType⟩, c, h.columns, hmeets⟩

theorem Requests.hasSlot_eq_false_iff : db.hasSlot businessDate scheduledFor = false ↔
    ∀ r c, db.Scheduled r c → ¬c.Meets businessDate scheduledFor := by
  rw [← Bool.not_eq_true, Requests.hasSlot_iff]
  push Not
  rfl

/-- Columns that meet a request have one of its entries. -/
theorem RunRequest.Meets.exists_entry (h : c.Meets businessDate scheduledFor) :
    ∃ e ∈ slotEntries businessDate scheduledFor,
      e ∈ slotEntries c.scheduledBusinessDate c.scheduledFor := by
  rcases h with ⟨hsome, heq⟩ | ⟨hsome, heq⟩
  · obtain ⟨date, rfl⟩ := Option.isSome_iff_exists.1 hsome
    exact ⟨.scheduledDate date, by simp [slotEntries], by simp [slotEntries, heq]⟩
  · obtain ⟨instant, rfl⟩ := Option.isSome_iff_exists.1 hsome
    exact ⟨.scheduledFor instant, by simp [slotEntries], by simp [slotEntries, heq]⟩

theorem RunRequest.Meets.symm (h : c'.Meets c.scheduledBusinessDate c.scheduledFor) :
    c.Meets c'.scheduledBusinessDate c'.scheduledFor := by
  rcases h with ⟨hsome, heq⟩ | ⟨hsome, heq⟩
  · exact .inl ⟨heq ▸ hsome, heq.symm⟩
  · exact .inr ⟨heq ▸ hsome, heq.symm⟩

theorem SameRequest.scheduled (h : SameRequest r r') (hr' : r' ∈ db'.queue.runs.rows)
    (hreq : db'.requests = db.requests) (hs : db.Scheduled r c) : db'.Scheduled r' c :=
  ⟨hr', h.pipelineName.trans hs.pipelineName, h.triggerType.trans hs.triggerType, by
    rw [hreq, h.id, hs.columns]⟩

theorem Keeps.scheduled_forth (h : Keeps db db') (hs : db.Scheduled r c) :
    ∃ r', db'.Scheduled r' c ∧ r'.id = r.id := by
  obtain ⟨r', hr', hsame⟩ := h.forth r hs.mem
  exact ⟨r', hsame.scheduled hr' h.requests hs, hsame.id⟩

theorem Keeps.scheduled_back (h : Keeps db db') (hs : db'.Scheduled r' c) :
    ∃ r, db.Scheduled r c ∧ r'.id = r.id := by
  obtain ⟨r, hr, hsame, -⟩ := h.back r' hs.mem
  refine ⟨r, ⟨hr, hsame.pipelineName ▸ hs.pipelineName, hsame.triggerType ▸ hs.triggerType, ?_⟩,
    hsame.id⟩
  rw [← h.requests, ← hsame.id, hs.columns]

theorem Keeps.exclusive (h : Keeps db db') (he : Exclusive Q db) : Exclusive Q db' where
  eq {r₁' c₁ r₂' c₂} hs₁ hs₂ hmeets := by
    obtain ⟨r₁, hs₁', hid₁⟩ := h.scheduled_back hs₁
    obtain ⟨r₂, hs₂', hid₂⟩ := h.scheduled_back hs₂
    have hsame := he.eq hs₁' hs₂' hmeets
    exact db'.queue.runs.eq_of_key_eq hs₁.mem hs₂.mem (by rw [hid₁, hid₂, hsame])
  asked hs := by
    obtain ⟨r, hs', -⟩ := h.scheduled_back hs
    exact he.asked hs'

/-- After the `INSERT` the scheduled runs are those of before, and the new one if it is one. -/
theorem New.scheduled_iff (h : New run columns held db) :
    (RequestWrite.install db (.insertRun run columns)).Scheduled r c ↔
      db.Scheduled r c ∨ r = run ∧ c = columns ∧ run.pipelineName = pipelineName ∧
        run.triggerType = .scheduled := by
  have hnew : (RequestWrite.install db (.insertRun run columns)).requests =
      db.requests.upsert columns := rfl
  constructor
  · intro hs
    rcases h.mem_iff.1 hs.mem with hold | rfl
    · have hlookup := hs.columns
      rw [hnew, Table.lookup_upsert_of_ne (h.same_id ▸ h.ne hold)] at hlookup
      exact .inl ⟨hold, hs.pipelineName, hs.triggerType, hlookup⟩
    · have hlookup := hs.columns
      rw [hnew, ← h.same_id, Table.lookup_upsert_self] at hlookup
      exact .inr ⟨rfl, (Option.some.inj hlookup).symm, hs.pipelineName, hs.triggerType⟩
  · rintro (hs | ⟨rfl, rfl, hname, ht⟩)
    · refine ⟨h.mem_iff.2 (.inl hs.mem), hs.pipelineName, hs.triggerType, ?_⟩
      rw [hnew, Table.lookup_upsert_of_ne (h.same_id ▸ h.ne hs.mem), hs.columns]
    · refine ⟨h.mem_iff.2 (.inr rfl), hname, ht, ?_⟩
      rw [hnew, ← h.same_id, Table.lookup_upsert_self]

theorem New.exclusive (h : New run columns held db) (he : Exclusive Q db)
    (hslot : run.triggerType = .scheduled → Slotted Q columns held db) :
    Exclusive Q (RequestWrite.install db (.insertRun run columns)) where
  eq {r₁ c₁ r₂ c₂} hs₁ hs₂ hmeets := by
    rcases h.scheduled_iff.1 hs₁ with hold₁ | ⟨rfl, rfl, -, ht₁⟩ <;>
      rcases h.scheduled_iff.1 hs₂ with hold₂ | ⟨rfl, rfl, -, ht₂⟩
    · exact he.eq hold₁ hold₂ hmeets
    · exact absurd hmeets.symm (Requests.hasSlot_eq_false_iff.1 (hslot ht₂).free _ _ hold₁)
    · exact absurd hmeets (Requests.hasSlot_eq_false_iff.1 (hslot ht₁).free _ _ hold₂)
    · rfl
  asked hs := by
    rcases h.scheduled_iff.1 hs with hold | ⟨rfl, rfl, -, ht⟩
    · exact he.asked hold
    · exact (hslot ht).asked

theorem Enters.nil : Enters Q ([] : List (RequestWrite β)) held db := ⟨written_nil, by simp⟩

theorem Enters.tame (h : ∀ w ∈ ws, w.Tame) : Enters Q ws held db :=
  ⟨.inl h, fun _ _ hmem _ => (h _ hmem).elim⟩

/-- A commit. -/
theorem Enters.exclusive (h : Enters Q ws held db) (he : Exclusive Q db) :
    Exclusive Q ((requests β).installAll db ws) := by
  rcases h.written with htame | ⟨run, columns, rfl, hnew⟩
  · exact (keeps_installAll htame).exclusive he
  · exact hnew.exclusive he fun ht => h.slotted run columns List.mem_cons_self ht

/-- A commit keeps the scheduled runs. -/
theorem Enters.scheduled (h : Enters Q ws held db) (hs : db.Scheduled r c) :
    ∃ r', ((requests β).installAll db ws).Scheduled r' c ∧ r'.id = r.id := by
  rcases h.written with htame | ⟨run, columns, rfl, hnew⟩
  · exact (keeps_installAll htame).scheduled_forth hs
  · exact ⟨r, hnew.scheduled_iff.2 (.inl hs), rfl⟩

/-- Of two new runs, each has its entries still when the other is committed. -/
theorem Enters.free (h : Enters Q ws held' db) (hdisjoint : ∀ k, held k → ¬held' k)
    (hslot : Slotted Q columns held db) :
    Slotted Q columns held ((requests β).installAll db ws) := by
  refine ⟨hslot.locked, Requests.hasSlot_eq_false_iff.2 fun r c hs hmeets => ?_, hslot.asked⟩
  have hfree := Requests.hasSlot_eq_false_iff.1 hslot.free
  rcases h.written with htame | ⟨run, columns', rfl, hnew⟩
  · obtain ⟨r', hs', -⟩ := (keeps_installAll htame).scheduled_back hs
    exact hfree r' c hs' hmeets
  · rcases hnew.scheduled_iff.1 hs with hold | ⟨rfl, rfl, -, ht⟩
    · exact hfree r c hold hmeets
    · obtain ⟨e, he, he'⟩ := hmeets.exists_entry
      exact hdisjoint e (hslot.locked e he)
        ((h.slotted r c List.mem_cons_self ht).locked e he')

end Writes

/-! ## The assertion about a session -/

/-- The slot has its run, or the arguments are not valid, or a statement has failed. -/
def ScheduledRequest.Answered (q : ScheduledRequest) (db : Requests β) : Answer → Prop
  | .run id => ∃ r c, db.Scheduled r c ∧ r.id = id ∧
      c.scheduledBusinessDate = q.businessDate ∧ c.scheduledFor = q.scheduledFor
  | .coalesced => ∃ r c, db.Scheduled r c ∧ c.Meets q.businessDate q.scheduledFor
  | .invalid _ => q.businessDate = none ∧ q.scheduledFor = none
  | .raised => True
  | .noResultFound | .multipleResultsFound => False

/-- The scheduled requests are those that may be made, and they are answered. -/
def Request.Slotted (Q : ScheduledRequest → Prop) (db : Requests β) : Request → Answer → Prop
  | .scheduled q, answer => Q q ∧ q.Answered db answer
  | .manual _, _ | .cli _, _ => True

/-- The run is what a scheduled request asks for, and the answer is its id. -/
def Request.Schedules (Q : ScheduledRequest → Prop) (run : PipelineRun) (columns : RunRequest) :
    Request → Answer → Prop
  | .scheduled q, answer => Q q ∧ answer = .run run.id ∧ run.pipelineName = pipelineName ∧
      run.triggerType = .scheduled ∧ columns.scheduledBusinessDate = q.businessDate ∧
      columns.scheduledFor = q.scheduledFor
  | .manual _, _ | .cli _, _ => True

/-- What the next statement relies on. -/
def SchedulingAt (Q : ScheduledRequest → Prop) (ws : List (RequestWrite β))
    (held : EntryKey → Prop) (db : Requests β) : RequestLoc → Prop
  | .worker a => ((∃ r, a = .idle r) ∧ ws = [] ∨ a.InOperation) ∧ ∀ w ∈ ws, w.Tame
  | .scheduled q => ws = [] ∧ Q q
  | .manual _ _ | .cli _ => ws = []
  | .finishing q answer => (ws = [] ∧ q.Slotted Q db answer) ∨ ∃ run columns,
      ws = [.insertRun run columns] ∧ New run columns held db ∧
        (run.triggerType = .scheduled → Slotted Q columns held db) ∧
        q.Schedules Q run columns answer
  | .returned q answer => ws = [] ∧ q.Slotted Q db answer

/-- The assertion about one session. -/
structure Scheduling (Q : ScheduledRequest → Prop) (a : RequestLoc) (ws : List (RequestWrite β))
    (held : EntryKey → Prop) (db : Requests β) : Prop where
  exclusive : Exclusive Q db
  loc : SchedulingAt Q ws held db a

/-- What a statement relies on: a worker calls the operations of `queue.py`, a scheduled request is
one that may be made, and `gen_random_uuid` draws a new id. -/
structure Ticks (Q : ScheduledRequest → Prop) (c : RequestChoice β) (db : Requests β) : Prop where
  proper : ∀ op, c = .worker (.call op) → ∃ M, op.Proper M
  asked : ∀ q, c = .request (.scheduled q) → Q q
  drawn : ∀ id, c = .insert id → id ∉ db.queue.runs.rows.map (·.id)

section Assertion

variable {Q : ScheduledRequest → Prop} {db : Requests β} {ws ws' : List (RequestWrite β)}
  {held held' : EntryKey → Prop} {a : RequestLoc} {c : RequestChoice β} {busy : EntryKey → Bool}
  {o : Outcome EntryKey (RequestWrite β) RequestLoc} {q : Request} {answer : Answer}

theorem Scheduling.enters (h : Scheduling Q a ws held db) : Enters Q ws held db := by
  obtain ⟨-, h⟩ := h
  cases a with
  | worker a => exact .tame h.2
  | scheduled q => exact h.1 ▸ .nil
  | manual q pc =>
    obtain rfl : ws = [] := h
    exact .nil
  | cli q =>
    obtain rfl : ws = [] := h
    exact .nil
  | finishing q answer =>
    rcases h with ⟨rfl, -⟩ | ⟨run, columns, rfl, hnew, hslot, -⟩
    · exact .nil
    · refine ⟨.inr ⟨run, columns, rfl, hnew⟩, fun run' columns' hmem ht => ?_⟩
      cases List.mem_singleton.1 hmem
      exact hslot ht
  | returned q answer => exact h.1 ▸ .nil

/-- An answer stays right. -/
theorem Request.Slotted.installAll (h : q.Slotted Q db answer) (hw : Enters Q ws held db) :
    q.Slotted Q ((requests β).installAll db ws) answer := by
  match q, answer, h with
  | .scheduled q, .run id, ⟨hq, r, c, hs, hid, hdate, hfor⟩ =>
    obtain ⟨r', hs', hid'⟩ := hw.scheduled hs
    exact ⟨hq, r', c, hs', hid'.trans hid, hdate, hfor⟩
  | .scheduled q, .coalesced, ⟨hq, r, c, hs, hmeets⟩ =>
    obtain ⟨r', hs', -⟩ := hw.scheduled hs
    exact ⟨hq, r', c, hs', hmeets⟩
  | .scheduled q, .invalid e, h => exact h
  | .scheduled q, .raised, h => exact h
  | .manual q, _, _ => trivial
  | .cli q, _, _ => trivial

/-- A commit of another session. -/
theorem Scheduling.stable (h : Scheduling Q a ws held db) (hw : Enters Q ws' held' db)
    (hdisjoint : ∀ k, held k → ¬held' k) :
    Scheduling Q a ws held ((requests β).installAll db ws') := by
  refine ⟨hw.exclusive h.exclusive, ?_⟩
  have hloc := h.loc
  cases a with
  | worker a => exact hloc
  | scheduled q => exact hloc
  | manual q pc => exact hloc
  | cli q => exact hloc
  | finishing q answer =>
    rcases hloc with ⟨hws, hanswer⟩ | ⟨run, columns, hws, hnew, hslot, hasks⟩
    · exact .inl ⟨hws, hanswer.installAll hw⟩
    · exact .inr ⟨run, columns, hws, hw.written.new hdisjoint hnew,
        fun ht => hw.free hdisjoint (hslot ht), hasks⟩
  | returned q answer => exact ⟨hloc.1, hloc.2.installAll hw⟩

/-! ### Statements of the session itself -/

theorem raised_slotted (hq : ∀ q', q = .scheduled q' → Q q') : q.Slotted Q db .raised := by
  cases q with
  | scheduled q => exact ⟨hq q rfl, trivial⟩
  | manual q => trivial
  | cli q => trivial

/-- A statement of a worker. -/
theorem worker_scheduling {a : Loc} {c : Choice β} (h : Scheduling Q (.worker a) ws held db)
    (hc : ∀ op, c = .call op → ∃ M, op.Proper M) {o : Outcome RowKey (RowWrite β) Loc}
    {v : Requests β} (he : exec a c (fun k => busy (.row k)) v.queue = some o) :
    (v.lift o).LeadsTo (Scheduling Q) ws held db ((requests β).installAll db ws) := by
  obtain ⟨ha, hws⟩ := h.loc
  have htame := tame_exec he (ha.imp_left And.left) hc
  cases o with
  | proceed ks ws₁ a' =>
    refine ⟨h.exclusive, .inr htame.1, fun w hw => ?_⟩
    rcases List.mem_append.1 hw with hw | hw
    · exact hws w hw
    · obtain ⟨w, hmem, rfl⟩ := List.mem_map.1 hw
      cases w with
      | updateRun id u => exact htame.2 id u hmem
      | insertAttempt a => trivial
      | publish write => trivial
  | commit a' => exact ⟨h.enters.exclusive h.exclusive, .inl ⟨htame, rfl⟩, by simp⟩
  | rollback a' => exact ⟨h.exclusive, .inl ⟨htame, rfl⟩, by simp⟩

/-- The `INSERT` of a run, with its entries if it has some. -/
theorem leadsTo_insert {entries : List EntryKey} {run : PipelineRun} {columns : RunRequest}
    (he : Exclusive Q db) (hid : columns.id = run.id)
    (hmanual : entersIndex run columns = true →
      .pendingManual (weekEntry run.requestedWeekStart) ∈ entries ∧
        db.hasEntry (weekEntry run.requestedWeekStart) = false)
    (hslot : run.triggerType = .scheduled → Slotted Q columns (· ∈ entries) db)
    (hq : ∀ q', q = .scheduled q' → Q q') (hasks : q.Schedules Q run columns (.run run.id)) :
    (db.insertRun q entries run columns).LeadsTo (Scheduling Q) [] held db db := by
  unfold Requests.insertRun
  split_ifs with hfresh
  · exact ⟨he, rfl, raised_slotted hq⟩
  · refine ⟨he, .inr ⟨run, columns, rfl, ⟨hid, .inr List.mem_cons_self, hfresh, fun hin => ?_⟩,
      fun ht => ?_, hasks⟩⟩
    · exact ⟨.inr (List.mem_cons_of_mem _ (hmanual hin).1), (hmanual hin).2⟩
    · exact ⟨fun e he => .inr (List.mem_cons_of_mem _ ((hslot ht).locked e he)), (hslot ht).free,
        (hslot ht).asked⟩

theorem manual_scheduling {q : ManualRequest} {pc : ManualPc} (he : Exclusive Q db)
    (h : manualExec q busy db pc c = some o) : o.LeadsTo (Scheduling Q) [] held db db := by
  have hno : ∀ q', Request.manual q = .scheduled q' → Q q' := fun _ h => by cases h
  unfold manualExec at h
  split at h
  · split at h <;> cases h
    · exact ⟨he, rfl, trivial⟩
    · exact ⟨he, rfl⟩
  · dsimp only at h
    split_ifs at h with hnonce hbusy hentry <;> cases h
    · refine leadsTo_insert he rfl (fun henters => ?_) (fun ht => by cases ht) hno trivial
      have hnone : q.nonce = none := (entersIndex_iff.1 henters).2.2.2
      rw [hnone] at hnonce
      cases hnonce
    · exact ⟨he, rfl⟩
    · exact leadsTo_insert he rfl
        (fun _ => ⟨List.mem_singleton.2 rfl, Bool.eq_false_iff.2 hentry⟩) (fun ht => by cases ht)
        hno trivial
  · split at h <;> cases h
    · exact ⟨he, rfl, trivial⟩
    · exact ⟨he, .inl ⟨rfl, trivial⟩⟩
    · exact ⟨he, rfl, trivial⟩
  · cases h
    exact ⟨he, rfl, trivial⟩
  · cases h

theorem scheduled_scheduling {q : ScheduledRequest} (he : Exclusive Q db) (hq : Q q)
    (hdrawn : ∀ id, c = .insert id → id ∉ db.queue.runs.rows.map (·.id))
    (h : scheduledExec q busy db c = some o) : o.LeadsTo (Scheduling Q) [] held db db := by
  unfold scheduledExec at h
  split at h
  · rename_i id
    dsimp only at h
    split_ifs at h with hinvalid hbusy hslot <;> cases h
    · simp only [Bool.and_eq_true, Option.isNone_iff_eq_none] at hinvalid
      exact ⟨he, rfl, hq, hinvalid⟩
    · -- `ON CONFLICT DO NOTHING`: not for the id
      have hhas : db.hasSlot q.businessDate q.scheduledFor = true := by
        simpa [hdrawn id rfl] using hslot
      exact ⟨he, .inl ⟨rfl, hq, Requests.hasSlot_iff.1 hhas⟩⟩
    · have hfree : db.hasSlot q.businessDate q.scheduledFor = false := by
        rw [Bool.or_eq_true, not_or] at hslot
        exact Bool.eq_false_iff.2 hslot.1
      exact leadsTo_insert he rfl (fun h => by cases (entersIndex_iff.1 h).2.2.1)
        (fun _ => ⟨fun e he => he, hfree, q, hq, rfl, rfl⟩) (fun _ h => by cases h; exact hq)
        ⟨hq, rfl, rfl, rfl, rfl, rfl⟩
  · cases h
    exact ⟨he, rfl, hq, trivial⟩
  · cases h

theorem cli_scheduling {q : CliRequest} (he : Exclusive Q db) (h : cliExec q db c = some o) :
    o.LeadsTo (Scheduling Q) [] held db db := by
  unfold cliExec at h
  split at h
  · split at h <;> cases h
    · exact ⟨he, rfl, trivial⟩
    · exact leadsTo_insert he rfl (fun h => by cases (entersIndex_iff.1 h).2.2.1)
        (fun ht => by cases ht) (fun _ h => by cases h) trivial
  · cases h
    exact ⟨he, rfl, trivial⟩
  · cases h

theorem start_scheduling (he : Exclusive Q db) (hq : ∀ q', q = .scheduled q' → Q q') :
    Scheduling Q q.start [] held db := by
  cases q with
  | scheduled q => exact ⟨he, rfl, hq q rfl⟩
  | manual q => exact ⟨he, rfl⟩
  | cli q => exact ⟨he, rfl⟩

end Assertion

/-- The sessions rely on nothing but their entries. -/
def scheduling (β : Type*) (Q : ScheduledRequest → Prop) :
    Reliance (requests β) (fun _ c db => Ticks Q c db) fun _ _ _ => True where
  holds := Scheduling Q
  step {a ws held db c busy o} h hside he := by
    have hexclusive := h.exclusive
    have hloc := h.loc
    change requestExec a c busy _ = some o at he
    unfold requestExec at he
    split at he
    · -- calls
      rename_i r q
      cases he
      obtain ⟨⟨-, rfl⟩ | hin, -⟩ := hloc
      · exact start_scheduling hexclusive fun q' hq => hside.asked q' (congrArg _ hq)
      · exact hin.elim
    · rename_i q answer q'
      cases he
      obtain ⟨rfl, -⟩ := hloc
      exact start_scheduling hexclusive fun q' hq => hside.asked q' (congrArg _ hq)
    · rename_i q answer op
      cases he
      obtain ⟨rfl, -⟩ := hloc
      refine ⟨hexclusive, .inr ?_, by simp⟩
      have hop := hside.proper op rfl
      cases op with
      | transition t => exact hop
      | _ => exact trivial
    · cases he
    · obtain ⟨o, ho, rfl⟩ := Option.map_eq_some_iff.1 he
      exact worker_scheduling h (fun op hop => hside.proper op (congrArg _ hop)) ho
    · cases he
    · obtain rfl : ws = [] := hloc
      exact manual_scheduling hexclusive he
    · obtain ⟨rfl, hq⟩ := hloc
      exact scheduled_scheduling hexclusive hq hside.drawn he
    · obtain rfl : ws = [] := hloc
      exact cli_scheduling hexclusive he
    · -- the COMMIT of a request
      rename_i q answer
      cases he
      refine ⟨h.enters.exclusive hexclusive, rfl, ?_⟩
      rcases hloc with ⟨rfl, hanswer⟩ | ⟨run, columns, rfl, hnew, hslot, hasks⟩
      · exact hanswer
      · cases q with
        | scheduled q =>
          obtain ⟨hq, rfl, hname, ht, hdate, hfor⟩ := hasks
          exact ⟨hq, run, columns, hnew.scheduled_iff.2 (.inr ⟨rfl, rfl, hname, ht⟩), rfl, hdate,
            hfor⟩
        | manual q => trivial
        | cli q => trivial
    · rename_i q answer
      cases he
      refine ⟨hexclusive, rfl, raised_slotted fun q' hq => ?_⟩
      subst hq
      rcases hloc with ⟨-, hanswer⟩ | ⟨run, columns, -, -, -, hasks⟩
      · exact hanswer.1
      · exact hasks.1
    · cases he
  stable h h' hdisjoint _ := h.stable h'.enters hdisjoint

/-! ## Ticks -/

open Reporting (refreshTimes timeOf dateOf combine)

/-- What `dispatch_tick` asks for at an instant, if it does: the date goes with the morning. -/
def dispatchRequest (zone : Zone) (tickAt : ℤ) : Option ScheduledRequest :=
  let localAt := zone.toLocal tickAt
  let eligible := refreshTimes.filter fun refreshTime => refreshTime ≤ timeOf localAt
  eligible.getLast?.map fun refreshTime =>
    { businessDate :=
        if refreshTimes.head? = some refreshTime then some (dateOf localAt * Reporting.day).toNat
        else none
      scheduledFor := some (zone.toUtc (combine (dateOf localAt) refreshTime)).toNat
      now := tickAt.toNat }

/-- The instant of a refresh. -/
def slotAt (zone : Zone) (date refreshTime : ℤ) : ℤ := zone.toUtc (combine date refreshTime)

/-- The instant from which a refresh is not asked for any more: the evening, or midnight. -/
def slotEnd (zone : Zone) (date refreshTime : ℤ) : ℤ :=
  if refreshTime = 7 * Reporting.hour then slotAt zone date (19 * Reporting.hour)
  else slotAt zone (date + 1) 0

/-- The ticks that ask for a refresh. -/
def window (zone : Zone) (date refreshTime : ℤ) : Set ℤ :=
  {tickAt | slotAt zone date refreshTime ≤ tickAt ∧ tickAt < slotEnd zone date refreshTime}

/-- The request for a refresh. -/
def slotRequest (zone : Zone) (date refreshTime tickAt : ℤ) : ScheduledRequest where
  businessDate :=
    if refreshTime = 7 * Reporting.hour then some (date * Reporting.day).toNat else none
  scheduledFor := some (slotAt zone date refreshTime).toNat
  now := tickAt.toNat

/-- No change of the clock skips or repeats a midnight or a refresh time. -/
def PlainTimes (zone : Zone) : Prop :=
  ∀ date, ∀ time ∈ 0 :: refreshTimes, zone.Plain (combine date time)

/-- The date and the slot of the tick are not before the epoch, so the queue can hold them. -/
def InEra (zone : Zone) (tickAt : ℤ) : Prop :=
  ∀ date, ∀ refreshTime ∈ refreshTimes, tickAt ∈ window zone date refreshTime →
    0 ≤ date ∧ 0 ≤ slotAt zone date refreshTime

section Ticks

variable {zone : Zone} {tickAt date date' refreshTime refreshTime' : ℤ} {q : ScheduledRequest}

theorem mem_refreshTimes :
    refreshTime ∈ refreshTimes ↔
      refreshTime = 7 * Reporting.hour ∨ refreshTime = 19 * Reporting.hour := by
  simp [refreshTimes]

/-- The windows by the local clock. -/
theorem mem_window_iff (hplain : PlainTimes zone) (hmem : refreshTime ∈ refreshTimes) :
    tickAt ∈ window zone date refreshTime ↔
      dateOf (zone.toLocal tickAt) = date ∧ refreshTime ≤ timeOf (zone.toLocal tickAt) ∧
        (refreshTime = 7 * Reporting.hour →
          timeOf (zone.toLocal tickAt) < 19 * Reporting.hour) := by
  have hlt : ∀ date, ∀ time ∈ 0 :: refreshTimes,
      (tickAt < slotAt zone date time ↔ zone.toLocal tickAt < combine date time) :=
    fun date time htime => (Zone.toLocal_lt_iff (hplain date time htime)).symm
  have hevening := hlt date (19 * Reporting.hour) (by simp [refreshTimes])
  have hmidnight := hlt (date + 1) 0 List.mem_cons_self
  have hslot := hlt date refreshTime (List.mem_cons_of_mem _ hmem)
  rw [window, Set.mem_ofPred_eq, ← not_lt, hslot, slotEnd]
  rcases mem_refreshTimes.1 hmem with rfl | rfl
  · rw [if_pos rfl, hevening]
    unfold combine dateOf timeOf Reporting.hour Reporting.day
    omega
  · rw [if_neg (by decide), hmidnight]
    unfold combine dateOf timeOf Reporting.hour Reporting.day
    omega

/-- **Which ticks ask for a refresh.** -/
theorem dispatchRequest_eq_some_iff (hplain : PlainTimes zone) :
    dispatchRequest zone tickAt = some q ↔
      ∃ date, ∃ refreshTime ∈ refreshTimes, tickAt ∈ window zone date refreshTime ∧
        q = slotRequest zone date refreshTime tickAt := by
  have hhour : (7 : ℤ) * Reporting.hour ≤ 19 * Reporting.hour := by decide
  have hne : (7 : ℤ) * Reporting.hour ≠ 19 * Reporting.hour := by decide
  have hwindows : (∃ date, ∃ refreshTime ∈ refreshTimes, tickAt ∈ window zone date refreshTime ∧
      q = slotRequest zone date refreshTime tickAt) ↔
      ∃ refreshTime ∈ refreshTimes, refreshTime ≤ timeOf (zone.toLocal tickAt) ∧
        (refreshTime = 7 * Reporting.hour →
          timeOf (zone.toLocal tickAt) < 19 * Reporting.hour) ∧
        q = slotRequest zone (dateOf (zone.toLocal tickAt)) refreshTime tickAt := by
    constructor
    · rintro ⟨date, refreshTime, hmem, hwindow, hq⟩
      obtain ⟨rfl, hlate, hbefore⟩ := (mem_window_iff hplain hmem).1 hwindow
      exact ⟨refreshTime, hmem, hlate, hbefore, hq⟩
    · rintro ⟨refreshTime, hmem, hlate, hbefore, hq⟩
      exact ⟨_, refreshTime, hmem, (mem_window_iff hplain hmem).2 ⟨rfl, hlate, hbefore⟩, hq⟩
  rw [hwindows]
  simp only [refreshTimes, List.mem_cons, List.not_mem_nil, or_false, exists_eq_or_imp,
    exists_eq_left, hne.symm, false_imp_iff, true_and, true_imp_iff]
  unfold dispatchRequest refreshTimes
  by_cases hevening : 19 * Reporting.hour ≤ timeOf (zone.toLocal tickAt)
  · simp [hevening, hhour.trans hevening, hne.symm, slotRequest, slotAt, eq_comm]
  · by_cases hmorning : 7 * Reporting.hour ≤ timeOf (zone.toLocal tickAt)
    · simp [hevening, hmorning, slotRequest, slotAt, eq_comm, not_le.1 hevening]
    · simp [hevening, hmorning]

/-- A slot is one refresh. -/
theorem slotAt_inj (hplain : PlainTimes zone) (hmem : refreshTime ∈ refreshTimes)
    (hmem' : refreshTime' ∈ refreshTimes)
    (h : slotAt zone date refreshTime = slotAt zone date' refreshTime') :
    date = date' ∧ refreshTime = refreshTime' := by
  have hp := hplain date refreshTime (List.mem_cons_of_mem _ hmem)
  have hp' := hplain date' refreshTime' (List.mem_cons_of_mem _ hmem')
  have hcombine : combine date refreshTime = combine date' refreshTime' := by
    rw [← Zone.toLocal_toUtc hp, ← Zone.toLocal_toUtc hp']
    exact congrArg _ h
  have hdate := congrArg dateOf hcombine
  have htime := congrArg timeOf hcombine
  rw [Reporting.dateOf_combine _ hmem, Reporting.dateOf_combine _ hmem'] at hdate
  rw [Reporting.timeOf_combine _ hmem, Reporting.timeOf_combine _ hmem'] at htime
  exact ⟨hdate, htime⟩

/-- A tick is in one window. -/
theorem eq_of_mem_window (hplain : PlainTimes zone) (hmem : refreshTime ∈ refreshTimes)
    (hmem' : refreshTime' ∈ refreshTimes) (h : tickAt ∈ window zone date refreshTime)
    (h' : tickAt ∈ window zone date' refreshTime') :
    date' = date ∧ refreshTime' = refreshTime := by
  obtain ⟨hdate, hlate, hbefore⟩ := (mem_window_iff hplain hmem).1 h
  obtain ⟨hdate', hlate', hbefore'⟩ := (mem_window_iff hplain hmem').1 h'
  refine ⟨hdate'.symm.trans hdate, ?_⟩
  rcases mem_refreshTimes.1 hmem with rfl | rfl <;>
    rcases mem_refreshTimes.1 hmem' with rfl | rfl
  · rfl
  · exact absurd (hbefore rfl) (not_lt.2 hlate')
  · exact absurd (hbefore' rfl) (not_lt.2 hlate)
  · rfl

end Ticks

/-! ## Runs -/

/-- The scheduled runs of a slot. -/
def Requests.runsFor (db : Requests β) (slot : ℤ) : List PipelineRun :=
  db.queue.runs.rows.filter fun r =>
    decide (r.pipelineName = pipelineName) && decide (r.triggerType = .scheduled) &&
      (db.requests.lookup r.id).any fun c =>
        c.scheduledFor.any fun instant : ℕ => decide ((instant : ℤ) = slot)

/-- The requests of a set of ticks. -/
def AskedBy (zone : Zone) (ticks : Set ℤ) (q : ScheduledRequest) : Prop :=
  ∃ tickAt ∈ ticks, dispatchRequest zone tickAt = some q

section Runs

variable {zone : Zone} {ticks : Set ℤ} {db : Requests β} {r r' : PipelineRun} {c : RunRequest}
  {q : ScheduledRequest} {tickAt date refreshTime slot : ℤ}

theorem Requests.mem_runsFor : r ∈ db.runsFor slot ↔
    ∃ c, db.Scheduled r c ∧ ∃ instant, c.scheduledFor = some instant ∧ (instant : ℤ) = slot := by
  simp only [Requests.runsFor, List.mem_filter, Bool.and_eq_true, decide_eq_true_eq,
    Option.any_eq_true]
  constructor
  · rintro ⟨hr, ⟨hname, ht⟩, c, hc, instant, hinstant, hslot⟩
    exact ⟨c, ⟨hr, hname, ht, hc⟩, instant, hinstant, hslot⟩
  · rintro ⟨c, hs, instant, hinstant, hslot⟩
    exact ⟨hs.mem, ⟨hs.pipelineName, hs.triggerType⟩, c, hs.columns, instant, hinstant, hslot⟩

theorem Requests.nodup_runsFor : (db.runsFor slot).Nodup :=
  (List.Nodup.of_map _ db.queue.runs.nodup).filter _

/-- A slot has one run at most. -/
theorem Exclusive.eq_of_mem_runsFor {Q : ScheduledRequest → Prop} (h : Exclusive Q db)
    (hr : r ∈ db.runsFor slot) (hr' : r' ∈ db.runsFor slot) : r = r' := by
  obtain ⟨c, hs, instant, hinstant, hslot⟩ := Requests.mem_runsFor.1 hr
  obtain ⟨c', hs', instant', hinstant', hslot'⟩ := Requests.mem_runsFor.1 hr'
  have hsame : instant' = instant := by exact_mod_cast hslot'.trans hslot.symm
  exact h.eq hs hs' (.inr ⟨by rw [hinstant]; rfl, by rw [hinstant', hinstant, hsame]⟩)

/-- The slot of a request in the era. -/
theorem mem_runsFor_of_scheduled (hs : db.Scheduled r c) (hslot : 0 ≤ slotAt zone date refreshTime)
    (h : c.scheduledFor = (slotRequest zone date refreshTime tickAt).scheduledFor) :
    r ∈ db.runsFor (slotAt zone date refreshTime) :=
  Requests.mem_runsFor.2 ⟨c, hs, _, h, Int.toNat_of_nonneg hslot⟩

/-- Requests with one date or one slot are for one refresh. -/
theorem slotRequest_of_meets {date' refreshTime' tickAt' : ℤ}
    (hera : 0 ≤ date ∧ 0 ≤ slotAt zone date refreshTime)
    (hera' : 0 ≤ date' ∧ 0 ≤ slotAt zone date' refreshTime')
    (hdate : c.scheduledBusinessDate = (slotRequest zone date' refreshTime' tickAt').businessDate)
    (hfor : c.scheduledFor = (slotRequest zone date' refreshTime' tickAt').scheduledFor)
    (hmeets : c.Meets (slotRequest zone date refreshTime tickAt).businessDate
      (slotRequest zone date refreshTime tickAt).scheduledFor) :
    slotAt zone date' refreshTime' = slotAt zone date refreshTime := by
  rcases hmeets with ⟨hsome, heq⟩ | ⟨-, heq⟩
  · -- both are mornings of one day
    rw [hdate] at heq
    simp only [slotRequest] at hsome heq
    split_ifs at hsome heq with hmorning hmorning'
    · have hdays : date' * Reporting.day = date * Reporting.day := by
        have hnat := Option.some.inj heq
        unfold Reporting.day at hnat ⊢
        omega
      have hsame : date' = date := mul_right_cancel₀ (by decide) hdays
      rw [hsame, hmorning, hmorning']
    · cases hsome
  · rw [hfor] at heq
    have hnat : (slotAt zone date' refreshTime').toNat = (slotAt zone date refreshTime).toNat :=
      Option.some.inj heq
    rw [← Int.toNat_of_nonneg hera'.2, ← Int.toNat_of_nonneg hera.2, hnat]

/-- A scheduled run is the run of a tick. -/
theorem Exclusive.exists_tick (h : Exclusive (AskedBy zone ticks) db) (hplain : PlainTimes zone)
    (hera : ∀ tickAt ∈ ticks, InEra zone tickAt) (hs : db.Scheduled r c) :
    ∃ tickAt ∈ ticks, ∃ date, ∃ refreshTime ∈ refreshTimes,
      tickAt ∈ window zone date refreshTime ∧ (0 ≤ date ∧ 0 ≤ slotAt zone date refreshTime) ∧
        c.scheduledBusinessDate = (slotRequest zone date refreshTime tickAt).businessDate ∧
        c.scheduledFor = (slotRequest zone date refreshTime tickAt).scheduledFor := by
  obtain ⟨q, ⟨tickAt, htick, hq⟩, hdate, hfor⟩ := h.asked hs
  obtain ⟨date, refreshTime, hmem, hwindow, rfl⟩ := (dispatchRequest_eq_some_iff hplain).1 hq
  exact ⟨tickAt, htick, date, refreshTime, hmem, hwindow,
    hera tickAt htick date refreshTime hmem hwindow, hdate, hfor⟩

/-- A slot has a run only if there was a tick in its window. -/
theorem Exclusive.exists_mem_window (h : Exclusive (AskedBy zone ticks) db)
    (hplain : PlainTimes zone) (hera : ∀ tickAt ∈ ticks, InEra zone tickAt)
    (hmem : refreshTime ∈ refreshTimes) (hr : r ∈ db.runsFor (slotAt zone date refreshTime)) :
    ∃ tickAt ∈ ticks, tickAt ∈ window zone date refreshTime := by
  obtain ⟨c, hs, instant, hinstant, hslot⟩ := Requests.mem_runsFor.1 hr
  obtain ⟨tickAt, htick, date', refreshTime', hmem', hwindow, hera', -, hfor⟩ :=
    h.exists_tick hplain hera hs
  rw [hinstant] at hfor
  have hsame : slotAt zone date' refreshTime' = slotAt zone date refreshTime := by
    rw [← hslot, Option.some.inj hfor]
    exact (Int.toNat_of_nonneg hera'.2).symm
  obtain ⟨rfl, rfl⟩ := slotAt_inj hplain hmem' hmem hsame
  exact ⟨tickAt, htick, hwindow⟩

/-- The run that an answer is about. -/
theorem Exclusive.exists_run (h : Exclusive (AskedBy zone ticks) db) (hplain : PlainTimes zone)
    (hera : ∀ tickAt ∈ ticks, InEra zone tickAt) {answer : Answer}
    (hera' : 0 ≤ date ∧ 0 ≤ slotAt zone date refreshTime)
    (hanswered : (slotRequest zone date refreshTime tickAt).Answered db answer)
    (hraised : answer ≠ .raised) :
    ∃ r ∈ db.runsFor (slotAt zone date refreshTime),
      answer = .run r.id ∨ answer = .coalesced := by
  match answer, hanswered with
  | .run id, ⟨r, c, hs, hid, _, hfor⟩ =>
    exact ⟨r, mem_runsFor_of_scheduled hs hera'.2 hfor, .inl (by rw [hid])⟩
  | .coalesced, ⟨r, c, hs, hmeets⟩ =>
    obtain ⟨tickAt', -, date', refreshTime', -, -, hera'', hdate, hfor⟩ :=
      h.exists_tick hplain hera hs
    have hslot := slotRequest_of_meets hera' hera'' hdate hfor hmeets
    refine ⟨r, ?_, .inr rfl⟩
    rw [← hslot]
    exact mem_runsFor_of_scheduled hs hera''.2 hfor
  | .invalid e, hinvalid => cases hinvalid.2
  | .raised, _ => exact absurd rfl hraised

theorem Exclusive.length_runsFor_le {Q : ScheduledRequest → Prop} (h : Exclusive Q db) :
    (db.runsFor slot).length ≤ 1 := by
  have hnodup : (db.runsFor slot).Nodup := db.nodup_runsFor
  match hruns : db.runsFor slot with
  | [] => exact Nat.zero_le 1
  | [r] => exact le_rfl
  | r :: r' :: rs =>
    have heq : r = r' := h.eq_of_mem_runsFor (hruns ▸ List.mem_cons_self)
      (hruns ▸ List.mem_cons_of_mem _ List.mem_cons_self)
    rw [hruns, heq] at hnodup
    simp at hnodup

variable {ι : Type*} [DecidableEq ι]
  {s : State ι (Requests β) EntryKey (RequestWrite β) RequestLoc} {db₀ : Requests β}

theorem scheduling_run {Q : ScheduledRequest → Prop} (h₀ : ∀ r c, ¬db₀.Scheduled r c)
    (h : ((requests β).machine ι).Run (fun s l => Ticks Q l.2 s.db)
      (State.start db₀ fun _ => .worker (.idle none)) s) :
    Exclusive Q s.db ∧ (scheduling β Q).All s := by
  have hstart : Exclusive Q db₀ :=
    ⟨fun hs _ _ => absurd hs (h₀ _ _), fun hs => absurd hs (h₀ _ _)⟩
  refine h.invariant (fun s => Exclusive Q s.db ∧ (scheduling β Q).All s)
    ⟨hstart, Reliance.all_start _ fun _ => ⟨hstart, .inl ⟨⟨none, rfl⟩, rfl⟩, by simp⟩⟩ ?_
  intro s l s' hA hticks hnext
  have hall := Reliance.all_next (i := l.1) (c := l.2) _ hA.2 hticks (fun _ _ _ _ => trivial) hnext
  exact ⟨(hall l.1).exclusive, hall⟩

end Runs

/-- **The dispatcher enqueues every slot once.**  Let any number of dispatchers tick at the instants
`ticks`, in any order and next to any workers, manual and command line requests, with failures
anywhere.  In every state a slot has at most one run.  It has none unless a tick was in the window
of the slot, from the slot to the next one or to midnight.  And as soon as the call of one tick in
the window has returned without a failure, the slot has its run: the one that this call has created,
or that of another tick. -/
theorem slot_is_enqueued_once {zone : Zone} (hplain : PlainTimes zone) {ticks : Set ℤ}
    (hera : ∀ tickAt ∈ ticks, InEra zone tickAt) {db₀ : Requests β}
    (h₀ : ∀ r c, ¬db₀.Scheduled r c) {ι : Type*} [DecidableEq ι]
    {s : State ι (Requests β) EntryKey (RequestWrite β) RequestLoc}
    (h : ((requests β).machine ι).Run (fun s l => Ticks (AskedBy zone ticks) l.2 s.db)
      (State.start db₀ fun _ => .worker (.idle none)) s)
    (date : ℤ) {refreshTime : ℤ} (hmem : refreshTime ∈ refreshTimes) :
    (s.db.runsFor (slotAt zone date refreshTime)).length ≤ 1 ∧
    (s.db.runsFor (slotAt zone date refreshTime) ≠ [] →
      ∃ tickAt ∈ ticks, tickAt ∈ window zone date refreshTime) ∧
    ∀ i q answer, ∀ tickAt ∈ ticks, tickAt ∈ window zone date refreshTime →
      dispatchRequest zone tickAt = some q →
      (s.session i).loc = .returned (.scheduled q) answer → answer ≠ .raised →
        ∃ r, s.db.runsFor (slotAt zone date refreshTime) = [r] ∧
          (answer = .run r.id ∨ answer = .coalesced) := by
  obtain ⟨hexclusive, hall⟩ := scheduling_run h₀ h
  refine ⟨hexclusive.length_runsFor_le, fun hne => ?_, ?_⟩
  · obtain ⟨r, hr⟩ := List.exists_mem_of_ne_nil _ hne
    exact hexclusive.exists_mem_window hplain hera hmem hr
  · intro i q answer tickAt htick hwindow hq hreturned hraised
    obtain ⟨date', refreshTime', hmem', hwindow', rfl⟩ := (dispatchRequest_eq_some_iff hplain).1 hq
    obtain ⟨rfl, rfl⟩ := eq_of_mem_window hplain hmem hmem' hwindow hwindow'
    have hloc := (hall i).loc
    rw [hreturned] at hloc
    obtain ⟨r, hr, hanswer⟩ := hexclusive.exists_run hplain hera
      (hera tickAt htick date' refreshTime' hmem' hwindow') hloc.2.2 hraised
    refine ⟨r, ?_, hanswer⟩
    obtain ⟨r', hr'⟩ := List.length_eq_one_iff.1
      (Nat.le_antisymm hexclusive.length_runsFor_le (List.length_pos_of_mem hr))
    rw [hr'] at hr ⊢
    rw [List.mem_singleton.1 hr]

/-! ### A morning in Chicago -/

theorem plainTimes_chicago2026 : PlainTimes Reporting.chicago2026 := by
  intro date time hmem
  simp only [refreshTimes, List.mem_cons, List.not_mem_nil, or_false] at hmem
  unfold Zone.Plain Reporting.chicago2026 combine
  simp only [PlainAt, Reporting.hour, Reporting.day, and_true] at hmem ⊢
  omega

/-- July 15, 2026: the first instant of the morning's window, and noon. -/
def summerTicks : List ℤ := [20649 * Reporting.day + 12 * Reporting.hour, Reporting.summerNoon]

theorem inEra_summerTicks : ∀ tickAt ∈ summerTicks, InEra Reporting.chicago2026 tickAt := by
  intro tickAt htick date refreshTime hmem hwindow
  obtain ⟨rfl, hlate, -⟩ := (mem_window_iff plainTimes_chicago2026 hmem).1 hwindow
  simp only [summerTicks, List.mem_cons, List.not_mem_nil, or_false] at htick
  rcases htick with rfl | rfl <;> rcases mem_refreshTimes.1 hmem with rfl | rfl <;> decide

deriving instance DecidableEq for ScheduledRequest

/-- Nothing but the requests of ticks, with new ids. -/
def ticksOnly {ι : Type*} (zone : Zone) (ticks : List ℤ)
    (s : State ι (Requests β) EntryKey (RequestWrite β) RequestLoc) (l : ι × RequestChoice β) :
    Bool :=
  match l.2 with
  | .request (.scheduled q) => ticks.any fun tickAt => decide (dispatchRequest zone tickAt = some q)
  | .insert id => decide (id ∉ s.db.queue.runs.rows.map (·.id))
  | .worker (.call _) => false
  | _ => true

theorem ticks_of_ticksOnly {ι : Type*} {zone : Zone} {ticks : List ℤ}
    {s : State ι (Requests β) EntryKey (RequestWrite β) RequestLoc} {l : ι × RequestChoice β}
    (h : ticksOnly zone ticks s l = true) :
    Ticks (AskedBy zone {tickAt | tickAt ∈ ticks}) l.2 s.db := by
  unfold ticksOnly at h
  refine ⟨fun op hop => ?_, fun q hq => ?_, fun id hid => ?_⟩
  · rw [hop] at h
    cases h
  · rw [hq] at h
    obtain ⟨tickAt, htick, hdispatch⟩ := List.any_eq_true.1 h
    exact ⟨tickAt, htick, of_decide_eq_true hdispatch⟩
  · rw [hid] at h
    exact of_decide_eq_true h

/-- A tick, up to its `INSERT`. -/
def tick (i : Fin 2) (tickAt : ℤ) (id : UUID) : List (Fin 2 × RequestChoice Unit) :=
  ((dispatchRequest Reporting.chicago2026 tickAt).toList.map fun q =>
    (i, .request (.scheduled q))) ++ [(i, .insert id)]

/-- Two dispatchers tick in one window; the second waits for the first and finds its run. -/
theorem slot_is_enqueued_once_in_chicago :
    ∃ s, ((requests Unit).machine (Fin 2)).Run (fun s l =>
        Ticks (AskedBy Reporting.chicago2026 {tickAt | tickAt ∈ summerTicks}) l.2 s.db)
        (State.start noRequests fun _ => .worker (.idle none)) s ∧
      (s.db.runsFor (slotAt Reporting.chicago2026 20649 (7 * Reporting.hour))).map (·.id) = [1] ∧
      (s.db.runsFor (slotAt Reporting.chicago2026 20649 (7 * Reporting.hour))).length ≤ 1 := by
  obtain ⟨s, hs, hp⟩ := ((requests Unit).machine (Fin 2)).exists_run
    (ticksOnly Reporting.chicago2026 summerTicks)
    (State.start noRequests fun _ => .worker (.idle none))
    (tick 0 (20649 * Reporting.day + 12 * Reporting.hour) 1 ++ [(0, .ok)] ++
      tick 1 Reporting.summerNoon 2 ++ [(1, .ok)])
    (fun s => decide ((s.db.runsFor (slotAt Reporting.chicago2026 20649
      (7 * Reporting.hour))).map (·.id) = [1])) (by decide)
  have hrun := hs.mono fun _ _ hl => ticks_of_ticksOnly hl
  have hnone : ∀ r c, ¬noRequests.Scheduled r c := fun r c hs => by cases hs.mem
  exact ⟨s, hrun, of_decide_eq_true hp, (slot_is_enqueued_once plainTimes_chicago2026
    inEra_summerTicks hnone hrun 20649 (mem_refreshTimes.2 (.inl rfl))).1⟩

end Queue

end TrackFlow
