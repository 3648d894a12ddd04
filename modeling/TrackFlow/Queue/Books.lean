import TrackFlow.Queue.Fencing

/-!
# The books of a session

Four operations finish an attempt and one starts it.  A `Cell` is what the database says about one
run: its row and the numbers of its attempt rows.  A row write changes the cell of its own run only,
so the assertion about a session (`Books`) speaks of the cells of the runs it has locked, as the
session sees them: they are complete, but for the run whose attempt it has finished without having
inserted the row.

* `cell_installAll_of_not_about`, `cell_installAll_congr` : what writes do to a cell.
* `RunComplete` : the rows are the finished attempts, and the attempts are within `max_attempts`.
* `Operation.cases` : what the operations of a claimed run set.
* `books` : **the assertion about one session**, which relies on complete committed evidence.
-/

namespace TrackFlow

namespace Queue

open RowLock

variable {β : Type*}

/-- The number of attempts a run has finished. -/
def PipelineRun.finished (r : PipelineRun) : ℕ :=
  if r.status = .running then r.attempt - 1 else r.attempt

/-! ## The cell of a run -/

/-- What the database says about one run. -/
@[ext] structure Cell where
  run : Option PipelineRun
  /-- The attempts that have an evidence row. -/
  evidence : Set ℕ

/-- The cell of the run `id`. -/
def Db.cell (db : Db β) (id : UUID) : Cell where
  run := db.runs.lookup id
  evidence := { k | ∃ a ∈ db.attempts.rows, a.key = (id, k) }

/-- The run that a write is about. -/
def RowWrite.about : RowWrite β → Option UUID
  | .updateRun id _ => some id
  | .insertAttempt a => some a.runId
  | .publish _ => none

/-- What a write makes of the cell of its run. -/
def RowWrite.apply (c : Cell) : RowWrite β → Cell
  | .updateRun _ u => { c with run := c.run.map u.apply }
  | .insertAttempt a => { c with evidence := insert a.attempt c.evidence }
  | .publish _ => c

section Cells

variable {db db' : Db β} {w : RowWrite β} {ws : List (RowWrite β)} {id : UUID}

theorem lookup_install_updateRun (db : Db β) (id' : UUID) (u : RunUpdate) (id : UUID) :
    (RowWrite.install db (.updateRun id' u)).runs.lookup id =
      (db.runs.lookup id).map fun r => if r.id = id' then u.apply r else r := by
  have hid (r : PipelineRun) : (if r.id = id' then u.apply r else r).id = r.id := by
    split_ifs <;> simp
  exact Table.lookup_update _ _ hid id

theorem cell_install_of_about (h : w.about = some id) :
    (RowWrite.install db w).cell id = w.apply (db.cell id) := by
  cases w with
  | updateRun id' u =>
    cases h
    refine Cell.ext ((lookup_install_updateRun db id u id).trans ?_) rfl
    cases hr : db.runs.lookup id with
    | none => simp [RowWrite.apply, Db.cell, hr]
    | some r => simp [RowWrite.apply, Db.cell, hr, (Table.lookup_eq_some_iff.1 hr).2]
  | insertAttempt a =>
    cases h
    refine Cell.ext rfl ?_
    ext k
    change (∃ b ∈ ((db.attempts.insert a).getD db.attempts).rows, b.key = (a.runId, k)) ↔
      k = a.attempt ∨ ∃ b ∈ db.attempts.rows, b.key = (a.runId, k)
    cases hi : db.attempts.insert a with
    | none =>
      -- the attempt has a row already
      have hmem : a.key ∈ db.attempts.rows.map PipelineRunAttempt.key := by
        by_contra hno
        rw [Table.insert, dif_neg hno] at hi
        cases hi
      obtain ⟨b, hb, hkey⟩ := List.mem_map.1 hmem
      refine ⟨.inr, fun h => h.elim ?_ fun h => h⟩
      rintro rfl
      exact ⟨b, hb, hkey⟩
    | some attempts =>
      simp only [Option.getD_some, (Table.insert_eq_some hi).2, List.mem_append,
        List.mem_singleton]
      constructor
      · rintro ⟨b, hb | rfl, hkey⟩
        · exact .inr ⟨b, hb, hkey⟩
        · exact .inl (congrArg Prod.snd hkey).symm
      · rintro (rfl | ⟨b, hb, hkey⟩)
        · exact ⟨a, .inr rfl, rfl⟩
        · exact ⟨b, .inl hb, hkey⟩
  | publish write => cases h

theorem cell_install_of_not_about (h : w.about ≠ some id) :
    (RowWrite.install db w).cell id = db.cell id := by
  cases w with
  | updateRun id' u =>
    refine Cell.ext ((lookup_install_updateRun db id' u id).trans ?_) rfl
    change _ = db.runs.lookup id
    cases hr : db.runs.lookup id with
    | none => rfl
    | some r =>
      have hid : r.id ≠ id' := by
        rw [(Table.lookup_eq_some_iff.1 hr).2]
        rintro rfl
        exact h rfl
      simp [hid]
  | insertAttempt a =>
    refine Cell.ext rfl ?_
    ext k
    change (∃ b ∈ ((db.attempts.insert a).getD db.attempts).rows, b.key = (id, k)) ↔
      ∃ b ∈ db.attempts.rows, b.key = (id, k)
    cases hi : db.attempts.insert a with
    | none => rfl
    | some attempts =>
      simp only [Option.getD_some, (Table.insert_eq_some hi).2, List.mem_append,
        List.mem_singleton]
      constructor
      · rintro ⟨b, hb | rfl, hkey⟩
        · exact ⟨b, hb, hkey⟩
        · exact absurd (congrArg some (congrArg Prod.fst hkey)) h
      · rintro ⟨b, hb, hkey⟩
        exact ⟨b, .inl hb, hkey⟩
  | publish write => rfl

/-- An update of a run that meets its condition. -/
theorem apply_updateRun {c : Cell} {r : PipelineRun} {u : RunUpdate} (id : UUID)
    (hr : c.run = some r) (hu : u.cond r = true) :
    RowWrite.apply c (.updateRun (β := β) id u) = ⟨some (u.set r), c.evidence⟩ := by
  rw [RowWrite.apply, hr, Option.map_some, RunUpdate.apply, if_pos hu]

theorem cell_installAll_of_not_about (h : ∀ w ∈ ws, w.about ≠ some id) :
    ((protocol β).installAll db ws).cell id = db.cell id := by
  induction ws generalizing db with
  | nil => rfl
  | cons w ws ih =>
    exact (ih fun w' hw' => h w' (List.mem_cons_of_mem w hw')).trans
      (cell_install_of_not_about (h w List.mem_cons_self))

/-- What the writes make of a cell depends on nothing else. -/
theorem cell_installAll_congr (h : db.cell id = db'.cell id) :
    ((protocol β).installAll db ws).cell id = ((protocol β).installAll db' ws).cell id := by
  induction ws generalizing db db' with
  | nil => exact h
  | cons w ws ih =>
    refine ih ?_
    by_cases hw : w.about = some id
    · exact (cell_install_of_about hw).trans (h ▸ (cell_install_of_about hw).symm)
    · exact (cell_install_of_not_about hw).trans (h.trans (cell_install_of_not_about hw).symm)

theorem installAll_append (ws ws' : List (RowWrite β)) :
    (protocol β).installAll db (ws ++ ws') =
      (protocol β).installAll ((protocol β).installAll db ws) ws' :=
  List.foldl_append

/-- A write locks the run it is about. -/
theorem mem_guard_of_about (h : w.about = some id) : RowKey.run id ∈ w.guard := by
  cases w <;> cases h <;> simp [RowWrite.guard]

end Cells

/-! ## Complete evidence -/

/-- A run is within its attempts: it is tried again only below `max_attempts`. -/
def Within (M : ℕ) (r : PipelineRun) : Prop :=
  match r.status with
  | .requested => r.attempt < M
  | .retryable => r.attempt < M
  | .running => 1 ≤ r.attempt ∧ r.attempt ≤ M
  | .succeeded => r.attempt ≤ M
  | .failed => r.attempt ≤ M

/-- The evidence rows are the finished attempts. -/
structure RunComplete (M : ℕ) (r : PipelineRun) (evidence : Set ℕ) : Prop where
  evidence_iff : ∀ k, k ∈ evidence ↔ 1 ≤ k ∧ k ≤ r.finished
  within : Within M r

/-- The attempt `n` has been finished, and its evidence row is still missing. -/
structure Owing (M : ℕ) (n : ℕ) (c : Cell) : Prop where
  exists_run : ∃ r, c.run = some r ∧ r.attempt = n ∧ r.status ≠ .running ∧ Within M r
  pos : 1 ≤ n
  evidence_iff : ∀ k, k ∈ c.evidence ↔ 1 ≤ k ∧ k < n

/-- The evidence of the run of a cell, if there is one, is complete. -/
def Cell.Complete (M : ℕ) (c : Cell) : Prop := ∀ r, c.run = some r → RunComplete M r c.evidence

/-- The evidence of every run is complete. -/
def Complete (M : ℕ) (db : Db β) : Prop := ∀ id, (db.cell id).Complete M

/-- The run of a cell is running with the token `token`, at its attempt `n`. -/
def Cell.Active (token : UUID) (n : ℕ) (c : Cell) : Prop :=
  ∃ r, c.run = some r ∧ r.status = .running ∧ r.claimToken = some token ∧ r.attempt = n

section Complete

variable {M n : ℕ} {r r' : PipelineRun} {c : Cell} {E : Set ℕ} {token : UUID}

/-- A change of other columns. -/
theorem RunComplete.congr (h : RunComplete M r E) (hs : r'.status = r.status)
    (ha : r'.attempt = r.attempt) : RunComplete M r' E := by
  refine ⟨fun k => ?_, ?_⟩
  · rw [h.evidence_iff, PipelineRun.finished, PipelineRun.finished, hs, ha]
  · have := h.within
    rwa [Within, ← hs, ← ha] at this

/-- The start of an attempt. -/
theorem RunComplete.start (h : RunComplete M r E)
    (hr : r.status = .requested ∨ r.status = .retryable) (hs : r'.status = .running)
    (ha : r'.attempt = r.attempt + 1) : RunComplete M r' E := by
  have hlt : r.attempt < M := by
    have := h.within
    rcases hr with hr | hr <;> simpa [Within, hr] using this
  have hf : r.finished = r.attempt := by
    rcases hr with hr | hr <;> simp [PipelineRun.finished, hr]
  refine ⟨fun k => ?_, ?_⟩
  · rw [h.evidence_iff, hf, PipelineRun.finished, if_pos hs, ha, Nat.add_sub_cancel]
  · simp only [Within, hs, ha]
    omega

/-- The end of an attempt, without its evidence. -/
theorem RunComplete.owing (h : RunComplete M r E) (hr : r.status = .running)
    (hs : r'.status ≠ .running) (ha : r'.attempt = r.attempt) (hw : Within M r') :
    Owing M r.attempt ⟨some r', E⟩ := by
  have hpos : 1 ≤ r.attempt := by
    have := h.within
    simp only [Within, hr] at this
    exact this.1
  refine ⟨⟨r', rfl, ha, hs, hw⟩, hpos, fun k => ?_⟩
  rw [h.evidence_iff, PipelineRun.finished, if_pos hr]
  omega

/-- The evidence of the attempt. -/
theorem Owing.complete (h : Owing M n c) :
    Cell.Complete M { c with evidence := insert n c.evidence } := by
  intro r hr
  obtain ⟨r', hr', ha, hs, hw⟩ := h.exists_run
  obtain rfl : r' = r := Option.some.inj (hr'.symm.trans hr)
  refine ⟨fun k => ?_, hw⟩
  have hpos := h.pos
  rw [Set.mem_insert_iff, h.evidence_iff, PipelineRun.finished, if_neg hs, ha]
  omega

theorem Owing.not_active (h : Owing M n c) {k : ℕ} : ¬ c.Active token k := by
  rintro ⟨r, hr, hs, -⟩
  obtain ⟨r', hr', -, hs', -⟩ := h.exists_run
  obtain rfl : r' = r := Option.some.inj (hr'.symm.trans hr)
  exact hs' hs

end Complete

/-! ## The operations of a claimed run -/

/-- The operations of a claimed run, called with `max_attempts = M`. -/
inductive Operation (M : ℕ) : Transition → Prop
  | heartbeat (claim : RunClaim) (now leaseSeconds : ℕ) :
    Operation M (heartbeat claim now leaseSeconds)
  | recordStage {claim : RunClaim} {stage : Stage} {now : ℕ} {t : Transition}
    (h : recordStage claim stage now = .ok t) : Operation M t
  | finalizeSuccess (claim : RunClaim) (metrics : RunMetrics) (now : ℕ)
    (buildSha : Option String) : Operation M (finalizeSuccess claim metrics now buildSha)
  | releaseRetryable (claim : RunClaim) (code : ErrorCode) (now backoffSeconds : ℕ)
    (stage : Option Stage) (errorType buildSha : Option String) :
    Operation M (releaseRetryable claim code now M backoffSeconds stage errorType buildSha)
  | finalizeFailure (claim : RunClaim) (code : ErrorCode) (now : ℕ) (stage : Option Stage)
    (errorType buildSha : Option String) :
    Operation M (finalizeFailure claim code now stage errorType buildSha)

/-- `r'` ends the attempt of the running row `r`. -/
def Ends (M : ℕ) (r r' : PipelineRun) : Prop :=
  r'.status ≠ .running ∧ r'.attempt = r.attempt ∧ (Within M r → Within M r')

theorem ends_giveUp {M now n backoffSeconds : ℕ} {code : ErrorCode} {r : PipelineRun}
    (hr : r.status = .running) (hn : r.attempt = n) :
    Ends M r (giveUp now n M backoffSeconds code r) := by
  subst hn
  by_cases h : M ≤ r.attempt
  · refine ⟨by simp [giveUp, h], rfl, fun hw => ?_⟩
    simp only [Within, hr] at hw
    simpa [Within, giveUp, h] using hw.2
  · refine ⟨by simp [giveUp, h], rfl, fun _ => ?_⟩
    simp only [Within, giveUp, h, decide_false, Bool.false_eq_true, if_false]
    exact Nat.lt_of_not_le h

/-- What an operation sets: it keeps the status, the attempt and the token and records nothing, or
it ends the attempt of its claim and has evidence. -/
theorem Operation.cases {M : ℕ} {t : Transition} (h : Operation M t) :
    (t.evidence = none ∧ ∀ r, (t.set r).status = r.status ∧ (t.set r).attempt = r.attempt ∧
      (t.set r).claimToken = r.claimToken) ∨
    ∃ e, t.evidence = some e ∧
      ∀ r, r.status = .running → r.attempt = t.claim.attempt → Ends M r (t.set r) := by
  cases h with
  | heartbeat => exact .inl ⟨rfl, fun _ => ⟨rfl, rfl, rfl⟩⟩
  | @recordStage claim stage now _ h =>
    unfold Queue.recordStage at h
    split_ifs at h
    cases h
    exact .inl ⟨rfl, fun _ => ⟨rfl, rfl, rfl⟩⟩
  | finalizeSuccess claim metrics now buildSha =>
    refine .inr ⟨_, rfl, fun r hr _ => ⟨by simp [Queue.finalizeSuccess], rfl, fun hw => ?_⟩⟩
    simp only [Within, hr] at hw
    exact hw.2
  | releaseRetryable => exact .inr ⟨_, rfl, fun r hr hn => ends_giveUp hr hn⟩
  | finalizeFailure claim code now stage errorType buildSha =>
    refine .inr ⟨_, rfl, fun r hr _ => ⟨by simp [Queue.finalizeFailure, fail], rfl, fun hw => ?_⟩⟩
    simp only [Within, hr] at hw
    exact hw.2

/-- An operation that may be called with `max_attempts = M`. -/
def Op.Proper (M : ℕ) : Op → Prop
  | .transition t => Operation M t
  | .recoverStaleRuns q => q.maxAttempts = M
  | _ => True

/-! ## The books of a session -/

/-- The run whose attempt the session has finished without having inserted the evidence. -/
def Loc.owes : Loc → Option UUID
  | .claiming _ (.rejected row) => some row.id
  | .transitioning t (.updated _) => some t.claim.runId
  | .sweeping _ (.recording row _ _) => some row.id
  | _ => none

/-- The token, the run and the attempt of a claim that is being made. -/
def Loc.starts : Loc → Option (UUID × UUID × ℕ)
  | .claiming q (.claimed row) => some (q.token, row.id, row.attempt)
  | .claiming q (.resolving row _) => some (q.token, row.id, row.attempt)
  | .claiming _ (.finishing (some c)) => some (c.claimToken, c.runId, c.attempt)
  | _ => none

/-- The row is locked, and as the session has read it. -/
def Fresh (held : RowKey → Prop) (view : Db β) (row : PipelineRun) : Prop :=
  held (.run row.id) ∧ (view.cell row.id).run = some row ∧ row.status = .running

/-- What the next statement relies on. -/
def BooksAt (M : ℕ) (held : RowKey → Prop) (view : Db β) : Loc → Prop
  | .claiming q (.claimed row) => Fresh held view row ∧ row.claimToken = some q.token
  | .claiming q (.resolving row _) => Fresh held view row ∧ row.claimToken = some q.token
  | .claiming _ (.rejected row) =>
    held (.run row.id) ∧ Owing M row.attempt (view.cell row.id)
  | .claiming q (.finishing (some c)) => c.claimToken = q.token
  | .transitioning t .start => Operation M t
  | .transitioning t (.updated _) =>
    held (.run t.claim.runId) ∧ Owing M t.claim.attempt (view.cell t.claim.runId)
  | .sweeping q .start => q.maxAttempts = M
  | .sweeping q (.sweeping rows _) =>
    q.maxAttempts = M ∧ (rows.map PipelineRun.id).Nodup ∧ ∀ r ∈ rows, Fresh held view r
  | .sweeping q (.recording row rows _) =>
    q.maxAttempts = M ∧ ((row :: rows).map PipelineRun.id).Nodup ∧ held (.run row.id) ∧
      Owing M row.attempt (view.cell row.id) ∧ ∀ r ∈ rows, Fresh held view r
  | _ => True

/-- The books of a session: the runs it has locked, as it sees them. -/
structure Books (M : ℕ) (a : Loc) (ws : List (RowWrite β)) (held : RowKey → Prop) (db : Db β) :
    Prop where
  /-- Their evidence is complete, but for the one that the session owes. -/
  settled : ∀ id, held (.run id) → a.owes ≠ some id →
    (((protocol β).installAll db ws).cell id).Complete M
  /-- None of them has got a token, but for the one that is being claimed. -/
  active : ∀ id token n, held (.run id) →
    (((protocol β).installAll db ws).cell id).Active token n →
      (db.cell id).Active token n ∨ a.starts = some (token, id, n)
  pc : BooksAt M held ((protocol β).installAll db ws) a

section Books

variable {M : ℕ} {a a' : Loc} {db db' : Db β} {ws ws' : List (RowWrite β)} {w : RowWrite β}
  {held held' : RowKey → Prop} {id : UUID}

/-- Before the first write the books are those of the database. -/
theorem Books.of_complete (h : Complete M db) (hpc : BooksAt M held db a) :
    Books M a ([] : List (RowWrite β)) held db :=
  ⟨fun id _ _ => h id, fun _ _ _ _ ha => .inl ha, hpc⟩

/-- A statement that writes nothing. -/
theorem Books.goto (h : Books M a ws held db) (howes : a.owes = a'.owes)
    (hstarts : a.starts = a'.starts) (hpc : BooksAt M held ((protocol β).installAll db ws) a') :
    Books M a' ws held db :=
  ⟨fun id hk ho => h.settled id hk (howes ▸ ho),
    fun id token n hk ha => hstarts ▸ h.active id token n hk ha, hpc⟩

/-- A write to one run. -/
theorem Books.write (h : Books M a ws held db) (hw : w.about = some id)
    (howes : ∀ id', a.owes = some id' → id' = id)
    (hstarts : ∀ token id' n, a.starts = some (token, id', n) → id' = id)
    (hsettled : a'.owes ≠ some id →
      (w.apply (((protocol β).installAll db ws).cell id)).Complete M)
    (hactive : ∀ token n, (w.apply (((protocol β).installAll db ws).cell id)).Active token n →
      (((protocol β).installAll db ws).cell id).Active token n ∧ a'.starts = a.starts ∨
        a'.starts = some (token, id, n))
    (hpc : BooksAt M held (RowWrite.install ((protocol β).installAll db ws) w) a') :
    Books M a' (ws ++ [w]) held db := by
  have hview : (protocol β).installAll db (ws ++ [w]) =
      RowWrite.install ((protocol β).installAll db ws) w := installAll_append ws [w]
  refine ⟨fun id' hk ho => ?_, fun id' token n hk ha => ?_, hview ▸ hpc⟩
  · rw [hview]
    by_cases hid : id' = id
    · subst hid
      rw [cell_install_of_about hw]
      exact hsettled ho
    · rw [cell_install_of_not_about fun h' => hid (Option.some.inj (h'.symm.trans hw))]
      exact h.settled id' hk fun ho' => hid (howes id' ho')
  · rw [hview] at ha
    by_cases hid : id' = id
    · subst hid
      rw [cell_install_of_about hw] at ha
      rcases hactive token n ha with ⟨ha', hs⟩ | hs
      · exact (h.active id' token n hk ha').imp_right fun hs' => hs.trans hs'
      · exact .inr hs
    · rw [cell_install_of_not_about fun h' => hid (Option.some.inj (h'.symm.trans hw))] at ha
      exact (h.active id' token n hk ha).imp_right fun hs => absurd (hstarts token id' n hs) hid

/-- A write that is about no run. -/
theorem Books.write_apart (h : Books M a ws held db) (hw : ∀ w ∈ ws', w.about = none)
    (howes : a.owes = a'.owes) (hstarts : a.starts = a'.starts)
    (hpc : BooksAt M held ((protocol β).installAll db (ws ++ ws')) a') :
    Books M a' (ws ++ ws') held db := by
  have hcell (id : UUID) : ((protocol β).installAll db (ws ++ ws')).cell id =
      ((protocol β).installAll db ws).cell id := by
    rw [installAll_append]
    exact cell_installAll_of_not_about fun w hw' h' => by
      rw [hw w hw'] at h'
      cases h'
  refine ⟨fun id hk ho => ?_, fun id token n hk ha => ?_, hpc⟩
  · rw [hcell]
    exact h.settled id hk (howes ▸ ho)
  · rw [hcell] at ha
    exact hstarts ▸ h.active id token n hk ha

/-- What the next statement relies on is about the cells of locked runs. -/
theorem BooksAt.congr (hcell : ∀ id, held (.run id) → db.cell id = db'.cell id)
    (h : BooksAt M held db a) : BooksAt M held db' a := by
  have hfresh {r : PipelineRun} (hr : Fresh held db r) : Fresh held db' r :=
    ⟨hr.1, hcell r.id hr.1 ▸ hr.2.1, hr.2.2⟩
  cases a with
  | idle => exact trivial
  | claiming q pc =>
    cases pc with
    | claimed row => exact ⟨hfresh h.1, h.2⟩
    | resolving row lastResetAt => exact ⟨hfresh h.1, h.2⟩
    | rejected row => exact ⟨h.1, hcell row.id h.1 ▸ h.2⟩
    | finishing result => cases result <;> exact h
    | _ => exact trivial
  | transitioning t pc =>
    cases pc with
    | start => exact h
    | updated e => exact ⟨h.1, hcell _ h.1 ▸ h.2⟩
    | finishing owned => exact trivial
  | publishing claim pc => exact trivial
  | sweeping q pc =>
    cases pc with
    | start => exact h
    | sweeping rows n => exact ⟨h.1, h.2.1, fun r hr => hfresh (h.2.2 r hr)⟩
    | recording row rows n =>
      obtain ⟨hM, hnodup, hk, howing, hrows⟩ := h
      exact ⟨hM, hnodup, hk, hcell _ hk ▸ howing, fun r hr => hfresh (hrows r hr)⟩

/-- Commits of other sessions leave the locked cells as they are. -/
theorem Books.stable (hws : ∀ w ∈ ws', ∀ k ∈ w.guard, ¬ held k) (h : Books M a ws held db) :
    Books M a ws held ((protocol β).installAll db ws') := by
  have hcell (id : UUID) (hk : held (.run id)) :
      db.cell id = ((protocol β).installAll db ws').cell id :=
    (cell_installAll_of_not_about fun w hw h' => hws w hw _ (mem_guard_of_about h') hk).symm
  have hview (id : UUID) (hk : held (.run id)) : ((protocol β).installAll db ws).cell id =
      ((protocol β).installAll ((protocol β).installAll db ws') ws).cell id :=
    cell_installAll_congr (hcell id hk)
  refine ⟨fun id hk ho => hview id hk ▸ h.settled id hk ho, fun id token n hk ha => ?_,
    h.pc.congr hview⟩
  rw [← hcell id hk]
  exact h.active id token n hk (hview id hk ▸ ha)

end Books

/-! ## Statements of the session itself -/

section Step

variable {M : ℕ} {db : Db β} {ws : List (RowWrite β)} {held : RowKey → Prop}
  {busy : RowKey → Bool} {c : Choice β} {o : Outcome RowKey (RowWrite β) Loc}

/-- What a session may rely on: the committed evidence is complete, the attempt of a claim is the
attempt of the run it owns, and operations are called with `max_attempts = M`. -/
def Reliable (M : ℕ) (a : Loc) (c : Choice β) (db : Db β) : Prop :=
  Complete M db ∧
    (∀ t pc, a = .transitioning t pc →
      ∀ r ∈ db.runs.rows, t.claim.owns r = true → r.attempt = t.claim.attempt) ∧
    ∀ op, c = .call op → op.Proper M

theorem books_released {r : Option Result} :
    Books M (.idle r) ([] : List (RowWrite β)) (fun _ => False) db :=
  ⟨fun _ hk => hk.elim, fun _ _ _ hk => hk.elim, trivial⟩

theorem leadsTo_books_lock {a : Loc} {ks : List RowKey} {view : Db β} (h : Complete M db)
    (hpc : BooksAt M (fun k => held k ∨ k ∈ ks) db a) :
    (Outcome.proceed ks [] a).LeadsTo (Books M) ([] : List (RowWrite β)) held db view :=
  .of_complete h hpc

theorem leadsTo_books_proceed {a : Loc} {ws₁ : List (RowWrite β)} {view : Db β}
    (h : Books M a (ws ++ ws₁) held db) :
    (Outcome.proceed [] ws₁ a).LeadsTo (Books M) ws held db view := by
  simpa only [Outcome.LeadsTo, List.not_mem_nil, or_false] using h

/-- A write to one run leaves the other rows as the session has read them. -/
theorem Fresh.install {view : Db β} {w : RowWrite β} {r : PipelineRun} {id : UUID}
    (h : Fresh held view r) (hw : w.about = some id) (hid : r.id ≠ id) :
    Fresh held (RowWrite.install view w) r := by
  refine ⟨h.1, ?_, h.2.2⟩
  rw [cell_install_of_not_about fun h' => hid (Option.some.inj (h'.symm.trans hw))]
  exact h.2.1

/-- `_record_attempt` pays what the session owes. -/
theorem leadsTo_books_record {a a' : Loc} {id : UUID} {n : ℕ} {e : Evidence}
    (h : Books M a ws held db) (howes : ∀ id', a.owes = some id' → id' = id)
    (hstarts : a.starts = none)
    (howing : Owing M n (((protocol β).installAll db ws).cell id))
    (hpc : ∀ w : RowWrite β, w.about = some id →
      BooksAt M held (RowWrite.install ((protocol β).installAll db ws) w) a') :
    (recordOutcome (recordAttempt ((protocol β).installAll db ws) id n e) a').LeadsTo (Books M)
      ws held db ((protocol β).installAll db ws) := by
  obtain ⟨r, hr, -⟩ := howing.exists_run
  have hpos := howing.pos
  have hid : r.id = id := (Table.lookup_eq_some_iff.1 hr).2
  have hrecord : recordAttempt ((protocol β).installAll db ws) id n e =
      some [.insertAttempt (attemptRow r n e)] := by
    change ((protocol β).installAll db ws).runs.lookup id = some r at hr
    rw [recordAttempt, hr]
    exact if_neg (by omega)
  have habout : (RowWrite.insertAttempt (β := β) (attemptRow r n e)).about = some id :=
    congrArg some hid
  rw [hrecord]
  refine leadsTo_books_proceed (h.write habout howes ?_ (fun _ => howing.complete) ?_
    (hpc _ habout))
  · intro token id' k hs
    rw [hstarts] at hs
    cases hs
  · exact fun token k ha => absurd ha howing.not_active

/-- The claim of an eligible run, as `claim_next` updates it. -/
theorem books_claimed {q : ClaimRequest} {row : PipelineRun} (hdb : Complete M db)
    (hrow : (db.cell row.id).run = some row) (hel : q.eligible row = true)
    (hk : held (.run row.id)) :
    Books M (.claiming q (.claimed (q.update.apply row))) [.updateRun row.id q.update] held db := by
  have hstatus : row.status = .requested ∨ row.status = .retryable := by
    simp only [ClaimRequest.eligible, Bool.and_eq_true, Bool.or_eq_true, decide_eq_true_eq] at hel
    exact hel.2.imp_right fun h => h.1
  have hcond : q.update.cond row = true := decide_eq_true (eligible_iff hel).1
  have happly : q.update.apply row = q.update.set row := if_pos hcond
  have hupdate := apply_updateRun (β := β) row.id hrow hcond
  have hcomplete := hdb row.id row hrow
  refine (Books.of_complete (a := .idle none) hdb trivial).write rfl (by simp [Loc.owes])
    (by simp [Loc.starts]) (fun _ => ?_) ?_ ?_
  · change (RowWrite.apply (db.cell row.id) _).Complete M
    rw [hupdate]
    intro r hr
    obtain rfl := Option.some.inj hr
    exact hcomplete.start hstatus rfl rfl
  · intro token n hactive
    change (RowWrite.apply (db.cell row.id) _).Active token n at hactive
    rw [hupdate] at hactive
    obtain ⟨r, hr, -, ht, ha⟩ := hactive
    obtain rfl := Option.some.inj hr
    refine .inr ?_
    rw [Loc.starts, happly, ← ha, ← Option.some.inj ht]
    rfl
  · refine ⟨⟨?_, ?_, by rw [happly]; rfl⟩, by rw [happly]; rfl⟩
    · rw [RunUpdate.id_apply]
      exact hk
    · rw [RunUpdate.id_apply, cell_install_of_about rfl]
      exact congrArg (Option.map _) hrow

theorem starts_resolving {q : ClaimRequest} {row : PipelineRun} {lastResetAt : Option ℕ}
    {token id : UUID} {n : ℕ}
    (h : Loc.starts (.claiming q (.resolving row lastResetAt)) = some (token, id, n)) :
    id = row.id := by
  simp only [Loc.starts, Option.some.injEq, Prod.mk.injEq] at h
  exact h.2.1.symm

/-- The target weeks of a claim. -/
theorem Books.target {q : ClaimRequest} {row : PipelineRun} {lastResetAt : Option ℕ}
    (h : Books M (.claiming q (.resolving row lastResetAt)) ws held db) (weeks : List ℕ) :
    Books M (.claiming q (.finishing (some (q.claim row weeks))))
      (ws ++ [.updateRun row.id (setTargetWeeks weeks)]) held db := by
  obtain ⟨⟨hk, hrow, -⟩, ht⟩ := h.pc
  have hcomplete := h.settled row.id hk (by simp [Loc.owes]) row hrow
  have hcell := apply_updateRun (β := β) (u := setTargetWeeks weeks) row.id hrow rfl
  refine h.write rfl (by simp [Loc.owes]) (fun _ _ _ => starts_resolving) ?_ ?_ rfl
  · intro _ r hr
    rw [hcell] at hr ⊢
    obtain rfl := Option.some.inj hr
    exact hcomplete.congr rfl rfl
  · intro token n hactive
    rw [hcell] at hactive
    obtain ⟨r, hr, -, ht', ha⟩ := hactive
    obtain rfl := Option.some.inj hr
    refine .inr ?_
    have htoken : token = q.token := Option.some.inj (ht'.symm.trans ht)
    rw [htoken, ← ha]
    rfl

/-- A claim without target weeks is given up. -/
theorem Books.reject {q : ClaimRequest} {row : PipelineRun} {lastResetAt : Option ℕ}
    (h : Books M (.claiming q (.resolving row lastResetAt)) ws held db) :
    Books M (.claiming q (.rejected row))
      (ws ++ (q.reject row).writes ((protocol β).installAll db ws)) held db := by
  obtain ⟨⟨hk, hrow, hs⟩, ht⟩ := h.pc
  have hcomplete := h.settled row.id hk (by simp [Loc.owes]) row hrow
  have howns : (q.reject row).claim.owns row = true := RunClaim.owns_iff.2 ⟨rfl, ht, hs⟩
  have howned : (q.reject row).claim.Owned ((protocol β).installAll db ws).runs :=
    ⟨row, (Table.lookup_eq_some_iff.1 hrow).1, howns⟩
  have hcell := apply_updateRun (β := β) (u := (q.reject row).update) row.id hrow howns
  have howing : Owing M row.attempt ⟨some ((q.reject row).set row),
      (((protocol β).installAll db ws).cell row.id).evidence⟩ := by
    refine hcomplete.owing hs (by simp [ClaimRequest.reject, fail]) rfl ?_
    have hw := hcomplete.within
    simp only [Within, hs] at hw
    exact hw.2
  rw [Transition.writes, if_pos howned]
  refine h.write rfl (by simp [Loc.owes]) (fun _ _ _ => starts_resolving)
    (fun hne => absurd rfl hne) ?_ ⟨hk, ?_⟩
  · intro token n ha
    refine absurd ha ?_
    rw [show (q.reject row).claim.runId = row.id from rfl, hcell]
    exact howing.not_active
  · rw [cell_install_of_about (show RowWrite.about _ = some row.id from rfl)]
    exact hcell ▸ howing

theorem claim_books {q : ClaimRequest} {pc : ClaimPc} (hdb : Complete M db)
    (hsound : Sound (.claiming q pc) ws held db) (h : Books M (.claiming q pc) ws held db)
    (he : claimExec q busy ((protocol β).installAll db ws) pc c = some o) :
    o.LeadsTo (Books M) ws held db ((protocol β).installAll db ws) := by
  obtain ⟨-, -, hat⟩ := hsound
  unfold claimExec at he
  split at he
  · -- the candidate
    obtain rfl : ws = [] := hat
    split at he
    · cases he
    · split_ifs at he
      cases he
      exact leadsTo_books_lock hdb trivial
  · -- no candidate
    obtain rfl : ws = [] := hat
    split_ifs at he
    cases he
    exact leadsTo_books_lock hdb trivial
  · -- the update
    rename_i id
    obtain ⟨rfl, hk, r, hr, rfl, hel⟩ := hat
    split at he
    · cases he
    · rename_i row hrow
      obtain ⟨hr', hid⟩ := Table.lookup_eq_some_iff.1 hrow
      obtain rfl : row = r := db.runs.eq_of_key_eq hr' hr hid
      split_ifs at he
      · cases he
        exact .of_complete hdb trivial
      · cases he
        exact books_claimed hdb hrow hel (.inl hk)
  · -- the reset boundary
    rename_i row
    cases he
    have hgoto : Books M (.claiming q (.resolving row
        ((protocol β).installAll db ws).lastResetAt)) ws held db := h.goto rfl rfl h.pc
    exact leadsTo_books_proceed (by rwa [List.append_nil])
  · -- the target weeks
    split at he
    · cases he
      exact leadsTo_books_proceed (h.target _)
    · cases he
      exact leadsTo_books_proceed h.reject
    · cases he
      exact .of_complete hdb trivial
  · -- the evidence of a rejected request
    split at he
    · cases he
    · cases he
      obtain ⟨hk, howing⟩ := h.pc
      exact leadsTo_books_record h (fun id' ho => (Option.some.inj ho).symm) rfl howing
        fun _ _ => trivial
  · cases he
    exact books_released
  · cases he

theorem transition_books {t : Transition} {pc : TransitionPc} (hdb : Complete M db)
    (hclaim : ∀ r ∈ db.runs.rows, t.claim.owns r = true → r.attempt = t.claim.attempt)
    (hsound : Sound (.transitioning t pc) ws held db) (h : Books M (.transitioning t pc) ws held db)
    (he : transitionExec t ((protocol β).installAll db ws) pc c = some o) :
    o.LeadsTo (Books M) ws held db ((protocol β).installAll db ws) := by
  obtain ⟨-, -, hat⟩ := hsound
  unfold transitionExec at he
  split at he
  · -- the fenced update
    obtain rfl : ws = [] := hat
    have hop : Operation M t := h.pc
    split_ifs at he with ho
    · cases he
      obtain ⟨r, hr, howns⟩ := id ho
      obtain ⟨hid, ht, hs⟩ := RunClaim.owns_iff.1 howns
      have hcell : (db.cell t.claim.runId).run = some r := Table.lookup_eq_some_iff.2 ⟨hr, hid⟩
      have hupdate := apply_updateRun (β := β) (u := t.update) t.claim.runId hcell howns
      have hcomplete := hdb _ r hcell
      rw [Transition.writes, if_pos ho]
      rcases hop.cases with ⟨hnone, hset⟩ | ⟨e, hsome, hset⟩
      · obtain ⟨hs', ha', ht'⟩ := hset r
        simp only [hnone]
        refine (Books.of_complete (a := .idle none) hdb trivial).write rfl
          (by simp [Loc.owes]) (by simp [Loc.starts]) (fun _ => ?_) ?_ trivial
        · change (RowWrite.apply (db.cell t.claim.runId) _).Complete M
          rw [hupdate]
          rintro r₁ hr₁
          obtain rfl := Option.some.inj hr₁
          exact hcomplete.congr hs' ha'
        · intro token n hactive
          change (RowWrite.apply (db.cell t.claim.runId) _).Active token n at hactive
          rw [hupdate] at hactive
          obtain ⟨r₁, hr₁, hs₁, ht₁, ha₁⟩ := hactive
          obtain rfl := Option.some.inj hr₁
          exact .inl ⟨⟨r, hcell, hs, ht'.symm.trans ht₁, ha'.symm.trans ha₁⟩, rfl⟩
      · have hattempt := hclaim r hr howns
        obtain ⟨hs', ha', hw⟩ := hset r hs hattempt
        have howing := hcomplete.owing hs hs' ha' (hw hcomplete.within)
        rw [hattempt] at howing
        simp only [hsome]
        refine (Books.of_complete (a := .idle none) hdb trivial).write rfl
          (by simp [Loc.owes]) (by simp [Loc.starts]) (fun hne => absurd rfl hne) ?_
          ⟨.inr (List.mem_singleton.2 rfl), ?_⟩
        · intro token n hactive
          change (RowWrite.apply (db.cell t.claim.runId) _).Active token n at hactive
          rw [hupdate] at hactive
          exact absurd hactive howing.not_active
        · rw [cell_install_of_about (show RowWrite.about _ = some t.claim.runId from rfl)]
          exact hupdate ▸ howing
    · cases he
      exact leadsTo_books_lock hdb trivial
  · -- the evidence
    cases he
    obtain ⟨hk, howing⟩ := h.pc
    exact leadsTo_books_record h (fun id' ho => (Option.some.inj ho).symm) rfl howing
      fun _ _ => trivial
  · cases he
    exact books_released
  · cases he

theorem publish_books {claim : RunClaim} {pc : PublishPc} (hdb : Complete M db)
    (hsound : Sound (.publishing claim pc) ws held db)
    (h : Books M (.publishing claim pc) ws held db)
    (he : publishExec claim ((protocol β).installAll db ws) pc c = some o) :
    o.LeadsTo (Books M) ws held db ((protocol β).installAll db ws) := by
  obtain ⟨-, -, hat⟩ := hsound
  unfold publishExec at he
  split at he
  · obtain rfl : ws = [] := hat
    split_ifs at he
    · cases he
      exact leadsTo_books_lock hdb trivial
    · cases he
      exact .of_complete hdb trivial
  · cases he
    exact leadsTo_books_proceed (h.write_apart (by simp [RowWrite.about]) rfl rfl trivial)
  · cases he
    exact books_released
  · cases he

theorem sweep_books {q : SweepRequest} {pc : SweepPc} (hdb : Complete M db)
    (hsound : Sound (.sweeping q pc) ws held db) (h : Books M (.sweeping q pc) ws held db)
    (he : sweepExec q busy ((protocol β).installAll db ws) pc c = some o) :
    o.LeadsTo (Books M) ws held db ((protocol β).installAll db ws) := by
  obtain ⟨-, -, hat⟩ := hsound
  unfold sweepExec at he
  split at he
  · -- the expired leases
    obtain rfl : ws = [] := hat
    cases he
    have hM : q.maxAttempts = M := h.pc
    refine leadsTo_books_lock hdb ⟨hM, ?_, fun r hr => ?_⟩
    · exact db.runs.nodup.sublist (List.filter_sublist.map _)
    · obtain ⟨hmem, hstale⟩ := List.mem_filter.1 hr
      simp only [Bool.and_eq_true, SweepRequest.stale, decide_eq_true_eq] at hstale
      exact ⟨.inr (List.mem_map_of_mem hr), Table.lookup_eq_some_iff.2 ⟨hmem, rfl⟩,
        hstale.1.1.2⟩
  · cases he
    exact books_released
  · -- the update of the next row
    rename_i row rows n
    cases he
    obtain ⟨hM, hnodup, hrows⟩ := h.pc
    obtain ⟨hk, hrow, hs⟩ := hrows row List.mem_cons_self
    have hcomplete := h.settled row.id hk (by simp [Loc.owes]) row hrow
    have hupdate := apply_updateRun (β := β) (u := q.update row) row.id hrow (decide_eq_true hs)
    obtain ⟨hs', ha', hw⟩ : Ends M row ((q.update row).set row) := by
      subst hM
      exact ends_giveUp hs rfl
    have howing := hcomplete.owing hs hs' ha' (hw hcomplete.within)
    refine leadsTo_books_proceed (h.write rfl (by simp [Loc.owes])
      (by simp [Loc.starts]) (fun hne => absurd rfl hne) ?_ ⟨hM, hnodup, hk, ?_, fun r hr => ?_⟩)
    · intro token k hactive
      rw [hupdate] at hactive
      exact absurd hactive howing.not_active
    · rw [cell_install_of_about (show RowWrite.about _ = some row.id from rfl)]
      exact hupdate ▸ howing
    · refine (hrows r (List.mem_cons_of_mem _ hr)).install rfl fun hid => ?_
      exact (List.nodup_cons.1 hnodup).1 (hid ▸ List.mem_map_of_mem hr)
  · -- its evidence
    rename_i row rows n
    obtain ⟨hM, hnodup, hk, howing, hrows⟩ := h.pc
    obtain ⟨hnot, hnodup'⟩ := List.nodup_cons.1 hnodup
    split_ifs at he
    · cases he
      exact .of_complete hdb trivial
    · cases he
      refine leadsTo_books_record h (fun id' ho => (Option.some.inj ho).symm) rfl howing
        fun w hw => ⟨hM, hnodup', fun r hr => ?_⟩
      exact (hrows r hr).install hw fun hid => hnot (hid ▸ List.mem_map_of_mem hr)
  · cases he

end Step

/-- The queue keeps the books. -/
def books (M : ℕ) (β : Type*) : Assertion (protocol β) RowWrite.guard (Reliable M) where
  holds a ws held db := Sound a ws held db ∧ Books M a ws held db
  guarded h := h.1.1.guarded
  step {a ws held db c busy o} h hside he := by
    obtain ⟨hsound, hbooks⟩ := h
    obtain ⟨hdb, hclaim, hproper⟩ := hside
    have hfirst := (soundness β).step hsound trivial he
    have hsecond : o.LeadsTo (Books M) ws held db ((protocol β).installAll db ws) := by
      change exec a c busy _ = some o at he
      unfold exec at he
      split at he
      · -- a call
        rename_i op
        cases he
        obtain rfl : ws = [] := hsound.2.2
        have hop := hproper op rfl
        cases op <;> exact leadsTo_books_lock hdb hop
      · cases he
      · cases he
        exact .of_complete hdb trivial
      · exact claim_books hdb hsound hbooks he
      · exact transition_books hdb (hclaim _ _ rfl) hsound hbooks he
      · exact publish_books hdb hsound hbooks he
      · exact sweep_books hdb hsound hbooks he
    cases o <;> exact ⟨hfirst, hsecond⟩
  stable h hws := ⟨h.1.stable hws, h.2.stable hws⟩

end Queue

end TrackFlow
