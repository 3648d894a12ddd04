import TrackFlow.Chat.Generation
import TrackFlow.Sql.RowLock

/-!
# Concurrent transactions on the chat tables

`repository.py` of the chat domain as a row-lock protocol.  A client's transaction consists of any
number of calls (`append_message_for_user`, `delete_expired_sessions`, a new session, an update of a
session's status) and ends with a commit or a rollback; every statement may fail.

* `Write.effect` : what a write does to the messages of one session.
* `Knows` : what a client knows in the middle of a call; `knowledge` is stable under the commits of
  the others.
* `chat_message_sequences` : **in every committed state the messages of every session are numbered
  `1, 2, …` in the order of their commits.**
-/

namespace TrackFlow

namespace Chat

namespace Rows

open RowLock

/-! ## Tables -/

/-- A row of `chat_sessions`. -/
structure SessionRow where
  sessionId : String
  userId : String
  updatedAt : ℕ
  deriving DecidableEq, Repr

/-- A row of `chat_messages`, with its foreign key. -/
structure MessageRow where
  sessionId : String
  message : ChatMessage
  deriving DecidableEq, Repr

/-- The two tables; rows are in the order in which they were installed. -/
structure Db where
  sessions : List SessionRow
  messages : List MessageRow
  deriving DecidableEq, Repr

/-- The tables after the migration. -/
def Db.empty : Db := ⟨[], []⟩

/-- The messages of a session. -/
def Db.messagesOf (db : Db) (sessionId : String) : List ChatMessage :=
  (db.messages.filter fun row => row.sessionId = sessionId).map MessageRow.message

/-- A row write. -/
inductive Write
  | insertSession (row : SessionRow)
  | updateSession (sessionId : String) (updatedAt : ℕ)
  /-- The messages go with their session (`ON DELETE CASCADE`). -/
  | deleteSession (sessionId : String)
  | insertMessage (row : MessageRow)
  deriving DecidableEq, Repr

/-- The session that a write is about. -/
def Write.sessionId : Write → String
  | .insertSession row => row.sessionId
  | .updateSession sessionId _ => sessionId
  | .deleteSession sessionId => sessionId
  | .insertMessage row => row.sessionId

/-- The tables after a write. -/
def install (db : Db) : Write → Db
  | .insertSession row => { db with sessions := db.sessions ++ [row] }
  | .updateSession sessionId updatedAt =>
    { db with sessions := db.sessions.map fun row =>
        if row.sessionId = sessionId then { row with updatedAt := updatedAt } else row }
  | .deleteSession sessionId =>
    { sessions := db.sessions.filter fun row => row.sessionId ≠ sessionId
      messages := db.messages.filter fun row => row.sessionId ≠ sessionId }
  | .insertMessage row => { db with messages := db.messages ++ [row] }

/-- What a write does to the messages of one session. -/
def Write.effect (sessionId : String) (messages : List ChatMessage) : Write → List ChatMessage
  | .insertMessage row =>
    if row.sessionId = sessionId then messages ++ [row.message] else messages
  | .deleteSession id => if id = sessionId then [] else messages
  | .insertSession _ | .updateSession _ _ => messages

/-- The constraints of `chat_messages` admit a new row. -/
def Admits (db : Db) (row : MessageRow) : Prop :=
  row.message.content ≠ "" ∧ 1 ≤ row.message.sequence ∧
    (row.message.interrupted = true → row.message.role = .assistant) ∧
    (∃ session ∈ db.sessions, session.sessionId = row.sessionId) ∧
    (∀ row' ∈ db.messages, row'.message.messageId ≠ row.message.messageId) ∧
    ∀ m ∈ db.messagesOf row.sessionId, m.sequence ≠ row.message.sequence

instance (db : Db) (row : MessageRow) : Decidable (Admits db row) :=
  inferInstanceAs (Decidable (_ ∧ _ ∧ (_ → _) ∧ (∃ session ∈ db.sessions, _) ∧
    (∀ row' ∈ db.messages, _) ∧ ∀ m ∈ db.messagesOf row.sessionId, _))

/-! ## Statements -/

/-- The arguments of `append_message_for_user`. -/
structure AppendCall where
  sessionId : String
  userId : String
  role : ChatRole
  content : String
  interrupted : Bool := false
  deriving DecidableEq, Repr

/-- What the last call of a client returned. -/
inductive Reply
  | none
  | message (message : Option ChatMessage)
  | deleted (count : ℕ)
  | failed
  deriving DecidableEq, Repr

/-- Where a client is. -/
inductive Loc
  /-- Between two calls, in a transaction or not. -/
  | ready (reply : Reply)
  /-- The session row is locked; the numbers have not been read. -/
  | locked (call : AppendCall)
  /-- The next number is known. -/
  | numbered (call : AppendCall) (nextSequence : ℕ)
  /-- The flush has updated the session, and inserts the message next. -/
  | touched (call : AppendCall) (message : ChatMessage)
  /-- The expired sessions are locked. -/
  | expiring (sessionIds : List String)
  deriving DecidableEq, Repr

/-- What decides a statement besides the tables. -/
inductive Choice
  | append (call : AppendCall)
  | expire (cutoff limit : ℕ)
  | create (row : SessionRow)
  | setStatus (sessionId : String) (now : ℕ)
  /-- The statement is executed: the clock, and the identifier that was drawn. -/
  | ok (now : ℕ) (messageId : String)
  | commit
  /-- The statement or the client fails. -/
  | fail
  deriving DecidableEq, Repr

/-- The ids that `delete_expired_sessions` selects, with `SKIP LOCKED`. -/
def expiredIds (db : Db) (busy : String → Bool) (cutoff limit : ℕ) : List String :=
  (((db.sessions.filter fun row =>
    decide (row.updatedAt < cutoff) && !busy row.sessionId).insertionSort fun row row' =>
      row.updatedAt < row'.updatedAt ∨
        row.updatedAt = row'.updatedAt ∧ row.sessionId ≤ row'.sessionId).take limit).map
    SessionRow.sessionId

/-- The message of a call. -/
def AppendCall.row (call : AppendCall) (sequence : ℕ) (messageId : String) : ChatMessage where
  messageId := messageId
  role := call.role
  content := call.content
  sequence := sequence
  interrupted := call.interrupted

/-- The next statement of a client. -/
def exec (loc : Loc) (choice : Choice) (busy : String → Bool) (db : Db) :
    Option (RowLock.Outcome String Write Loc) :=
  match loc, choice with
  | _, .fail => some (.rollback (.ready .failed))
  | .ready reply, .commit => some (.commit (.ready reply))
  | .ready _, .append call =>
    match db.sessions.find? fun row =>
        decide (row.sessionId = call.sessionId ∧ row.userId = call.userId) with
    | none => some (.proceed [] [] (.ready (.message none)))
    | some _ => some (.proceed [call.sessionId] [] (.locked call))
  | .locked call, .ok _ _ =>
    some (.proceed [] [] (.numbered call (nextSequence (db.messagesOf call.sessionId))))
  | .numbered call sequence, .ok now messageId =>
    some (.proceed [call.sessionId] [.updateSession call.sessionId now]
      (.touched call (call.row sequence messageId)))
  | .touched call message, .ok _ _ =>
    if Admits db ⟨call.sessionId, message⟩ then
      some (.proceed [] [.insertMessage ⟨call.sessionId, message⟩]
        (.ready (.message (some message))))
    else some (.rollback (.ready .failed))
  | .ready _, .expire cutoff limit =>
    if limit < 1 ∨ 5000 < limit then some (.rollback (.ready .failed))
    else
      match expiredIds db busy cutoff limit with
      | [] => some (.proceed [] [] (.ready (.deleted 0)))
      | id :: ids => some (.proceed (id :: ids) [] (.expiring (id :: ids)))
  | .expiring sessionIds, .ok _ _ =>
    some (.proceed [] (sessionIds.map .deleteSession) (.ready (.deleted sessionIds.length)))
  | .ready _, .create row =>
    -- a key that another transaction inserts makes the statement wait, like a lock
    if ∃ row' ∈ db.sessions, row'.sessionId = row.sessionId then
      some (.rollback (.ready .failed))
    else some (.proceed [row.sessionId] [.insertSession row] (.ready .none))
  | .ready _, .setStatus sessionId now =>
    if ∃ row ∈ db.sessions, row.sessionId = sessionId then
      some (.proceed [sessionId] [.updateSession sessionId now] (.ready .none))
    else some (.rollback (.ready .failed))
  | _, _ => none

/-- The clients of the chat tables. -/
def protocol : Protocol Db String Write Choice Loc := ⟨install, exec⟩

/-! ## Numbers -/

/-- The messages of every session are numbered from 1, without a gap. -/
def Sequenced (db : Db) : Prop :=
  ∀ sessionId, (db.messagesOf sessionId).map ChatMessage.sequence =
    List.range' 1 (db.messagesOf sessionId).length

theorem Sequenced.empty : Sequenced Db.empty := fun _ => rfl

section

variable {db db' : Db} {w : Write} {ws : List Write} {sessionId : String}

theorem messagesOf_install (db : Db) (w : Write) (sessionId : String) :
    (install db w).messagesOf sessionId = w.effect sessionId (db.messagesOf sessionId) := by
  cases w with
  | insertSession row => rfl
  | updateSession id updatedAt => rfl
  | deleteSession id =>
    simp only [Db.messagesOf, install, Write.effect]
    rw [List.filter_filter]
    split_ifs with h
    · subst h
      simp
    · congr 1
      refine List.filter_congr fun row _ => ?_
      by_cases hrow : row.sessionId = sessionId
      · simp [hrow, Ne.symm h]
      · simp [hrow]
  | insertMessage row =>
    simp only [Db.messagesOf, install, Write.effect]
    rw [List.filter_append, List.map_append]
    split_ifs with h <;> simp [h]

theorem messagesOf_installAll (db : Db) (ws : List Write) (sessionId : String) :
    (protocol.installAll db ws).messagesOf sessionId =
      ws.foldl (fun ms w => w.effect sessionId ms) (db.messagesOf sessionId) := by
  induction ws generalizing db with
  | nil => rfl
  | cons w ws ih =>
    rw [List.foldl_cons, ← messagesOf_install]
    exact ih (install db w)

/-- Writes about other sessions. -/
theorem foldl_effect_of_ne {messages : List ChatMessage} (h : ∀ w ∈ ws, w.sessionId ≠ sessionId) :
    ws.foldl (fun ms w => w.effect sessionId ms) messages = messages := by
  induction ws with
  | nil => rfl
  | cons w ws ih =>
    have hw := h w List.mem_cons_self
    have hkeep : w.effect sessionId messages = messages := by
      cases w with
      | insertSession row => rfl
      | updateSession id updatedAt => rfl
      | deleteSession id => exact if_neg hw
      | insertMessage row => exact if_neg hw
    rw [List.foldl_cons, hkeep]
    exact ih fun w' hw' => h w' (List.mem_cons_of_mem _ hw')

/-- Writes that do not delete the session add messages behind those that are there. -/
theorem exists_foldl_effect (messages : List ChatMessage)
    (h : Write.deleteSession sessionId ∉ ws) :
    ∃ new, ws.foldl (fun ms w => w.effect sessionId ms) messages = messages ++ new := by
  induction ws generalizing messages with
  | nil => exact ⟨[], (List.append_nil _).symm⟩
  | cons w ws ih =>
    have htail : Write.deleteSession sessionId ∉ ws := fun hmem => h (List.mem_cons_of_mem _ hmem)
    obtain ⟨first, hfirst⟩ : ∃ first, w.effect sessionId messages = messages ++ first := by
      cases w with
      | insertSession row => exact ⟨[], (List.append_nil _).symm⟩
      | updateSession id updatedAt => exact ⟨[], (List.append_nil _).symm⟩
      | deleteSession id =>
        have hid : id ≠ sessionId := fun hid => h (hid ▸ List.mem_cons_self)
        exact ⟨[], (if_neg hid).trans (List.append_nil _).symm⟩
      | insertMessage row =>
        by_cases hrow : row.sessionId = sessionId
        · exact ⟨[row.message], if_pos hrow⟩
        · exact ⟨[], (if_neg hrow).trans (List.append_nil _).symm⟩
    obtain ⟨rest, hrest⟩ := ih (messages ++ first) htail
    exact ⟨first ++ rest, by rw [List.foldl_cons, hfirst, hrest, List.append_assoc]⟩

theorem nextSequence_of_sequenced {messages : List ChatMessage}
    (h : messages.map ChatMessage.sequence = List.range' 1 messages.length) :
    nextSequence messages = messages.length + 1 := by
  have hmax : ∀ n s, (List.range' s n).foldr max 0 = if n = 0 then 0 else s + n - 1 := by
    intro n
    induction n with
    | zero => simp
    | succ n ih =>
      intro s
      rw [List.range'_succ, List.foldr_cons, ih]
      rcases Nat.eq_zero_or_pos n with rfl | hn
      · simp
      · rw [if_neg (by omega), if_neg (by omega), max_eq_right (by omega)]
        omega
  unfold nextSequence
  rw [h, hmax]
  split_ifs <;> omega

/-- A write that keeps the numbers: no message, or the next one. -/
theorem Sequenced.install (h : Sequenced db)
    (hnext : ∀ row, w = .insertMessage row →
      row.message.sequence = nextSequence (db.messagesOf row.sessionId)) :
    Sequenced (install db w) := by
  intro sessionId
  have hold := h sessionId
  rw [messagesOf_install]
  cases w with
  | insertSession row => exact hold
  | updateSession id updatedAt => exact hold
  | deleteSession id =>
    simp only [Write.effect]
    split_ifs
    · rfl
    · exact hold
  | insertMessage row =>
    simp only [Write.effect]
    split_ifs with hrow
    · subst hrow
      rw [List.map_append, hold, List.length_append, List.range'_append_1.symm, List.map_singleton,
        hnext row rfl, nextSequence_of_sequenced hold, Nat.add_comm]
      rfl
    · exact hold

end

/-! ## What the clients know -/

/-- What a client in the middle of a call knows of the tables it sees. -/
def Loc.Knows (held : String → Prop) (view : Db) : Loc → Prop
  | .ready _ => True
  | .locked call => held call.sessionId
  | .numbered call sequence =>
    held call.sessionId ∧ sequence = nextSequence (view.messagesOf call.sessionId)
  | .touched call message =>
    held call.sessionId ∧ message.sequence = nextSequence (view.messagesOf call.sessionId)
  | .expiring sessionIds => ∀ id ∈ sessionIds, held id

/-- What holds of a client with pending writes `ws` and locks `held`. -/
structure Knows (loc : Loc) (ws : List Write) (held : String → Prop) (db : Db) : Prop where
  committed : Sequenced db
  /-- Only sessions whose row is locked are written. -/
  guarded : ∀ w ∈ ws, held w.sessionId
  sequenced : Sequenced (protocol.installAll db ws)
  loc : loc.Knows held (protocol.installAll db ws)

section

variable {loc : Loc} {ws ws' : List Write} {held held' : String → Prop} {db : Db}

theorem Knows.idle (h : Sequenced db) (reply : Reply) (held : String → Prop) :
    Knows (.ready reply) [] held db := ⟨h, by simp, h, trivial⟩

theorem installAll_append (db : Db) (ws ws' : List Write) :
    protocol.installAll db (ws ++ ws') =
      protocol.installAll (protocol.installAll db ws) ws' := List.foldl_append

/-- A statement that writes nothing. -/
theorem Knows.proceed (h : Knows loc ws held db) {loc' : Loc} {ks : List String}
    (hloc : loc'.Knows (fun id => held id ∨ id ∈ ks) (protocol.installAll db ws)) :
    Knows loc' (ws ++ []) (fun id => held id ∨ id ∈ ks) db := by
  rw [List.append_nil]
  exact ⟨h.committed, fun w hw => .inl (h.guarded w hw), h.sequenced, hloc⟩

/-- A statement that writes one row. -/
theorem Knows.write (h : Knows loc ws held db) {loc' : Loc} {ks : List String} {w : Write}
    (hw : held w.sessionId ∨ w.sessionId ∈ ks)
    (hnext : ∀ row, w = .insertMessage row → row.message.sequence =
      nextSequence ((protocol.installAll db ws).messagesOf row.sessionId))
    (hloc : loc'.Knows (fun id => held id ∨ id ∈ ks) (install (protocol.installAll db ws) w)) :
    Knows loc' (ws ++ [w]) (fun id => held id ∨ id ∈ ks) db := by
  refine ⟨h.committed, fun w' hw' => ?_, ?_, ?_⟩
  · rcases List.mem_append.1 hw' with hw' | hw'
    · exact .inl (h.guarded w' hw')
    · rw [List.mem_singleton.1 hw']
      exact hw
  · rw [installAll_append]
    exact h.sequenced.install hnext
  · rw [installAll_append]
    exact hloc

theorem sequenced_deleteAll {ids : List String} (h : Sequenced db) :
    Sequenced (protocol.installAll db (ids.map .deleteSession)) := by
  induction ids generalizing db with
  | nil => exact h
  | cons id ids ih => exact ih (h.install (w := .deleteSession id) (by simp))

/-- Every statement leads from what is known to what is known. -/
theorem Knows.step {choice : Choice} {busy : String → Bool}
    {o : RowLock.Outcome String Write Loc} (h : Knows loc ws held db)
    (he : exec loc choice busy (protocol.installAll db ws) = some o) :
    o.LeadsTo Knows ws held db (protocol.installAll db ws) := by
  unfold exec at he
  have hfailed : (.rollback (.ready .failed) : RowLock.Outcome String Write Loc).LeadsTo Knows ws
      held db (protocol.installAll db ws) := .idle h.committed _ _
  split at he
  · -- a failure
    cases he
    exact hfailed
  · -- `COMMIT`
    cases he
    exact .idle h.sequenced _ _
  · -- the session is selected and locked
    split at he <;> cases he
    · exact h.proceed trivial
    · exact h.proceed (.inr List.mem_cons_self)
  · -- the maximum is read
    cases he
    exact h.proceed ⟨.inl h.loc, rfl⟩
  · -- the session is updated
    cases he
    refine h.write (.inl h.loc.1) (by simp) ⟨.inl h.loc.1, ?_⟩
    rw [messagesOf_install]
    exact h.loc.2
  · -- the message is inserted
    split_ifs at he <;> cases he
    · refine h.write (.inl h.loc.1) (fun row hrow => ?_) trivial
      cases hrow
      exact h.loc.2
    · exact hfailed
  · -- the expired sessions are locked
    split_ifs at he
    · cases he
      exact hfailed
    · split at he <;> cases he
      · exact h.proceed trivial
      · exact h.proceed fun id hid => .inr hid
  · -- and deleted
    rename_i sessionIds _ _
    cases he
    refine ⟨h.committed, fun w hw => ?_, ?_, trivial⟩
    · rcases List.mem_append.1 hw with hw | hw
      · exact .inl (h.guarded w hw)
      · obtain ⟨id, hid, rfl⟩ := List.mem_map.1 hw
        exact .inl (h.loc id hid)
    · rw [installAll_append]
      exact sequenced_deleteAll h.sequenced
  · -- a new session
    split_ifs at he <;> cases he
    · exact hfailed
    · exact h.write (.inr List.mem_cons_self) (by simp) trivial
  · -- a caller's status
    split_ifs at he <;> cases he
    · exact h.write (.inr List.mem_cons_self) (by simp) trivial
    · exact hfailed
  · cases he

/-- A commit of writes to sessions that are not locked here changes nothing that is known here. -/
theorem messagesOf_of_disjoint (hdisjoint : ∀ w ∈ ws', ¬held w.sessionId) {sessionId : String}
    (hid : held sessionId) (db : Db) (ws : List Write) :
    (protocol.installAll (protocol.installAll db ws') ws).messagesOf sessionId =
      (protocol.installAll db ws).messagesOf sessionId := by
  simp only [messagesOf_installAll]
  rw [foldl_effect_of_ne fun w hw heq => hdisjoint w hw (by rw [heq]; exact hid)]

theorem Knows.stable {loc' : Loc} (h : Knows loc ws held db) (h' : Knows loc' ws' held' db)
    (hdisjoint : ∀ id, held id → ¬held' id) : Knows loc ws held (protocol.installAll db ws') := by
  have hother : ∀ w ∈ ws', ¬held w.sessionId := fun w hw hheld =>
    hdisjoint _ hheld (h'.guarded w hw)
  refine ⟨h'.sequenced, h.guarded, fun sessionId => ?_, ?_⟩
  · by_cases hid : held sessionId
    · rw [messagesOf_of_disjoint hother hid]
      exact h.sequenced sessionId
    · -- this client has not written the session
      have hne : ∀ w ∈ ws, w.sessionId ≠ sessionId := fun w hw heq =>
        hid (heq ▸ h.guarded w hw)
      rw [messagesOf_installAll, foldl_effect_of_ne hne]
      exact h'.sequenced sessionId
  · have hloc := h.loc
    cases loc with
    | ready reply => trivial
    | locked call => exact hloc
    | numbered call sequence => exact ⟨hloc.1, by rw [messagesOf_of_disjoint hother hloc.1, hloc.2]⟩
    | touched call message => exact ⟨hloc.1, by rw [messagesOf_of_disjoint hother hloc.1, hloc.2]⟩
    | expiring sessionIds => exact hloc

/-- Knowledge as a reliance of the clients on each other. -/
def knowledge : Reliance protocol (fun _ _ _ => True) fun _ _ _ => True where
  holds := Knows
  step h _ he := h.step he
  stable h h' hdisjoint _ := h.stable h' hdisjoint

end

/-- The clients at the start, on empty tables. -/
def clientsStart (ι : Type*) : State ι Db String Write Loc :=
  State.start Db.empty fun _ => .ready .none

/-- **The messages of every session are numbered from 1 in the order of their commits.**  In every
state that any clients reach, the committed messages of a session have the numbers `1..n`; what is
not a commit leaves the tables as they are, a call that failed included; and a commit adds messages
behind those of earlier commits, unless it deletes the session. -/
theorem chat_message_sequences {ι : Type*} [DecidableEq ι] {s : State ι Db String Write Loc}
    (h : (protocol.machine ι).Run (fun _ _ => True) (clientsStart ι) s) :
    (∀ sessionId, (s.db.messagesOf sessionId).map ChatMessage.sequence =
      List.range' 1 (s.db.messagesOf sessionId).length) ∧
    ∀ l s', protocol.next s l = some s' →
      (protocol.commits s l = false → s'.db = s.db) ∧
      ∀ sessionId, Write.deleteSession sessionId ∉ (s.session l.1).pending →
        ∃ new, s'.db.messagesOf sessionId = s.db.messagesOf sessionId ++ new := by
  have hinv : Sequenced s.db ∧ knowledge.All s := by
    refine h.invariant (fun s => Sequenced s.db ∧ knowledge.All s)
      ⟨.empty, knowledge.all_start fun _ => .idle .empty _ _⟩ ?_
    intro s l s' hA _ hnext
    have hall := knowledge.all_next hA.2 trivial (fun _ _ _ _ => trivial) hnext
    exact ⟨(hall l.1).committed, hall⟩
  refine ⟨hinv.1, fun l s' hnext => ?_⟩
  obtain hsame | ⟨loc, hcommit, hview, -⟩ := Protocol.db_next hnext
  · exact ⟨fun _ => hsame, fun _ _ => ⟨[], by rw [hsame, List.append_nil]⟩⟩
  · refine ⟨fun hno => ?_, fun sessionId hkept => ?_⟩
    · rw [Protocol.commits_of_exec hcommit] at hno
      cases hno
    · obtain ⟨new, hnew⟩ := exists_foldl_effect (s.db.messagesOf sessionId) hkept
      exact ⟨new, by rw [hview, Protocol.view, messagesOf_installAll, hnew]⟩

/-- A question from one client, one that fails after it was numbered, and the answer of a third. -/
theorem chat_message_sequences_after_failure :
    ∃ s, (protocol.machine (Fin 3)).Run (fun _ _ => True) (clientsStart (Fin 3)) s ∧
      (s.db.messagesOf "s").map (fun m => (m.sequence, m.content)) = [(1, "a"), (2, "c")] ∧
      (s.db.messagesOf "s").map ChatMessage.sequence =
        List.range' 1 (s.db.messagesOf "s").length := by
  let append (i : Fin 3) (content : String) : List (Fin 3 × Choice) :=
    [(i, .append ⟨"s", "u", .user, content, false⟩), (i, .ok 0 ""), (i, .ok 1 content)]
  obtain ⟨s, hs, hp⟩ := (protocol.machine (Fin 3)).exists_run (fun _ _ => true)
    (clientsStart (Fin 3))
    ([(0, .create ⟨"s", "u", 0⟩), (0, .commit)] ++ append 0 "a" ++ [(0, .ok 1 ""), (0, .commit)] ++
      append 1 "b" ++ [(1, .fail)] ++ append 2 "c" ++ [(2, .ok 1 ""), (2, .commit)])
    (fun s => decide ((s.db.messagesOf "s").map (fun m => (m.sequence, m.content)) =
      [(1, "a"), (2, "c")])) (by decide)
  have hrun := hs.mono fun _ _ _ => trivial
  exact ⟨s, hrun, of_decide_eq_true hp, (chat_message_sequences hrun).1 "s"⟩

end Rows

end Chat

end TrackFlow
