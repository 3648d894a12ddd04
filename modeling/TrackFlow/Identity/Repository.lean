import TrackFlow.Documents.Marks
import TrackFlow.Identity.Models

/-!
# The repositories of the identity service

The operations of `repository.py` on the tables of the document store, one namespace for each
repository.  Sessions, reset tokens and codes are never deleted: their tables only grow, and the
one thing that happens to a row is that it is marked revoked or used (`Grows`).
-/

namespace TrackFlow

namespace Identity

/-! ## Users -/

namespace Users

/-- `get_by_id`. -/
def getById (table : List User) (userId : String) : Option User :=
  table.find? fun user => user.id = userId

/-- `get_by_email`. -/
def getByEmail {τ : Type} (P : Primitives τ) (table : List User) (email : String) : Option User :=
  table.find? fun user => user.email = P.normalizeEmail email

/-- `create_user`; no row comes back when the email is registered already. -/
def createUser {τ : Type} (P : Primitives τ) (table : List User) (record : User) :
    Option (User × List User) :=
  let email := P.normalizeEmail record.email
  if (getByEmail P table email).isSome then none
  else
    let record := { record with email }
    some (record, table ++ [record])

/-- `update_user`: the row after the changes, none when there is no such user. -/
def updateUser (table : List User) (userId : String) (changes : User → User) :
    Option (User × List User) :=
  let table := updateWhere (fun user => user.id = userId) changes table
  (getById table userId).map fun record => (record, table)

end Users

/-- The user exists and is active. -/
def Store.IsActive (store : Store) (userId : String) : Prop :=
  ∃ user, Users.getById store.users userId = some user ∧ user.status = .active

/-! ## Refresh sessions -/

/-- The session with its `revoked` flag set. -/
def Session.revoke (session : Session) : Session := { session with revoked := true }

namespace Sessions

/-- `create_session`. -/
def createSession (table : List Session) (record : Session) : List Session := table ++ [record]

/-- `get_by_token_hash`. -/
def getByTokenHash (table : List Session) (tokenHash : String) : Option Session :=
  table.find? fun session => session.tokenHash = tokenHash

/-- `revoke_session`. -/
def revokeSession (table : List Session) (sessionId : String) : List Session :=
  updateWhere (fun session => session.id = sessionId) Session.revoke table

/-- `revoke_family`. -/
def revokeFamily (table : List Session) (familyId : String) : List Session :=
  updateWhere (fun session => session.familyId = familyId) Session.revoke table

/-- `revoke_user_sessions`. -/
def revokeUserSessions (table : List Session) (userId : String) (exceptSessionId : Option String) :
    List Session :=
  updateWhere (fun session => session.userId = userId ∧ exceptSessionId ≠ some session.id)
    Session.revoke table

/-- `cleanup_expired`. -/
def cleanupExpired (table : List Session) (now : ℕ) : List Session :=
  updateWhere (fun session => session.revoked = false ∧ session.expiresAt ≤ now) Session.revoke
    table

end Sessions

/-! ## Password resets -/

/-- The reset token with its `used` flag set. -/
def PasswordReset.burn (reset : PasswordReset) : PasswordReset := { reset with used := true }

namespace PasswordResets

/-- `create_reset`. -/
def createReset (table : List PasswordReset) (record : PasswordReset) : List PasswordReset :=
  table ++ [record]

/-- `get_by_token_hash`. -/
def getByTokenHash (table : List PasswordReset) (tokenHash : String) : Option PasswordReset :=
  table.find? fun reset => reset.tokenHash = tokenHash

/-- `mark_used`: the table afterwards, and the row if there is one. -/
def markUsed (table : List PasswordReset) (resetId : String) :
    Option PasswordReset × List PasswordReset :=
  let table := updateWhere (fun reset => reset.id = resetId) PasswordReset.burn table
  (table.find? fun reset => reset.id = resetId, table)

/-- `invalidate_user_tokens`. -/
def invalidateUserTokens (table : List PasswordReset) (userId : String) : List PasswordReset :=
  updateWhere (fun reset => reset.userId = userId ∧ reset.used = false) PasswordReset.burn table

/-- `cleanup_expired`. -/
def cleanupExpired (table : List PasswordReset) (now : ℕ) : List PasswordReset :=
  updateWhere (fun reset => reset.used = false ∧ reset.expiresAt ≤ now) PasswordReset.burn table

end PasswordResets

/-! ## OAuth clients -/

namespace OAuthClients

/-- `get`. -/
def get (table : List OAuthClient) (clientId : String) : Option OAuthClient :=
  table.find? fun client => client.clientId = clientId

/-- `create`; no table comes back when the client exists already. -/
def create (table : List OAuthClient) (record : OAuthClient) : Option (List OAuthClient) :=
  if (get table record.clientId).isSome then none else some (table ++ [record])

end OAuthClients

/-! ## Authorization codes -/

/-- The code with its `used` flag set. -/
def AuthorizationCode.burn (code : AuthorizationCode) : AuthorizationCode :=
  { code with used := true }

namespace OAuthCodes

/-- `create`. -/
def create (table : List AuthorizationCode) (record : AuthorizationCode) : List AuthorizationCode :=
  table ++ [record]

/-- `consume`: the first unused row with the digest, and the table in which it is used. -/
def consume (table : List AuthorizationCode) (tokenHash : String) :
    Option AuthorizationCode × List AuthorizationCode :=
  match table.find? fun code => code.tokenHash = tokenHash ∧ code.used = false with
  | none => (none, table)
  | some record =>
    (some record, updateWhere (fun code => code.id = record.id) AuthorizationCode.burn table)

/-- `cleanup_expired`. -/
def cleanupExpired (table : List AuthorizationCode) (now : ℕ) : List AuthorizationCode :=
  updateWhere (fun code => code.used = false ∧ code.expiresAt ≤ now) AuthorizationCode.burn table

end OAuthCodes

/-! ## What happens to a row -/

@[simp] theorem Session.revoke_revoke (session : Session) :
    session.revoke.revoke = session.revoke := rfl

theorem Session.revoke_eq_self_iff {session : Session} :
    session.revoke = session ↔ session.revoked = true := by
  obtain ⟨_, _, _, _, _, revoked, _⟩ := session
  simp [revoke, eq_comm]

@[simp] theorem AuthorizationCode.burn_burn (code : AuthorizationCode) :
    code.burn.burn = code.burn := rfl

theorem AuthorizationCode.burn_eq_self_iff {code : AuthorizationCode} :
    code.burn = code ↔ code.used = true := by
  obtain ⟨_, _, _, _, _, _, _, _, _, _, _, used⟩ := code
  simp [burn, eq_comm]

/-- Consuming burns rows. -/
theorem OAuthCodes.exists_consume_eq (table : List AuthorizationCode) (tokenHash : String) :
    ∃ p, (consume table tokenHash).2 = updateWhere p AuthorizationCode.burn table := by
  unfold consume
  split
  · exact ⟨fun _ => false, (updateWhere_false _ _).symm⟩
  · exact ⟨_, rfl⟩

/-- **What is consumed is burnt.**  The row was unused and has the digest. -/
theorem OAuthCodes.consume_eq_some {table : List AuthorizationCode} {tokenHash : String}
    {record : AuthorizationCode} (h : (consume table tokenHash).1 = some record) :
    record ∈ table ∧ record.tokenHash = tokenHash ∧ record.used = false ∧
      record.burn ∈ (consume table tokenHash).2 := by
  unfold consume at h ⊢
  split at h
  · cases h
  · rename_i found hfind
    cases h
    have hkeys := List.find?_some hfind
    have hmem := List.mem_of_find?_eq_some hfind
    simp only [decide_eq_true_eq] at hkeys
    refine ⟨hmem, hkeys.1, hkeys.2, ?_⟩
    exact mem_updateWhere.2 ⟨record, hmem, by simp⟩

end Identity

end TrackFlow
