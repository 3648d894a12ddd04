import TrackFlow.Identity.Repository

/-!
# Users and sessions

`AuthService` and `UserService` of `service.py`, and the routes of `main.py` that add steps of
their own.  A handler runs on the event loop without interruption, so it is a function from the
store to its outcome and the store it leaves; what it writes before it fails is kept.

The dependencies of a route (the access token and the CSRF token of the request) are resolved
before its handler runs; the administrator they give the handler is an argument here.
-/

namespace TrackFlow

namespace Identity

/-- Why a handler fails. -/
inductive Failure
  | authentication (message : String)
  | passwordReset (message : String)
  | notFound (message : String)
  | duplicateEmail (message : String)
  | http (statusCode : ℕ) (detail : String)
  deriving DecidableEq, Repr

/-- `AuthTokens`. -/
structure AuthTokens (τ : Type) where
  accessToken : τ
  refreshToken : String
  csrfToken : String
  user : UserPublic
  deriving DecidableEq, Repr

/-- The generic credential error. -/
def invalidCredentials : Failure := .authentication "Invalid email or password"

/-- The generic refresh error. -/
def invalidRefreshSession : Failure := .authentication "Invalid refresh session"

/-- The generic reset error. -/
def invalidResetToken : Failure := .passwordReset "Invalid or expired reset token"

/-- The error for a user that does not exist. -/
def userNotFound : Failure := .notFound "User not found"

/-- A cookie that is absent or empty presents nothing. -/
def presented (token : Option String) : Option String := token.filter (· ≠ "")

section

variable {τ : Type} (P : Primitives τ) (settings : IdentitySettings) (draw : Draw) (clock : Clock)

/-! ## `AuthService` -/

/-- `_issue_tokens`: a new session, in the family `familyId` or in a new one. -/
def issueTokens (store : Store) (user : User) (familyId rotatedFrom : Option String) :
    AuthTokens τ × Store :=
  ({ accessToken := signAccessToken P settings draw clock user
     refreshToken := draw.refreshToken
     csrfToken := draw.csrfToken
     user := toPublicUser user },
   { store with
     refreshSessions := Sessions.createSession store.refreshSessions
       { id := draw.sessionId
         userId := user.id
         tokenHash := P.hashToken draw.refreshToken
         familyId := familyId.getD draw.familyId
         expiresAt := clock.issue + days settings.refreshTokenExpireDays
         revoked := false
         rotatedFrom } })

/-- `login`. -/
def login (store : Store) (email password : String) : Except Failure (AuthTokens τ) × Store :=
  match Users.getByEmail P store.users email with
  | none => (.error invalidCredentials, store)
  | some user =>
    if user.status ≠ .active then (.error invalidCredentials, store)
    else if P.verifyPassword password user.hashedPassword = false then
      (.error invalidCredentials, store)
    else
      match Users.updateUser store.users user.id
          fun user => { user with lastLoginAt := some clock.stamp } with
      | none => (.error invalidCredentials, store)
      | some (updated, users) =>
        let (tokens, store) :=
          issueTokens P settings draw clock { store with users } updated none none
        (.ok tokens, store)

/-- `refresh`. -/
def refresh (store : Store) (refreshToken : String) : Except Failure (AuthTokens τ) × Store :=
  let sessions := Sessions.cleanupExpired store.refreshSessions clock.sweep
  match Sessions.getByTokenHash sessions (P.hashToken refreshToken) with
  | none => (.error invalidRefreshSession, { store with refreshSessions := sessions })
  | some session =>
    -- a token that was rotated out: the family is taken to be stolen
    if session.revoked = true then
      (.error invalidRefreshSession,
        { store with refreshSessions := Sessions.revokeFamily sessions session.familyId })
    else if session.expiresAt ≤ clock.check then
      (.error invalidRefreshSession,
        { store with refreshSessions := Sessions.revokeSession sessions session.id })
    else
      match (Users.getById store.users session.userId).filter fun user => user.status = .active with
      | none =>
        (.error invalidRefreshSession,
          { store with refreshSessions := Sessions.revokeFamily sessions session.familyId })
      | some user =>
        let (tokens, store) := issueTokens P settings draw clock
          { store with refreshSessions := Sessions.revokeSession sessions session.id } user
          (some session.familyId) (some session.id)
        (.ok tokens, store)

/-- `logout`. -/
def logout (store : Store) (refreshToken : Option String) : Store :=
  match presented refreshToken with
  | none => store
  | some refreshToken =>
    match Sessions.getByTokenHash store.refreshSessions (P.hashToken refreshToken) with
    | none => store
    | some session =>
      { store with refreshSessions := Sessions.revokeSession store.refreshSessions session.id }

/-- `change_password`; the route signs a new access token for the updated user. -/
def changePassword (store : Store) (userId currentPassword newPassword : String)
    (currentRefreshToken : Option String) : Except Failure User × Store :=
  match (Users.getById store.users userId).filter fun user => user.status = .active with
  | none => (.error invalidCredentials, store)
  | some user =>
    if P.verifyPassword currentPassword user.hashedPassword = false then
      (.error invalidCredentials, store)
    else
      let currentSessionId :=
        ((presented currentRefreshToken).bind fun token =>
          Sessions.getByTokenHash store.refreshSessions (P.hashToken token)).bind fun session =>
            if session.revoked = true then none else some session.id
      match Users.updateUser store.users userId fun user =>
          { user with
            hashedPassword := P.hashPassword draw.salt newPassword
            mustChangePassword := false } with
      | none => (.error invalidCredentials, store)
      | some (updated, users) =>
        (.ok updated,
          { store with
            users
            refreshSessions :=
              Sessions.revokeUserSessions store.refreshSessions userId currentSessionId })

/-- `_create_reset_token`. -/
def createResetToken (store : Store) (userId : String) (purpose : ResetPurpose) : String × Store :=
  let resets := PasswordResets.cleanupExpired store.passwordResets clock.sweep
  let resets := PasswordResets.invalidateUserTokens resets userId
  (draw.resetToken,
    { store with
      passwordResets := PasswordResets.createReset resets
        { id := draw.resetId
          userId
          tokenHash := P.hashToken draw.resetToken
          expiresAt := clock.issue + minutes settings.resetTokenExpireMinutes
          used := false
          purpose } })

/-- `request_password_reset`: the token that is mailed, if the account is active. -/
def requestPasswordReset (store : Store) (email : String) : Option String × Store :=
  match (Users.getByEmail P store.users (P.normalizeEmail email)).filter
      fun user => user.status = .active with
  | none => (none, store)
  | some user =>
    let (token, store) := createResetToken P settings draw clock store user.id .passwordReset
    (some token, store)

/-- `reset_password`. -/
def resetPassword (store : Store) (token newPassword : String) : Except Failure Unit × Store :=
  let resets := PasswordResets.cleanupExpired store.passwordResets clock.sweep
  match PasswordResets.getByTokenHash resets (P.hashToken token) with
  | none => (.error invalidResetToken, { store with passwordResets := resets })
  | some reset =>
    if reset.used = true then (.error invalidResetToken, { store with passwordResets := resets })
    else
      let (marked, used) := PasswordResets.markUsed resets reset.id
      if reset.expiresAt ≤ clock.check then
        (.error invalidResetToken, { store with passwordResets := used })
      else
        match (Users.getById store.users reset.userId).filter
            fun user => user.status = .active with
        | none => (.error invalidResetToken, { store with passwordResets := used })
        | some _ =>
          match Users.updateUser store.users reset.userId fun user =>
              { user with
                hashedPassword := P.hashPassword draw.salt newPassword
                mustChangePassword := false } with
          | none => (.error invalidResetToken, { store with passwordResets := used })
          | some (_, users) =>
            if marked = none then
              (.error invalidResetToken, { store with users, passwordResets := used })
            else
              (.ok (),
                { store with
                  users
                  passwordResets := PasswordResets.invalidateUserTokens used reset.userId
                  refreshSessions :=
                    Sessions.revokeUserSessions store.refreshSessions reset.userId none })

/-- `revoke_all_for_user`. -/
def revokeAllForUser (store : Store) (userId : String) : Store :=
  { store with refreshSessions := Sessions.revokeUserSessions store.refreshSessions userId none }

/-! ## `UserService` -/

/-- `create_user_with_temp_password`: the user and the temporary password. -/
def createUserWithTempPassword (store : Store) (name email : String) (jurisdiction : Jurisdiction) :
    Except Failure (UserPublic × String) × Store :=
  match Users.createUser P store.users
      { id := draw.userId
        name
        email
        hashedPassword := P.hashPassword draw.salt draw.temporaryPassword
        role := .user
        status := .active
        jurisdiction := some jurisdiction
        mustChangePassword := true
        createdAt := clock.stamp
        lastLoginAt := none } with
  | none => (.error (.duplicateEmail "Email is already registered"), store)
  | some (record, users) =>
    (.ok (toPublicUser record, draw.temporaryPassword), { store with users })

/-- `update_user`, `set_jurisdiction` and `set_status` change one field of a user. -/
def changeUser (store : Store) (userId : String) (changes : User → User) :
    Except Failure UserPublic × Store :=
  match Users.updateUser store.users userId changes with
  | none => (.error userNotFound, store)
  | some (record, users) => (.ok (toPublicUser record), { store with users })

/-- `update_user`. -/
def updateUser (store : Store) (userId name : String) : Except Failure UserPublic × Store :=
  changeUser store userId fun user => { user with name }

/-- `set_jurisdiction`. -/
def setJurisdiction (store : Store) (userId : String) (jurisdiction : Jurisdiction) :
    Except Failure UserPublic × Store :=
  changeUser store userId fun user => { user with jurisdiction := some jurisdiction }

/-- `set_status`. -/
def setStatus (store : Store) (userId : String) (status : Status) :
    Except Failure UserPublic × Store :=
  changeUser store userId fun user => { user with status }

/-- `would_remove_last_active_admin`. -/
def wouldRemoveLastActiveAdmin (store : Store) (userId : String) : Except Failure Bool :=
  match Users.getById store.users userId with
  | none => .error userNotFound
  | some target =>
    if target.role ≠ .admin ∨ target.status ≠ .active then .ok false
    else
      .ok (((store.users.filter fun user =>
        user.role = .admin ∧ user.status = .active).length ≤ 1 : Bool))

/-! ## The routes of the user administration -/

/-- `prevent_admin_lockout`. -/
def preventAdminLockout (store : Store) (userId : String) (admin : User) : Except Failure Unit :=
  if userId = admin.id then
    .error (.http 400 "Admins cannot suspend or disable their own account")
  else
    match wouldRemoveLastActiveAdmin store userId with
    | .error _ => .error (.http 404 "User not found")
    | .ok true => .error (.http 400 "At least one active admin is required")
    | .ok false => .ok ()

/-- `update_status`. -/
def updateStatus (store : Store) (userId : String) (status : Status) (admin : User) :
    Except Failure UserPublic × Store :=
  match if status ≠ .active then preventAdminLockout store userId admin else .ok () with
  | .error failure => (.error failure, store)
  | .ok () =>
    match setStatus store userId status with
    | (.error _, store) => (.error (.http 404 "User not found"), store)
    | (.ok user, store) =>
      (.ok user, if status ≠ .active then revokeAllForUser store userId else store)

/-- `revoke_user_sessions`. -/
def revokeUserSessions (store : Store) (userId : String) : Except Failure Unit × Store :=
  match Users.getById store.users userId with
  | none => (.error (.http 404 "User not found"), store)
  | some _ => (.ok (), revokeAllForUser store userId)

/-- `delete_user`. -/
def deleteUser (store : Store) (userId : String) (admin : User) :
    Except Failure UserPublic × Store :=
  match preventAdminLockout store userId admin with
  | .error failure => (.error failure, store)
  | .ok () =>
    match setStatus store userId .disabled with
    | (.error _, store) => (.error (.http 404 "User not found"), store)
    | (.ok user, store) => (.ok user, revokeAllForUser store userId)

/-- `create_user`: the account setup mail needs a reset token. -/
def createUser (store : Store) (name email : String) (jurisdiction : Jurisdiction) :
    Except Failure (UserPublic × String) × Store :=
  match createUserWithTempPassword P draw clock store name email jurisdiction with
  | (.error _, store) => (.error (.http 409 "Email is already registered"), store)
  | (.ok created, store) =>
    let (_, store) := createResetToken P settings draw clock store created.1.id .accountSetup
    (.ok created, store)

end

end Identity

end TrackFlow
