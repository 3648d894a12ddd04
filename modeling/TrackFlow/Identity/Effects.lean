import TrackFlow.Identity.Server

/-!
# What a request does to the store

`Effect` says what any request of the service does to each table of the store; a result about
runs needs no more than the part for its table.

* `UserStep` : fields of one user change, or an active user is created; only a suspension makes a
  user other than active.
* `SessionStep` : sessions are revoked, and at most one live session is inserted, in a new family
  or in the place of the live session of its family.
* `CodeStep` : codes are burnt, and a consent inserts one.
* `ClientStep` : a client may be registered.
* `handle_effect` : **every request has such an effect.**
* `handle_minted` : for whom the access tokens of a response are minted.
-/

namespace TrackFlow

namespace Identity

/-- The user whom a request suspends or disables. -/
def Request.suspends {τ : Type} : Request τ → Option String
  | .updateStatus userId status _ => if status ≠ .active then some userId else none
  | .deleteUser userId _ => some userId
  | _ => none

/-- The access tokens that a response hands out. -/
def Response.minted {τ : Type} : Response τ → List τ
  | .session tokens => [tokens.accessToken]
  | .accessToken signed => [signed]
  | .token issued => [issued.accessToken]
  | _ => []

/-! ## Steps of the tables -/

/-- What one request does to the users. -/
inductive UserStep {τ : Type} (request : Request τ) (draw : Draw) (users : List User) :
    List User → Prop
  | same : UserStep request draw users users
  | change (userId : String) (changes : User → User) (id : ∀ user, (changes user).id = user.id)
      (status : ∀ user, (changes user).status = user.status ∨ (changes user).status = .active ∨
        request.suspends = some userId) :
      UserStep request draw users (updateWhere (fun user => user.id = userId) changes users)
  | create (user : User) (id : user.id = draw.userId) (active : user.status = .active) :
      UserStep request draw users (users ++ [user])

/-- What one request does to the sessions. -/
inductive SessionStep (sessions : List Session) : List Session → Prop
  | revoke (p : Session → Bool) : SessionStep sessions (updateWhere p Session.revoke sessions)
  | issue (p : Session → Bool) (session : Session) (live : session.revoked = false)
      (fresh : ∀ a ∈ sessions, a.id ≠ session.id ∧ a.tokenHash ≠ session.tokenHash)
      (lineage : (session.rotatedFrom = none ∧ ∀ a ∈ sessions, a.familyId ≠ session.familyId) ∨
        ∃ a ∈ sessions, a.revoked = false ∧ p a = true ∧ a.familyId = session.familyId ∧
          session.rotatedFrom = some a.id) :
      SessionStep sessions (updateWhere p Session.revoke sessions ++ [session])

/-- What one request does to the codes. -/
inductive CodeStep {τ : Type} (P : Primitives τ) (settings : IdentitySettings) (store : Store)
    (request : Request τ) (draw : Draw) (clock : Clock) : List AuthorizationCode → Prop
  | burn (p : AuthorizationCode → Bool) :
      CodeStep P settings store request draw clock
        (updateWhere p AuthorizationCode.burn store.oauthAuthorizationCodes)
  | issue (p : AuthorizationCode → Bool) (consented : AuthorizationRequest)
      (email password : String)
      (user : User) (authorize : request = .authorize consented email password)
      (consent : consentingUser P store.users email password = some user) :
      CodeStep P settings store request draw clock
        (updateWhere p AuthorizationCode.burn store.oauthAuthorizationCodes ++
          [issuedCode P settings draw clock consented user])

/-- What one request does to the clients: one may be registered, and only a confidential one may
exchange tokens. -/
inductive ClientStep {τ : Type} (request : Request τ) (clients : List OAuthClient) :
    List OAuthClient → Prop
  | same : ClientStep request clients clients
  | register (client : OAuthClient)
      (exchanges : .tokenExchange ∈ client.grantTypes → ∃ name grants scopes resources,
        request = .registerConfidentialClient name grants scopes resources client.sourceAudiences) :
      ClientStep request clients (clients ++ [client])

section

variable {sessions sessions' : List Session}

theorem SessionStep.same (sessions : List Session) : SessionStep sessions sessions := by
  have h : SessionStep sessions (updateWhere (fun _ => false) Session.revoke sessions) := .revoke _
  rwa [updateWhere_false] at h

theorem SessionStep.grows (h : SessionStep sessions sessions') :
    Grows Session.revoke sessions sessions' := by
  cases h with
  | revoke p => exact Grows.updateWhere _ _ _
  | issue p session => exact ⟨p, [session], rfl⟩

/-- A live session after revocations is a session that was live and not revoked. -/
theorem mem_of_live {p : Session → Bool} {a : Session}
    (ha : a ∈ updateWhere p Session.revoke sessions) (hlive : a.revoked = false) :
    a ∈ sessions ∧ p a = false := by
  obtain ⟨r, hr, rfl⟩ := mem_updateWhere.1 ha
  by_cases hp : p r = true
  · rw [if_pos hp] at hlive
    cases hlive
  · rw [if_neg hp]
    exact ⟨hr, Bool.eq_false_iff.2 hp⟩

end

/-- **What one request does to the store.** -/
structure Effect {τ : Type} (P : Primitives τ) (settings : IdentitySettings) (request : Request τ)
    (draw : Draw) (clock : Clock) (store store' : Store) : Prop where
  users : UserStep request draw store.users store'.users
  sessions : SessionStep store.refreshSessions store'.refreshSessions
  codes : CodeStep P settings store request draw clock store'.oauthAuthorizationCodes
  clients : ClientStep request store.oauthClients store'.oauthClients

section

variable {τ : Type} {P : Primitives τ} {settings : IdentitySettings} {draw : Draw} {clock : Clock}
  {store : Store} {request : Request τ}

theorem CodeStep.same :
    CodeStep P settings store request draw clock store.oauthAuthorizationCodes := by
  have h : CodeStep P settings store request draw clock (updateWhere (fun _ => false)
      AuthorizationCode.burn store.oauthAuthorizationCodes) := .burn _
  rwa [updateWhere_false] at h

/-- A request that leaves the tables alone. -/
theorem Effect.same {store' : Store} (users : store'.users = store.users)
    (sessions : store'.refreshSessions = store.refreshSessions)
    (codes : store'.oauthAuthorizationCodes = store.oauthAuthorizationCodes)
    (clients : store'.oauthClients = store.oauthClients) :
    Effect P settings request draw clock store store' :=
  ⟨users ▸ .same, sessions ▸ .same _, codes ▸ .same, clients ▸ .same⟩

/-- A request that leaves the tables of the authorization server alone. -/
theorem Effect.of_sessions {store' : Store}
    (users : UserStep request draw store.users store'.users)
    (sessions : SessionStep store.refreshSessions store'.refreshSessions)
    (codes : store'.oauthAuthorizationCodes = store.oauthAuthorizationCodes)
    (clients : store'.oauthClients = store.oauthClients) :
    Effect P settings request draw clock store store' :=
  ⟨users, sessions, codes ▸ .same, clients ▸ .same⟩

/-! ## The handlers -/

theorem Users.updateUser_eq_some {table table' : List User} {userId : String}
    {changes : User → User} {record : User}
    (h : Users.updateUser table userId changes = some (record, table')) :
    table' = updateWhere (fun user => user.id = userId) changes table ∧ record.id = userId := by
  obtain ⟨found, hfound, he⟩ := Option.map_eq_some_iff.1 h
  cases he
  exact ⟨rfl, by simpa [Users.getById] using List.find?_some hfound⟩

theorem UserStep.updateUser {table table' : List User} {userId : String} {changes : User → User}
    {record : User} (h : Users.updateUser table userId changes = some (record, table'))
    (id : ∀ user, (changes user).id = user.id)
    (status : ∀ user, (changes user).status = user.status ∨ (changes user).status = .active ∨
      request.suspends = some userId) :
    UserStep request draw table table' := by
  rw [(Users.updateUser_eq_some h).1]
  exact .change userId changes id status

theorem Users.createUser_eq_some {table table' : List User} {record record' : User}
    (h : Users.createUser P table record = some (record', table')) :
    record' = { record with email := P.normalizeEmail record.email } ∧
      table' = table ++ [record'] := by
  unfold Users.createUser at h
  dsimp only at h
  split at h
  · cases h
  · cases h
    exact ⟨rfl, rfl⟩

theorem login_effect (hfresh : Fresh P draw store) (email password : String) :
    Effect P settings (.login email password) draw clock store
      (login P settings draw clock store email password).2 := by
  unfold login
  split
  · exact .same rfl rfl rfl rfl
  split
  · exact .same rfl rfl rfl rfl
  split
  · exact .same rfl rfl rfl rfl
  split
  · exact .same rfl rfl rfl rfl
  · rename_i updated users hupdate
    refine .of_sessions (.updateUser hupdate (fun _ => rfl) fun _ => .inl rfl) ?_ rfl rfl
    let session : Session := ⟨draw.sessionId, updated.id, P.hashToken draw.refreshToken,
      draw.familyId, clock.issue + days settings.refreshTokenExpireDays, false, none⟩
    have h : SessionStep store.refreshSessions
        (updateWhere (fun _ => false) Session.revoke store.refreshSessions ++ [session]) :=
      .issue _ session rfl (fun a ha => ⟨(hfresh.session a ha).1, (hfresh.session a ha).2.1⟩)
        (.inl ⟨rfl, fun a ha => (hfresh.session a ha).2.2⟩)
    rwa [updateWhere_false] at h

theorem refresh_effect (settings : IdentitySettings) (clock : Clock) (hfresh : Fresh P draw store)
    (refreshToken : String) :
    Effect P settings (.refresh refreshToken) draw clock store
      (refresh P settings draw clock store refreshToken).2 := by
  -- a revocation after the sweep is one revocation
  have hswept (p : Session → Bool) {store' : Store}
      (hs : store'.refreshSessions = updateWhere p Session.revoke
        (Sessions.cleanupExpired store.refreshSessions clock.sweep))
      (hu : store'.users = store.users)
      (hc : store'.oauthAuthorizationCodes = store.oauthAuthorizationCodes)
      (hcl : store'.oauthClients = store.oauthClients) :
      Effect P settings (.refresh refreshToken) draw clock store store' := by
    refine .of_sessions (hu ▸ .same) ?_ hc hcl
    rw [hs, Sessions.cleanupExpired, updateWhere_updateWhere Session.revoke_revoke]
    exact .revoke _
  unfold refresh
  dsimp only
  split
  · exact .of_sessions .same (.revoke _) rfl rfl
  · rename_i session hfind
    split_ifs with hrevoked hexpired
    · exact hswept _ rfl rfl rfl rfl
    · exact hswept _ rfl rfl rfl rfl
    split
    · exact hswept _ rfl rfl rfl rfl
    · rename_i user _
      have hlive : session.revoked = false := Bool.eq_false_iff.2 hrevoked
      obtain ⟨hmem, -⟩ := mem_of_live (List.mem_of_find?_eq_some hfind) hlive
      refine .of_sessions .same ?_ rfl rfl
      change SessionStep _ (Sessions.revokeSession _ _ ++ [_])
      rw [Sessions.revokeSession, Sessions.cleanupExpired,
        updateWhere_updateWhere Session.revoke_revoke]
      refine .issue _ _ rfl (fun a ha => ⟨(hfresh.session a ha).1, (hfresh.session a ha).2.1⟩)
        (.inr ⟨session, hmem, hlive, ?_, rfl, rfl⟩)
      by_cases hp : (session.revoked = false ∧ session.expiresAt ≤ clock.sweep) <;>
        simp [hp, Session.revoke]

theorem logout_effect (refreshToken : Option String) :
    Effect P settings (.logout refreshToken) draw clock store (logout P store refreshToken) := by
  unfold logout
  split
  · exact .same rfl rfl rfl rfl
  split
  · exact .same rfl rfl rfl rfl
  · exact .of_sessions .same (.revoke _) rfl rfl

theorem changePassword_effect (userId currentPassword newPassword : String)
    (refreshToken : Option String) :
    Effect P settings (.changePassword userId currentPassword newPassword refreshToken) draw clock
      store (changePassword P draw store userId currentPassword newPassword refreshToken).2 := by
  unfold changePassword
  dsimp only
  split
  · exact .same rfl rfl rfl rfl
  split
  · exact .same rfl rfl rfl rfl
  split
  · exact .same rfl rfl rfl rfl
  · rename_i hupdate
    exact .of_sessions (.updateUser hupdate (fun _ => rfl) fun _ => .inl rfl) (.revoke _) rfl rfl

theorem resetPassword_effect (token newPassword : String) :
    Effect P settings (.resetPassword token newPassword) draw clock store
      (resetPassword P draw clock store token newPassword).2 := by
  unfold resetPassword
  dsimp only
  split
  · exact .same rfl rfl rfl rfl
  split
  · exact .same rfl rfl rfl rfl
  split
  · exact .same rfl rfl rfl rfl
  split
  · exact .same rfl rfl rfl rfl
  split
  · exact .same rfl rfl rfl rfl
  · -- the password is changed; the sessions go when the token could be marked
    rename_i hupdate
    have husers : UserStep (.resetPassword token newPassword : Request τ) draw store.users _ :=
      .updateUser hupdate (fun _ => rfl) fun _ => .inl rfl
    split
    · exact .of_sessions husers (.same _) rfl rfl
    · exact .of_sessions husers (.revoke _) rfl rfl

theorem createUser_effect (name email : String) (jurisdiction : Jurisdiction) :
    Effect P settings (.createUser name email jurisdiction) draw clock store
      (createUser P settings draw clock store name email jurisdiction).2 := by
  unfold createUser createUserWithTempPassword
  split <;> rename_i heq <;> split at heq <;> cases heq
  · exact .same rfl rfl rfl rfl
  · rename_i hcreate
    obtain ⟨rfl, rfl⟩ := Users.createUser_eq_some hcreate
    exact .of_sessions (.create _ rfl rfl) (.same _) rfl rfl

/-- Changing one field of a user. -/
theorem changeUser_effect {userId : String} {changes : User → User}
    (id : ∀ user, (changes user).id = user.id)
    (status : ∀ user, (changes user).status = user.status ∨ (changes user).status = .active ∨
      request.suspends = some userId) :
    Effect P settings request draw clock store (changeUser store userId changes).2 := by
  unfold changeUser
  split
  · exact .same rfl rfl rfl rfl
  · rename_i hupdate
    exact .of_sessions (.updateUser hupdate id status) (.same _) rfl rfl

theorem changeUser_sessions (store : Store) (userId : String) (changes : User → User) :
    (changeUser store userId changes).2.refreshSessions = store.refreshSessions := by
  unfold changeUser
  split <;> rfl

/-- Revoking all sessions of a user after an effect that touches no session. -/
theorem Effect.revokeAllForUser {store' : Store}
    (h : Effect P settings request draw clock store store')
    (hs : store'.refreshSessions = store.refreshSessions) (userId : String) :
    Effect P settings request draw clock store (revokeAllForUser store' userId) := by
  refine ⟨h.users, ?_, h.codes, h.clients⟩
  rw [Identity.revokeAllForUser, hs]
  exact .revoke _

theorem updateStatus_effect (userId : String) (status : Status) (admin : User) :
    Effect P settings (.updateStatus userId status admin) draw clock store
      (updateStatus store userId status admin).2 := by
  have hsessions := changeUser_sessions store userId fun user => { user with status }
  have hset : Effect P settings (.updateStatus userId status admin) draw clock store
      (setStatus store userId status).2 := by
    refine changeUser_effect (fun _ => rfl) fun _ => .inr ?_
    by_cases hactive : status = .active
    · exact .inl hactive
    · exact .inr (if_pos hactive)
  unfold updateStatus
  split
  · exact .same rfl rfl rfl rfl
  split <;> rename_i heq <;> rw [heq] at hset
  · exact hset
  · rw [← setStatus, heq] at hsessions
    dsimp only
    split_ifs
    · exact hset.revokeAllForUser hsessions userId
    · exact hset

theorem deleteUser_effect (userId : String) (admin : User) :
    Effect P settings (.deleteUser userId admin) draw clock store
      (deleteUser store userId admin).2 := by
  have hsessions := changeUser_sessions store userId fun user => { user with status := .disabled }
  have hset : Effect P settings (.deleteUser userId admin) draw clock store
      (setStatus store userId .disabled).2 :=
    changeUser_effect (fun _ => rfl) fun _ => .inr (.inr rfl)
  unfold deleteUser
  split
  · exact .same rfl rfl rfl rfl
  split <;> rename_i heq <;> rw [heq] at hset
  · exact hset
  · rw [← setStatus, heq] at hsessions
    exact hset.revokeAllForUser hsessions userId

theorem revokeUserSessions_effect (userId : String) :
    Effect P settings (.revokeUserSessions userId) draw clock store
      (revokeUserSessions store userId).2 := by
  unfold revokeUserSessions
  split
  · exact .same rfl rfl rfl rfl
  · exact .of_sessions .same (.revoke _) rfl rfl

theorem OAuthClients.create_eq_some {table table' : List OAuthClient} {record : OAuthClient}
    (h : OAuthClients.create table record = some table') : table' = table ++ [record] := by
  unfold OAuthClients.create at h
  split at h
  · cases h
  · exact (Option.some_injective _ h).symm

theorem registerPublicClient_effect (clientName : String) (redirectUris : List String)
    (scopes : Finset String) (resources : List String) :
    Effect P settings (.registerPublicClient clientName redirectUris scopes resources) draw clock
      store
      (registerPublicClient P settings draw store clientName redirectUris scopes resources).2 := by
  unfold registerPublicClient
  dsimp only
  split
  · exact .same rfl rfl rfl rfl
  split
  · exact .same rfl rfl rfl rfl
  · rename_i hcreate
    refine ⟨.same, .same _, .same, ?_⟩
    rw [OAuthClients.create_eq_some hcreate]
    exact .register _ fun h => by simp at h

theorem registerConfidentialClient_effect (clientName : String) (grants : Finset GrantType)
    (scopes : Finset String) (resources sourceAudiences : List String) :
    Effect P settings
      (.registerConfidentialClient clientName grants scopes resources sourceAudiences) draw clock
      store (registerConfidentialClient P settings draw store clientName grants scopes resources
        sourceAudiences).2 := by
  unfold registerConfidentialClient
  dsimp only
  split
  · exact .same rfl rfl rfl rfl
  split
  · exact .same rfl rfl rfl rfl
  · rename_i hcreate
    refine ⟨.same, .same _, .same, ?_⟩
    rw [OAuthClients.create_eq_some hcreate]
    exact .register _ fun _ => ⟨_, _, _, _, rfl⟩

theorem authorize_effect (consented : AuthorizationRequest) (email password : String) :
    Effect P settings (.authorize consented email password) draw clock store
      (authorize P settings draw clock store consented email password).2 := by
  unfold authorize
  split
  · exact .same rfl rfl rfl rfl
  split
  · exact .same rfl rfl rfl rfl
  · rename_i user hconsent
    exact ⟨.same, .same _, .issue _ consented email password user rfl hconsent, .same⟩

theorem exchangeAuthorizationCode_effect (redemption : RedemptionRequest) :
    Effect P settings (.exchangeAuthorizationCode redemption) draw clock store
      (exchangeAuthorizationCode P settings draw clock store redemption).2 := by
  unfold exchangeAuthorizationCode
  split
  · exact .same rfl rfl rfl rfl
  · obtain ⟨p, hp⟩ := OAuthCodes.exists_consume_eq store.oauthAuthorizationCodes
      (P.hashToken redemption.code)
    refine ⟨.same, .same _, ?_, .same⟩
    dsimp only
    rw [hp]
    exact .burn p

/-- **Every request has such an effect.** -/
theorem handle_effect (settings : IdentitySettings) (clock : Clock) (hfresh : Fresh P draw store)
    (request : Request τ) :
    Effect P settings request draw clock store
      (handle P settings draw clock store request).2 := by
  cases request with
  | login email password => exact login_effect hfresh email password
  | refresh refreshToken => exact refresh_effect settings clock hfresh refreshToken
  | logout refreshToken => exact logout_effect refreshToken
  | changePassword userId currentPassword newPassword refreshToken =>
    exact changePassword_effect userId currentPassword newPassword refreshToken
  | forgotPassword email =>
    change Effect _ _ _ _ _ _ (requestPasswordReset P settings draw clock store email).2
    unfold requestPasswordReset
    split <;> exact .same rfl rfl rfl rfl
  | resetPassword token newPassword => exact resetPassword_effect token newPassword
  | createUser name email jurisdiction => exact createUser_effect name email jurisdiction
  | updateUser userId name => exact changeUser_effect (fun _ => rfl) fun _ => .inl rfl
  | updateStatus userId status admin => exact updateStatus_effect userId status admin
  | updateJurisdiction userId jurisdiction =>
    exact changeUser_effect (fun _ => rfl) fun _ => .inl rfl
  | revokeUserSessions userId => exact revokeUserSessions_effect userId
  | deleteUser userId admin => exact deleteUser_effect userId admin
  | registerPublicClient clientName redirectUris scopes resources =>
    exact registerPublicClient_effect clientName redirectUris scopes resources
  | registerConfidentialClient clientName grants scopes resources sourceAudiences =>
    exact registerConfidentialClient_effect clientName grants scopes resources sourceAudiences
  | authorize consented email password => exact authorize_effect consented email password
  | exchangeAuthorizationCode redemption => exact exchangeAuthorizationCode_effect redemption
  | clientCredentials => exact .same rfl rfl rfl rfl
  | tokenExchange => exact .same rfl rfl rfl rfl

/-! ## The access tokens of a response -/

/-- Why an access token with these claims is minted. -/
inductive Origin (P : Primitives τ) (settings : IdentitySettings) (store : Store)
    (request : Request τ) (clock : Clock) (claims : Claims) : Prop
  /-- For a user who has signed in. -/
  | user (user : User) (mem : user ∈ store.users) (active : user.status = .active)
      (sub : claims.sub = user.id)
  /-- For a client that acts for itself. -/
  | client (clientId : String) (sub : claims.sub = "client:" ++ clientId)
  /-- For the user of an unused, unexpired code. -/
  | code (redemption : RedemptionRequest)
      (redeems : request = .exchangeAuthorizationCode redemption)
      (record : AuthorizationCode) (mem : record ∈ store.oauthAuthorizationCodes)
      (unused : record.used = false) (unexpired : clock.check < record.expiresAt)
      (sub : claims.sub = record.userId)
  /-- For the subject of a token that a registered client may exchange. -/
  | exchange (exchanged : ExchangeRequest τ) (exchanges : request = .tokenExchange exchanged)
      (client : OAuthClient) (mem : client ∈ store.oauthClients)
      (grant : .tokenExchange ∈ client.grantTypes) (subject : Claims)
      (exchangeable : Exchangeable P settings clock.check exchanged.subjectToken client subject)
      (sub : claims.sub = subject.sub)

theorem login_minted {email password : String} {tokens : AuthTokens τ}
    (h : (login P settings draw clock store email password).1 = .ok tokens) :
    ∃ claims, tokens.accessToken = P.encode claims ∧
      Origin P settings store request clock claims := by
  unfold login at h
  split at h
  · cases h
  rename_i user hfind
  split at h
  · cases h
  rename_i hactive
  split at h
  · cases h
  split at h
  · cases h
  rename_i updated users hupdate
  cases h
  refine ⟨_, rfl, .user user (List.mem_of_find?_eq_some hfind) (not_not.1 hactive) ?_⟩
  exact (Users.updateUser_eq_some hupdate).2

theorem refresh_minted {refreshToken : String} {tokens : AuthTokens τ}
    (h : (refresh P settings draw clock store refreshToken).1 = .ok tokens) :
    ∃ claims, tokens.accessToken = P.encode claims ∧
      Origin P settings store request clock claims := by
  unfold refresh at h
  dsimp only at h
  split at h
  · cases h
  split at h
  · cases h
  split at h
  · cases h
  split at h
  · cases h
  rename_i user hfilter
  cases h
  obtain ⟨hget, hactive⟩ := Option.filter_eq_some_iff.1 hfilter
  exact ⟨_, rfl, .user user (List.mem_of_find?_eq_some hget) (of_decide_eq_true hactive) rfl⟩

theorem changePassword_minted {userId currentPassword newPassword : String}
    {refreshToken : Option String} {updated : User}
    (h : (changePassword P draw store userId currentPassword newPassword refreshToken).1 =
      .ok updated) :
    Origin P settings store request clock (buildAccessClaims settings draw clock updated) := by
  unfold changePassword at h
  dsimp only at h
  split at h
  · cases h
  rename_i user hfilter
  split at h
  · cases h
  split at h
  · cases h
  rename_i record users hupdate
  cases h
  obtain ⟨hget, hactive⟩ := Option.filter_eq_some_iff.1 hfilter
  have hid : user.id = userId := by simpa [Users.getById] using List.find?_some hget
  refine .user user (List.mem_of_find?_eq_some hget) (of_decide_eq_true hactive) ?_
  exact (Users.updateUser_eq_some hupdate).2.trans hid.symm

theorem exchangeAuthorizationCode_minted {redemption : RedemptionRequest} {token : OAuthToken τ}
    (h : (exchangeAuthorizationCode P settings draw clock store redemption).1 = .ok token) :
    ∃ claims, token.accessToken = P.encode claims ∧
      Origin P settings store (.exchangeAuthorizationCode redemption) clock claims := by
  unfold exchangeAuthorizationCode at h
  split at h
  · cases h
  · obtain ⟨record, hrecord, hr, -, rfl⟩ := redeem_eq_ok_iff.1 h
    obtain ⟨hmem, -, hunused, -⟩ := OAuthCodes.consume_eq_some hrecord
    exact ⟨_, rfl, .code redemption rfl record hmem hunused hr.unexpired rfl⟩

theorem clientCredentials_minted {clientId : String} {clientSecret : Option String}
    {scope resource : String} {token : OAuthToken τ}
    (h : clientCredentials P settings draw clock store clientId clientSecret scope resource =
      .ok token) :
    ∃ claims, token.accessToken = P.encode claims ∧
      Origin P settings store request clock claims := by
  simp only [clientCredentials, except_bind_eq_ok, except_pure_eq_ok] at h
  obtain ⟨_, -, _, -, _, -, rfl⟩ := h
  exact ⟨_, rfl, .client clientId rfl⟩

theorem tokenExchange_minted (hP : P.TokensReadBack) {exchanged : ExchangeRequest τ}
    {token : OAuthToken τ}
    (h : tokenExchange P settings draw clock store exchanged = .ok token) :
    ∃ claims, token.accessToken = P.encode claims ∧
      Origin P settings store (.tokenExchange exchanged) clock claims := by
  obtain ⟨client, subject, hauth, hex, -, rfl⟩ := (tokenExchange_eq_ok_iff hP).1 h
  exact ⟨_, rfl, .exchange exchanged rfl client (List.mem_of_find?_eq_some hauth.get) hauth.grant
    subject hex rfl⟩

/-- **For whom access tokens are minted.** -/
theorem handle_minted (hP : P.TokensReadBack) (request : Request τ) {token : τ}
    (h : token ∈ (handle P settings draw clock store request).1.minted) :
    ∃ claims, token = P.encode claims ∧ Origin P settings store request clock claims := by
  have respond_ok {ε α : Type} {result : Except ε α} {ok : α → Response τ} {error : ε → Response τ}
      (herror : ∀ e, (error e).minted = []) (hmem : token ∈ (respond ok error result).minted) :
      ∃ a, result = .ok a ∧ token ∈ (ok a).minted := by
    cases result with
    | error e =>
      rw [respond, herror] at hmem
      cases hmem
    | ok a => exact ⟨a, rfl, hmem⟩
  cases request with
  | login email password =>
    obtain ⟨tokens, hok, hmem⟩ := respond_ok (fun _ => rfl) h
    cases List.mem_singleton.1 hmem
    exact login_minted hok
  | refresh refreshToken =>
    obtain ⟨tokens, hok, hmem⟩ := respond_ok (fun _ => rfl) h
    cases List.mem_singleton.1 hmem
    exact refresh_minted hok
  | changePassword userId currentPassword newPassword refreshToken =>
    obtain ⟨updated, hok, hmem⟩ := respond_ok (fun _ => rfl) h
    cases List.mem_singleton.1 hmem
    exact ⟨_, rfl, changePassword_minted hok⟩
  | exchangeAuthorizationCode redemption =>
    obtain ⟨issued, hok, hmem⟩ := respond_ok (fun _ => rfl) h
    cases List.mem_singleton.1 hmem
    exact exchangeAuthorizationCode_minted hok
  | clientCredentials clientId clientSecret scope resource =>
    obtain ⟨issued, hok, hmem⟩ := respond_ok (fun _ => rfl) h
    cases List.mem_singleton.1 hmem
    exact clientCredentials_minted hok
  | tokenExchange exchanged =>
    obtain ⟨issued, hok, hmem⟩ := respond_ok (fun _ => rfl) h
    cases List.mem_singleton.1 hmem
    exact tokenExchange_minted hP hok
  | logout => cases h
  | forgotPassword => cases h
  | resetPassword | createUser | updateUser | updateStatus | updateJurisdiction
  | revokeUserSessions | deleteUser | registerPublicClient | registerConfidentialClient
  | authorize =>
    obtain ⟨_, -, hmem⟩ := respond_ok (fun _ => rfl) h
    cases hmem

end

end Identity

end TrackFlow
