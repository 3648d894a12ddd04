import TrackFlow.LTS.Machine
import TrackFlow.Identity.OAuth

/-!
# The identity server

The requests that the identity service handles, and the machine that handles them one after the
other in any order.  A label carries the request with everything that the service does not
decide: the random values it draws and what the clock reads.

* `handle` : the response to a request and the store that it leaves.
* `Fresh` : drawn identifiers and tokens are new, as random values are.
* `server` : the machine.
-/

namespace TrackFlow

namespace Identity

/-- What clients, users and administrators send.  The administrator of a request is the user
that its access token was resolved to. -/
inductive Request (τ : Type)
  | login (email password : String)
  | refresh (refreshToken : String)
  | logout (refreshToken : Option String)
  | changePassword (userId currentPassword newPassword : String) (refreshToken : Option String)
  | forgotPassword (email : String)
  | resetPassword (token newPassword : String)
  | createUser (name email : String) (jurisdiction : Jurisdiction)
  | updateUser (userId name : String)
  | updateStatus (userId : String) (status : Status) (admin : User)
  | updateJurisdiction (userId : String) (jurisdiction : Jurisdiction)
  | revokeUserSessions (userId : String)
  | deleteUser (userId : String) (admin : User)
  | registerPublicClient (clientName : String) (redirectUris : List String)
      (scopes : Finset String) (resources : List String)
  | registerConfidentialClient (clientName : String) (grants : Finset GrantType)
      (scopes : Finset String) (resources sourceAudiences : List String)
  | authorize (request : AuthorizationRequest) (email password : String)
  | exchangeAuthorizationCode (request : RedemptionRequest)
  | clientCredentials (clientId : String) (clientSecret : Option String) (scope resource : String)
  | tokenExchange (request : ExchangeRequest τ)
  deriving DecidableEq

/-- What the service answers. -/
inductive Response (τ : Type)
  | session (tokens : AuthTokens τ)
  | accessToken (token : τ)
  | mailed (resetToken : Option String)
  | created (user : UserPublic) (temporaryPassword : String)
  | user (user : UserPublic)
  | client (client : OAuthClient)
  | clientSecret (clientId clientSecret : String)
  | code (code : String)
  | token (token : OAuthToken τ)
  | done
  | failed (failure : Failure)
  | refused (error : OAuthError)
  | notRegistered (error : RegistrationError)
  deriving DecidableEq

/-- The response to the outcome of a handler. -/
def respond {τ ε α : Type} (ok : α → Response τ) (error : ε → Response τ) :
    Except ε α → Response τ
  | .ok a => ok a
  | .error e => error e

section

variable {τ : Type} (P : Primitives τ) (settings : IdentitySettings) (draw : Draw) (clock : Clock)

/-- The response to a request, and the store afterwards. -/
def handle (store : Store) : Request τ → Response τ × Store
  | .login email password =>
    (login P settings draw clock store email password).map (respond .session .failed) id
  | .refresh refreshToken =>
    (refresh P settings draw clock store refreshToken).map (respond .session .failed) id
  | .logout refreshToken => (.done, logout P store refreshToken)
  | .changePassword userId currentPassword newPassword refreshToken =>
    (changePassword P draw store userId currentPassword newPassword refreshToken).map
      (respond (fun user => .accessToken (signAccessToken P settings draw clock user)) .failed) id
  | .forgotPassword email =>
    (requestPasswordReset P settings draw clock store email).map .mailed id
  | .resetPassword token newPassword =>
    (resetPassword P draw clock store token newPassword).map (respond (fun _ => .done) .failed) id
  | .createUser name email jurisdiction =>
    (createUser P settings draw clock store name email jurisdiction).map
      (respond (fun created => .created created.1 created.2) .failed) id
  | .updateUser userId name => (updateUser store userId name).map (respond .user .failed) id
  | .updateStatus userId status admin =>
    (updateStatus store userId status admin).map (respond .user .failed) id
  | .updateJurisdiction userId jurisdiction =>
    (setJurisdiction store userId jurisdiction).map (respond .user .failed) id
  | .revokeUserSessions userId =>
    (revokeUserSessions store userId).map (respond (fun _ => .done) .failed) id
  | .deleteUser userId admin => (deleteUser store userId admin).map (respond .user .failed) id
  | .registerPublicClient clientName redirectUris scopes resources =>
    (registerPublicClient P settings draw store clientName redirectUris scopes resources).map
      (respond .client .notRegistered) id
  | .registerConfidentialClient clientName grants scopes resources sourceAudiences =>
    (registerConfidentialClient P settings draw store clientName grants scopes resources
      sourceAudiences).map (respond (fun c => .clientSecret c.1 c.2) .notRegistered) id
  | .authorize request email password =>
    (authorize P settings draw clock store request email password).map (respond .code .refused) id
  | .exchangeAuthorizationCode request =>
    (exchangeAuthorizationCode P settings draw clock store request).map (respond .token .refused) id
  | .clientCredentials clientId clientSecret scope resource =>
    (respond .token .refused
      (clientCredentials P settings draw clock store clientId clientSecret scope resource), store)
  | .tokenExchange request =>
    (respond .token .refused (tokenExchange P settings draw clock store request), store)

end

/-- Identifiers and tokens that are drawn occur nowhere in the store. -/
structure Fresh {τ : Type} (P : Primitives τ) (draw : Draw) (store : Store) : Prop where
  session : ∀ session ∈ store.refreshSessions,
    session.id ≠ draw.sessionId ∧ session.tokenHash ≠ P.hashToken draw.refreshToken ∧
      session.familyId ≠ draw.familyId
  code : ∀ code ∈ store.oauthAuthorizationCodes,
    code.id ≠ draw.codeId ∧ code.tokenHash ≠ P.hashToken draw.code
  user : ∀ user ∈ store.users, user.id ≠ draw.userId

instance {τ : Type} (P : Primitives τ) (draw : Draw) (store : Store) :
    Decidable (Fresh P draw store) :=
  decidable_of_iff (_ ∧ _ ∧ _)
    ⟨fun ⟨h, h', h''⟩ => ⟨h, h', h''⟩, fun h => ⟨h.session, h.code, h.user⟩⟩

/-- A request with what it draws and what the clock reads. -/
structure Label (τ : Type) where
  request : Request τ
  draw : Draw
  clock : Clock

/-- The service handles one request after the other. -/
def server {τ : Type} (P : Primitives τ) (settings : IdentitySettings) :
    Machine Store (Label τ) where
  next store label :=
    if Fresh P label.draw store then
      some (handle P settings label.draw label.clock store label.request).2
    else none

theorem server_next_eq_some {τ : Type} {P : Primitives τ} {settings : IdentitySettings}
    {store store' : Store} {label : Label τ}
    (h : (server P settings).next store label = some store') :
    Fresh P label.draw store ∧
      store' = (handle P settings label.draw label.clock store label.request).2 := by
  simp only [server] at h
  split_ifs at h with hfresh
  exact ⟨hfresh, (Option.some_injective _ h).symm⟩

/-! ## A store for concrete runs -/

/-- An active user whose password is `pw`. -/
def activeUser : User where
  id := "user"
  name := "Ana"
  email := "ana@example.com"
  hashedPassword := "pw"
  role := .user
  status := .active
  jurisdiction := some .es
  mustChangePassword := false
  createdAt := 0
  lastLoginAt := none

/-- A public client for the authorization code flow. -/
def assistant : OAuthClient where
  clientId := "assistant"
  clientName := "Assistant"
  clientSecretHash := none
  redirectUris := ["https://assistant/callback"]
  grantTypes := [.authorizationCode]
  scopes := ["inventory:read"]
  resources := ["https://mcp"]
  sourceAudiences := []
  active := true

/-- A store with one user and one client, without sessions and codes. -/
def newStore : Store where
  users := [activeUser]
  refreshSessions := []
  passwordResets := []
  oauthClients := [assistant]
  oauthAuthorizationCodes := []

end Identity

end TrackFlow
