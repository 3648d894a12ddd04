import TrackFlow.Identity.Service
import TrackFlow.Python.Raise

/-!
# The authorization server

`OAuthService` of `oauth.py`: registration, authorization with PKCE, and the three grants.

The redemption of a code is cut where the store is touched: `authenticateClient` reads the
clients, `OAuthCodes.consume` burns the code, and `redeem` checks the burnt record and issues
the token without the store.
-/

namespace TrackFlow

namespace Identity

/-- `OAuthError`. -/
structure OAuthError where
  error : String
  description : String
  statusCode : ℕ
  deriving DecidableEq, Repr

/-- Why a registration fails: the service refuses it, or the store raises `ValueError`. -/
inductive RegistrationError
  | oauth (error : OAuthError)
  | value (message : String)
  deriving DecidableEq, Repr

/-- `OAuthToken`. -/
structure OAuthToken (τ : Type) where
  accessToken : τ
  expiresIn : ℕ
  scope : String
  deriving DecidableEq, Repr

/-- `SUPPORTED_SCOPES`. -/
def supportedScopes : Finset String :=
  {"mcp:connect", "incidents:read", "incidents:write", "inventory:read"}

theorem isScope_of_mem_supportedScopes : ∀ scope ∈ supportedScopes, IsScope scope := by decide

/-! ## The errors -/

def clientAuthenticationFailed : OAuthError :=
  ⟨"invalid_client", "Client authentication failed.", 401⟩

def unauthorizedClient : OAuthError :=
  ⟨"unauthorized_client", "The client may not use this grant type.", 403⟩

def invalidCode : OAuthError :=
  ⟨"invalid_grant", "The authorization code is invalid or expired.", 400⟩

def pkceFailed : OAuthError := ⟨"invalid_grant", "PKCE verification failed.", 400⟩

def scopesNotSupported : OAuthError :=
  ⟨"invalid_scope", "One or more requested scopes are not supported.", 400⟩

def scopesNotAllowed : OAuthError :=
  ⟨"invalid_scope", "One or more requested scopes are not allowed.", 400⟩

def resourceNotAllowed : OAuthError :=
  ⟨"invalid_target", "The requested resource is not allowed.", 400⟩

def invalidSubjectToken : OAuthError :=
  ⟨"invalid_grant", "The subject token is invalid or expired.", 400⟩

def scopesIncreased : OAuthError :=
  ⟨"invalid_scope", "Token exchange may not increase scopes.", 400⟩

def accessDenied : OAuthError := ⟨"access_denied", "Authorization was denied.", 401⟩

/-! ## Checks of a client -/

/-- `if c: raise e`. -/
def raiseIf {ε : Type*} (c : Prop) [Decidable c] (e : ε) : Except ε Unit :=
  if c then .error e else .ok ()

/-- `_validate_scopes`. -/
def validateScopes (requested : Finset String) : Except OAuthError Unit :=
  raiseIf (requested = ∅ ∨ ¬requested ⊆ supportedScopes) scopesNotSupported

/-- `_require_client_scopes`. -/
def requireClientScopes (client : OAuthClient) (requested : Finset String) :
    Except OAuthError Unit := do
  validateScopes requested
  raiseIf (¬requested ⊆ client.scopes.toFinset) scopesNotAllowed

/-- `_require_client_resource`. -/
def requireClientResource (client : OAuthClient) (resource : String) : Except OAuthError Unit :=
  raiseIf (resource ∉ client.resources) resourceNotAllowed

/-- `_active_client`. -/
def activeClient (clients : List OAuthClient) (clientId : String) : Except OAuthError OAuthClient :=
  match OAuthClients.get clients clientId with
  | none => .error clientAuthenticationFailed
  | some client => if client.active = true then .ok client else .error clientAuthenticationFailed

/-- `PKCE_VALUE.fullmatch`. -/
def isPkceValue (verifier : String) : Bool :=
  43 ≤ verifier.length ∧ verifier.length ≤ 128 ∧
    verifier.toList.all fun c => c.isAlphanum || c ∈ ['.', '_', '~', '-']

/-- `PKCE_CHALLENGE.fullmatch`. -/
def isPkceChallenge (challenge : String) : Bool :=
  43 ≤ challenge.length ∧ challenge.length ≤ 128 ∧
    challenge.toList.all fun c => c.isAlphanum || c ∈ ['_', '-']

section

variable {τ : Type} (P : Primitives τ) (settings : IdentitySettings) (draw : Draw) (clock : Clock)

/-- A confidential client has to present its secret, a public one must not present any. -/
def secretRefused (client : OAuthClient) (clientSecret : Option String) : Bool :=
  match client.clientSecretHash with
  | some secretHash =>
    !(presented clientSecret).any fun secret => P.verifyPassword secret secretHash
  | none => (presented clientSecret).isSome

/-- `_authenticate_client`. -/
def authenticateClient (clients : List OAuthClient) (clientId : String)
    (clientSecret : Option String) (grant : GrantType) : Except OAuthError OAuthClient := do
  let client ← activeClient clients clientId
  raiseIf (grant ∉ client.grantTypes) unauthorizedClient
  raiseIf (secretRefused P client clientSecret = true) clientAuthenticationFailed
  return client

/-! ## Registration -/

/-- Plain HTTP is accepted for a local host outside production. -/
def localHttp (url : ParsedUrl) : Bool :=
  url.scheme = "http" ∧ url.hostname ∈ [some "localhost", some "127.0.0.1"] ∧
    settings.appEnvironment ≠ "production"

/-- `_validate_redirect_uris`. -/
def validateRedirectUris (redirectUris : List String) : Except OAuthError Unit :=
  if redirectUris = [] then
    .error ⟨"invalid_redirect_uri", "At least one redirect URI is required.", 400⟩
  else if redirectUris.any fun uri =>
      let url := P.urlparse uri
      url.netloc = "" ∨ url.fragment ≠ "" ∨
      (url.scheme ≠ "https" ∧ localHttp settings url = false) then
    .error ⟨"invalid_redirect_uri", "Redirect URIs must use HTTPS or local HTTP.", 400⟩
  else .ok ()

/-- `_validate_resources`. -/
def validateResources (resources : List String) : Except OAuthError Unit :=
  if resources = [] then
    .error ⟨"invalid_client_metadata", "At least one resource URI is required.", 400⟩
  else if resources.any fun resource =>
      let url := P.urlparse resource
      url.netloc = "" ∨ (url.scheme ≠ "https" ∧ localHttp settings url = false) then
    .error ⟨"invalid_client_metadata", "Resource URIs must use HTTPS or local HTTP.", 400⟩
  else .ok ()

/-- `register_public_client`. -/
def registerPublicClient (store : Store) (clientName : String) (redirectUris : List String)
    (scopes : Finset String) (resources : List String) :
    Except RegistrationError OAuthClient × Store :=
  let client : OAuthClient :=
    { clientId := draw.clientId
      clientName
      clientSecretHash := none
      redirectUris
      grantTypes := [.authorizationCode]
      scopes := scopes.sort
      resources
      sourceAudiences := []
      active := true }
  let checked : Except OAuthError Unit := do
    raiseIf (settings.oauthDynamicRegistrationEnabled = false)
      ⟨"registration_not_supported", "Dynamic client registration is disabled.", 403⟩
    raiseIf (P.strip clientName = "" ∨ 160 < clientName.length)
      ⟨"invalid_client_metadata", "A valid client name is required.", 400⟩
    validateRedirectUris P settings redirectUris
    validateScopes scopes
    validateResources P settings resources
  match checked with
  | .error e => (.error (.oauth e), store)
  | .ok () =>
    match OAuthClients.create store.oauthClients client with
    | none => (.error (.value "OAuth client already exists"), store)
    | some oauthClients => (.ok client, { store with oauthClients })

/-- `register_confidential_client`: the client id and its secret. -/
def registerConfidentialClient (store : Store) (clientName : String) (grants : Finset GrantType)
    (scopes : Finset String) (resources sourceAudiences : List String) :
    Except RegistrationError (String × String) × Store :=
  let client : OAuthClient :=
    { clientId := draw.clientId
      clientName
      clientSecretHash := some (P.hashPassword draw.salt draw.clientSecret)
      redirectUris := []
      grantTypes := [.clientCredentials, .tokenExchange].filter fun grant => grant ∈ grants
      scopes := scopes.sort
      resources
      sourceAudiences
      active := true }
  let checked : Except OAuthError Unit := do
    validateScopes scopes
    validateResources P settings resources
    raiseIf (grants = ∅ ∨ GrantType.authorizationCode ∈ grants)
      ⟨"invalid_client_metadata", "Unsupported confidential-client grant type.", 400⟩
  match checked with
  | .error e => (.error (.oauth e), store)
  | .ok () =>
    match OAuthClients.create store.oauthClients client with
    | none => (.error (.value "OAuth client already exists"), store)
    | some oauthClients => (.ok (draw.clientId, draw.clientSecret), { store with oauthClients })

/-! ## Authorization -/

/-- The parameters of an authorization request. -/
structure AuthorizationRequest where
  clientId : String
  redirectUri : String
  responseType : String
  scope : String
  resource : String
  codeChallenge : String
  codeChallengeMethod : String
  deriving DecidableEq, Repr

/-- `validate_redirect_uri`. -/
def validateRedirectUri (clients : List OAuthClient) (clientId redirectUri : String) :
    Except OAuthError OAuthClient := do
  let client ← activeClient clients clientId
  raiseIf (redirectUri ∉ client.redirectUris)
    ⟨"invalid_request", "The redirect URI is not registered.", 400⟩
  return client

/-- `validate_authorization_request`. -/
def validateAuthorizationRequest (clients : List OAuthClient) (request : AuthorizationRequest) :
    Except OAuthError OAuthClient := do
  let client ← validateRedirectUri clients request.clientId request.redirectUri
  raiseIf (request.responseType ≠ "code" ∨ GrantType.authorizationCode ∉ client.grantTypes)
    ⟨"unsupported_response_type", "Only the authorization code flow is supported.", 400⟩
  requireClientScopes client (scopes request.scope)
  requireClientResource client request.resource
  raiseIf (request.codeChallengeMethod ≠ "S256" ∨ isPkceChallenge request.codeChallenge = false)
    ⟨"invalid_request", "S256 PKCE is required.", 400⟩
  return client

/-- The row that an approved request writes. -/
def issuedCode (request : AuthorizationRequest) (user : User) : AuthorizationCode where
  id := draw.codeId
  tokenHash := P.hashToken draw.code
  clientId := request.clientId
  userId := user.id
  role := user.role
  jurisdiction := user.jurisdiction
  redirectUri := request.redirectUri
  scope := request.scope
  resource := request.resource
  codeChallenge := request.codeChallenge
  expiresAt := clock.issue + minutes settings.oauthAuthorizationCodeExpireMinutes
  used := false

/-- The user who may consent. -/
def consentingUser (users : List User) (email password : String) : Option User :=
  (Users.getByEmail P users email).filter fun user =>
    user.status = .active ∧ user.mustChangePassword = false ∧
      P.verifyPassword password user.hashedPassword = true

/-- `authorize`: the code; the request counts as a code request with S256. -/
def authorize (store : Store) (request : AuthorizationRequest) (email password : String) :
    Except OAuthError String × Store :=
  match validateAuthorizationRequest store.oauthClients
      { request with responseType := "code", codeChallengeMethod := "S256" } with
  | .error e => (.error e, store)
  | .ok _ =>
    match consentingUser P store.users email password with
    | none => (.error accessDenied, store)
    | some user =>
      let codes := OAuthCodes.cleanupExpired store.oauthAuthorizationCodes clock.sweep
      (.ok draw.code,
        { store with
          oauthAuthorizationCodes :=
            OAuthCodes.create codes (issuedCode P settings draw clock request user) })

/-! ## Tokens -/

/-- `_issue`. -/
def issue (subject clientId : String) (scopes : Finset String) (audience : String) (role : Role)
    (actor : Option String) (jurisdiction : Option Jurisdiction) : OAuthToken τ where
  accessToken :=
    P.encode (oauthClaims settings draw clock subject clientId scopes audience role actor
      jurisdiction)
  expiresIn := settings.oauthAccessTokenExpireMinutes * 60
  scope := scopeClaim scopes

/-- The parameters of a code redemption. -/
structure RedemptionRequest where
  clientId : String
  clientSecret : Option String
  code : String
  redirectUri : String
  codeVerifier : String
  deriving DecidableEq, Repr

/-- `exchange_authorization_code` after the code was looked up and burnt. -/
def redeem (request : RedemptionRequest) (client : OAuthClient)
    (record : Option AuthorizationCode) :
    Except OAuthError (OAuthToken τ) :=
  match record with
  | none => .error invalidCode
  | some record => do
    raiseIf (record.expiresAt ≤ clock.check) invalidCode
    raiseIf (record.clientId ≠ request.clientId ∨ record.redirectUri ≠ request.redirectUri)
      invalidCode
    raiseIf (isPkceValue request.codeVerifier = false ∨
      P.pkceChallenge request.codeVerifier ≠ record.codeChallenge) pkceFailed
    requireClientScopes client (scopes record.scope)
    return issue P settings draw clock record.userId request.clientId (scopes record.scope)
      record.resource record.role none record.jurisdiction

/-- `exchange_authorization_code`. -/
def exchangeAuthorizationCode (store : Store) (request : RedemptionRequest) :
    Except OAuthError (OAuthToken τ) × Store :=
  match authenticateClient P store.oauthClients request.clientId request.clientSecret
      .authorizationCode with
  | .error e => (.error e, store)
  | .ok client =>
    let (record, oauthAuthorizationCodes) :=
      OAuthCodes.consume store.oauthAuthorizationCodes (P.hashToken request.code)
    (redeem P settings draw clock request client record, { store with oauthAuthorizationCodes })

/-- `client_credentials`. -/
def clientCredentials (store : Store) (clientId : String) (clientSecret : Option String)
    (scope resource : String) : Except OAuthError (OAuthToken τ) := do
  let client ← authenticateClient P store.oauthClients clientId clientSecret .clientCredentials
  requireClientScopes client (scopes scope)
  requireClientResource client resource
  return issue P settings draw clock ("client:" ++ clientId) clientId (scopes scope) resource
    .service none none

/-- What `_verify_subject_token` keeps of a token. -/
structure Subject where
  sub : String
  role : Role
  clientId : Option String
  jurisdiction : Option Jurisdiction
  scopes : Option (Finset String)
  deriving DecidableEq

/-- The subject of a token with these claims. -/
def Subject.ofClaims (claims : Claims) : Subject where
  sub := claims.sub
  role := claims.role.getD .service
  clientId := claims.clientId
  jurisdiction := claims.jurisdiction
  scopes := claims.scope.map Identity.scopes

/-- `_verify_subject_token`. -/
def verifySubjectToken (token : τ) (client : OAuthClient) : Except OAuthError Subject :=
  match P.unverifiedClaims token with
  | none => .error invalidSubjectToken
  | some unverified => do
    raiseIf (unverified.aud ∉ client.sourceAudiences)
      ⟨"invalid_grant", "The subject token audience is not allowed.", 400⟩
    raiseIf (unverified.iss ≠ settings.jwtIssuer ∧ unverified.iss ≠ settings.oauthIssuerUrl)
      ⟨"invalid_grant", "The subject token issuer is not allowed.", 400⟩
    match P.decode clock.check unverified.iss unverified.aud token with
    | none => .error invalidSubjectToken
    | some claims =>
      raiseIf (claims.tokenType ≠ tokenTypeAccess ∨ claims.status.getD .active ≠ .active ∨
        claims.mustChangePassword = some true) invalidSubjectToken
      return Subject.ofClaims claims

/-- The parameters of a token exchange. -/
structure ExchangeRequest (τ : Type) where
  clientId : String
  clientSecret : Option String
  subjectToken : τ
  scope : String
  resource : String
  deriving DecidableEq, Repr

/-- `token_exchange`. -/
def tokenExchange (store : Store) (request : ExchangeRequest τ) :
    Except OAuthError (OAuthToken τ) := do
  let client ← authenticateClient P store.oauthClients request.clientId request.clientSecret
    .tokenExchange
  let requested := scopes request.scope
  requireClientScopes client requested
  requireClientResource client request.resource
  let subject ← verifySubjectToken P settings clock request.subjectToken client
  raiseIf (¬∀ source ∈ subject.scopes, requested ⊆ source) scopesIncreased
  return issue P settings draw clock subject.sub request.clientId requested request.resource
    subject.role ((presented subject.clientId).getD "trackflow-backoffice") subject.jurisdiction

end

/-! ## What a success means -/

theorem raiseIf_eq_ok_iff {ε : Type*} {c : Prop} [Decidable c] {e : ε} {u : Unit} :
    raiseIf c e = .ok u ↔ ¬c := by
  by_cases h : c <;> simp [raiseIf, h]

/-- The scopes are among those that are registered for the client. -/
structure Registered (client : OAuthClient) (requested : Finset String) : Prop where
  nonempty : requested ≠ ∅
  supported : requested ⊆ supportedScopes
  registered : requested ⊆ client.scopes.toFinset

theorem Registered.isScope {client : OAuthClient} {requested : Finset String}
    (h : Registered client requested) : ∀ scope ∈ requested, IsScope scope :=
  fun scope hscope => isScope_of_mem_supportedScopes scope (h.supported hscope)

theorem requireClientScopes_eq_ok_iff {client : OAuthClient} {requested : Finset String}
    {u : Unit} :
    requireClientScopes client requested = .ok u ↔ Registered client requested := by
  simp only [requireClientScopes, validateScopes, except_bind_eq_ok, raiseIf_eq_ok_iff,
    exists_const, not_or, not_not]
  exact ⟨fun ⟨⟨hne, hs⟩, hr⟩ => ⟨hne, hs, hr⟩, fun h => ⟨⟨h.nonempty, h.supported⟩, h.registered⟩⟩

theorem requireClientResource_eq_ok_iff {client : OAuthClient} {resource : String} {u : Unit} :
    requireClientResource client resource = .ok u ↔ resource ∈ client.resources := by
  rw [requireClientResource, raiseIf_eq_ok_iff, not_not]

theorem activeClient_eq_ok_iff {clients : List OAuthClient} {clientId : String}
    {client : OAuthClient} :
    activeClient clients clientId = .ok client ↔
      OAuthClients.get clients clientId = some client ∧ client.active = true := by
  unfold activeClient
  cases hget : OAuthClients.get clients clientId with
  | none => simp
  | some found =>
    constructor
    · intro h
      by_cases hactive : found.active = true
      · have he : found = client := by simpa [hactive] using h
        exact ⟨congrArg some he, he ▸ hactive⟩
      · simp [hactive] at h
    · rintro ⟨he, hactive⟩
      cases he
      simp [hactive]

section

variable {τ : Type} {P : Primitives τ} {settings : IdentitySettings} {draw : Draw} {clock : Clock}

/-- The client is registered and active, may use the grant and has shown its secret. -/
structure Authenticated (P : Primitives τ) (clients : List OAuthClient) (clientId : String)
    (clientSecret : Option String) (grant : GrantType) (client : OAuthClient) : Prop where
  get : OAuthClients.get clients clientId = some client
  active : client.active = true
  grant : grant ∈ client.grantTypes
  secret : secretRefused P client clientSecret = false

theorem authenticateClient_eq_ok_iff {clients : List OAuthClient} {clientId : String}
    {clientSecret : Option String} {grant : GrantType} {client : OAuthClient} :
    authenticateClient P clients clientId clientSecret grant = .ok client ↔
      Authenticated P clients clientId clientSecret grant client := by
  simp only [authenticateClient, except_bind_eq_ok, except_pure_eq_ok, raiseIf_eq_ok_iff,
    activeClient_eq_ok_iff, exists_const, not_not, Bool.not_eq_true]
  constructor
  · rintro ⟨found, ⟨hget, hactive⟩, hgrant, hsecret, rfl⟩
    exact ⟨hget, hactive, hgrant, hsecret⟩
  · rintro ⟨hget, hactive, hgrant, hsecret⟩
    exact ⟨client, ⟨hget, hactive⟩, hgrant, hsecret, rfl⟩

/-- The request redeems the code within its lifetime, for the client and the redirect URI that
the code was issued to and with the verifier of its challenge. -/
structure Redeems (P : Primitives τ) (now : ℕ) (request : RedemptionRequest)
    (record : AuthorizationCode) : Prop where
  unexpired : now < record.expiresAt
  clientId : record.clientId = request.clientId
  redirectUri : record.redirectUri = request.redirectUri
  isPkceValue : isPkceValue request.codeVerifier = true
  challenge : P.pkceChallenge request.codeVerifier = record.codeChallenge

/-- **A redemption succeeds** exactly when a code was found that the request redeems and whose
scopes are still registered for the client; the token is issued from the code alone. -/
theorem redeem_eq_ok_iff {request : RedemptionRequest} {client : OAuthClient}
    {found : Option AuthorizationCode} {token : OAuthToken τ} :
    redeem P settings draw clock request client found = .ok token ↔
      ∃ record, found = some record ∧ Redeems P clock.check request record ∧
        Registered client (scopes record.scope) ∧
        token = issue P settings draw clock record.userId request.clientId (scopes record.scope)
          record.resource record.role none record.jurisdiction := by
  cases found with
  | none => simp [redeem]
  | some record =>
    simp only [redeem, except_bind_eq_ok, except_pure_eq_ok, raiseIf_eq_ok_iff,
      requireClientScopes_eq_ok_iff, exists_const, not_or, not_not, Bool.not_eq_false, Nat.not_le,
      Option.some.injEq, exists_eq_left']
    constructor
    · rintro ⟨hexp, ⟨hclient, hredirect⟩, ⟨hvalue, hchallenge⟩, hscopes, rfl⟩
      exact ⟨⟨hexp, hclient, hredirect, hvalue, hchallenge⟩, hscopes, rfl⟩
    · rintro ⟨h, hscopes, rfl⟩
      exact ⟨h.unexpired, ⟨h.clientId, h.redirectUri⟩, ⟨h.isPkceValue, h.challenge⟩, hscopes, rfl⟩

/-- The token is an unexpired access token of the service, for an audience that the client may
exchange, and neither its status nor its password claim blocks it. -/
structure Exchangeable (P : Primitives τ) (settings : IdentitySettings) (now : ℕ) (token : τ)
    (client : OAuthClient) (claims : Claims) : Prop where
  signed : P.signedClaims token = some claims
  unexpired : timestamp now ≤ claims.exp
  audience : claims.aud ∈ client.sourceAudiences
  issuer : claims.iss = settings.jwtIssuer ∨ claims.iss = settings.oauthIssuerUrl
  tokenType : claims.tokenType = tokenTypeAccess
  status : claims.status.getD .active = .active
  password : claims.mustChangePassword ≠ some true

theorem verifySubjectToken_eq_ok_iff (hP : P.TokensReadBack) {token : τ} {client : OAuthClient}
    {subject : Subject} :
    verifySubjectToken P settings clock token client = .ok subject ↔
      ∃ claims, Exchangeable P settings clock.check token client claims ∧
        subject = Subject.ofClaims claims := by
  unfold verifySubjectToken
  constructor
  · intro h
    cases hu : P.unverifiedClaims token with
    | none => simp [hu] at h
    | some unverified =>
      simp only [hu, except_bind_eq_ok, raiseIf_eq_ok_iff, exists_const, not_and_or, not_not] at h
      obtain ⟨haud, hiss, h⟩ := h
      cases hd : P.decode clock.check unverified.iss unverified.aud token with
      | none => simp [hd] at h
      | some claims =>
        simp only [hd, except_bind_eq_ok, except_pure_eq_ok, raiseIf_eq_ok_iff, exists_const,
          not_or, not_not] at h
        obtain ⟨⟨htype, hstatus, hpassword⟩, rfl⟩ := h
        -- the claims that are verified have the issuer and the audience of the unverified ones
        obtain ⟨hsigned, hexp, hi, ha⟩ := Primitives.decode_eq_some.1 hd
        exact ⟨claims, ⟨hsigned, hexp, ha ▸ haud, hi ▸ hiss, htype, hstatus, hpassword⟩, rfl⟩
  · rintro ⟨claims, h, rfl⟩
    have hu : P.unverifiedClaims token = some claims := hP.unverifiedClaims_of_signed h.signed
    have hd : P.decode clock.check claims.iss claims.aud token = some claims :=
      Primitives.decode_eq_some.2 ⟨h.signed, h.unexpired, rfl, rfl⟩
    simp only [hu, hd, except_bind_eq_ok, except_pure_eq_ok, raiseIf_eq_ok_iff, exists_const,
      not_or, not_not, not_and_or, and_true]
    exact ⟨h.audience, h.issuer, h.tokenType, h.status, h.password⟩

/-- The scopes that are requested are registered for the client and within those of the subject
token, and the resource is one of the client's. -/
structure Permitted (client : OAuthClient) (claims : Claims) (request : ExchangeRequest τ) : Prop
    where
  registered : Registered client (scopes request.scope)
  resource : request.resource ∈ client.resources
  scopes : ∀ source ∈ claims.scope, scopes request.scope ⊆ scopes source

/-- The token that an exchange issues. -/
def exchangedToken (P : Primitives τ) (settings : IdentitySettings) (draw : Draw) (clock : Clock)
    (claims : Claims) (request : ExchangeRequest τ) : OAuthToken τ :=
  issue P settings draw clock claims.sub request.clientId (scopes request.scope) request.resource
    (claims.role.getD .service) ((presented claims.clientId).getD "trackflow-backoffice")
    claims.jurisdiction

/-- **A token exchange succeeds** exactly when the client is authenticated, the subject token is
exchangeable and the request is permitted. -/
theorem tokenExchange_eq_ok_iff (hP : P.TokensReadBack) {store : Store}
    {request : ExchangeRequest τ}
    {token : OAuthToken τ} :
    tokenExchange P settings draw clock store request = .ok token ↔
      ∃ client claims,
        Authenticated P store.oauthClients request.clientId request.clientSecret .tokenExchange
          client ∧
        Exchangeable P settings clock.check request.subjectToken client claims ∧
        Permitted client claims request ∧
        token = exchangedToken P settings draw clock claims request := by
  have hscopes (claims : Claims) : (∀ source ∈ (Subject.ofClaims claims).scopes,
      scopes request.scope ⊆ source) ↔
        ∀ source ∈ claims.scope, scopes request.scope ⊆ scopes source := by
    simp [Subject.ofClaims]
  simp only [tokenExchange, except_bind_eq_ok, except_pure_eq_ok, raiseIf_eq_ok_iff, exists_const,
    not_not, authenticateClient_eq_ok_iff, requireClientScopes_eq_ok_iff,
    requireClientResource_eq_ok_iff, verifySubjectToken_eq_ok_iff hP]
  constructor
  · rintro ⟨client, hclient, hreg, hresource, -, ⟨claims, hclaims, rfl⟩, hsub, rfl⟩
    exact ⟨client, claims, hclient, hclaims, ⟨hreg, hresource, (hscopes claims).1 hsub⟩, rfl⟩
  · rintro ⟨client, claims, hclient, hclaims, hp, rfl⟩
    exact ⟨client, hclient, hp.registered, hp.resource, _, ⟨claims, hclaims, rfl⟩,
      (hscopes claims).2 hp.scopes, rfl⟩

end

/-! ## Library functions for concrete runs -/

/-- A token is its claims, and a digest is the text. -/
def plainPrimitives : Primitives Claims where
  strip := id
  casefold := id
  urlparse uri := ⟨"https", uri, some uri, ""⟩
  hashPassword _ password := password
  verifyPassword password hashed := password = hashed
  hashToken := id
  pkceChallenge := id
  encode := id
  unverifiedClaims := some
  signedClaims := some

theorem tokensReadBack_plainPrimitives : plainPrimitives.TokensReadBack := ⟨fun _ => rfl, id⟩

/-- The lifetimes of the default configuration. -/
def defaultSettings : IdentitySettings where
  jwtIssuer := "trackflow-identity"
  jwtAudience := "trackflow-backoffice"
  accessTokenExpireMinutes := 15
  refreshTokenExpireDays := 14
  resetTokenExpireMinutes := 30
  oauthIssuerUrl := "http://localhost:8002"
  oauthAccessTokenExpireMinutes := 15
  oauthAuthorizationCodeExpireMinutes := 5
  oauthDynamicRegistrationEnabled := true
  appEnvironment := "local"

/-- Random values that are told apart by a name. -/
def namedDraw (name : String) : Draw where
  refreshToken := "refresh-" ++ name
  csrfToken := "csrf-" ++ name
  sessionId := "session-" ++ name
  familyId := "family-" ++ name
  jti := "jti-" ++ name
  resetToken := "reset-" ++ name
  resetId := "reset-id-" ++ name
  code := "code-" ++ name
  codeId := "code-id-" ++ name
  clientId := "client-" ++ name
  clientSecret := "secret-" ++ name
  userId := "user-" ++ name
  temporaryPassword := "password-" ++ name
  salt := "salt-" ++ name

/-- A clock that stands still while a request is handled. -/
def Clock.at (now : ℕ) : Clock := ⟨now, now, now, now, now⟩

end Identity

end TrackFlow
