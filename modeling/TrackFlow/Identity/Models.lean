import TrackFlow.Identity.Scopes

/-!
# The records of the identity service

The rows of the identity document store with the fields that the services read or write, the
claims of an access token, and what the services take from outside: the hash and signature
functions (`Primitives`), random values (`Draw`) and the clock (`Clock`).

An instant is the number of microseconds since the epoch.  The store keeps instants as ISO
strings of one format and one zone, whose order is the order of the instants.
-/

namespace TrackFlow

namespace Identity

/-- The role claim; `service` is the role of a client that acts for itself. -/
inductive Role
  | admin
  | user
  | service
  deriving DecidableEq, Repr

/-- `VALID_STATUSES`. -/
inductive Status
  | active
  | suspended
  | disabled
  deriving DecidableEq, Repr

/-- A policy jurisdiction. -/
inductive Jurisdiction
  | us
  | es
  deriving DecidableEq, Repr

/-- `VALID_RESET_PURPOSES`. -/
inductive ResetPurpose
  | accountSetup
  | passwordReset
  deriving DecidableEq, Repr

/-- The grants of the token endpoint. -/
inductive GrantType
  | authorizationCode
  | clientCredentials
  | tokenExchange
  deriving DecidableEq, Repr

/-- A row of `users`. -/
structure User where
  id : String
  name : String
  email : String
  hashedPassword : String
  role : Role
  status : Status
  jurisdiction : Option Jurisdiction
  mustChangePassword : Bool
  createdAt : ℕ
  lastLoginAt : Option ℕ
  deriving DecidableEq, Repr

/-- The user as the API shows it. -/
structure UserPublic where
  id : String
  name : String
  email : String
  role : Role
  status : Status
  jurisdiction : Option Jurisdiction
  mustChangePassword : Bool
  createdAt : ℕ
  lastLoginAt : Option ℕ
  deriving DecidableEq, Repr

/-- `to_public_user`. -/
def toPublicUser (record : User) : UserPublic where
  id := record.id
  name := record.name
  email := record.email
  role := record.role
  status := record.status
  jurisdiction := record.jurisdiction
  mustChangePassword := record.mustChangePassword
  createdAt := record.createdAt
  lastLoginAt := record.lastLoginAt

/-- A row of `refresh_sessions`. -/
structure Session where
  id : String
  userId : String
  tokenHash : String
  familyId : String
  expiresAt : ℕ
  revoked : Bool
  rotatedFrom : Option String
  deriving DecidableEq, Repr

/-- A row of `password_resets`. -/
structure PasswordReset where
  id : String
  userId : String
  tokenHash : String
  expiresAt : ℕ
  used : Bool
  purpose : ResetPurpose
  deriving DecidableEq, Repr

/-- A row of `oauth_clients`. -/
structure OAuthClient where
  clientId : String
  clientName : String
  clientSecretHash : Option String
  redirectUris : List String
  grantTypes : List GrantType
  scopes : List String
  resources : List String
  sourceAudiences : List String
  active : Bool
  deriving DecidableEq, Repr

/-- A row of `oauth_authorization_codes`. -/
structure AuthorizationCode where
  id : String
  tokenHash : String
  clientId : String
  userId : String
  role : Role
  jurisdiction : Option Jurisdiction
  redirectUri : String
  scope : String
  resource : String
  codeChallenge : String
  expiresAt : ℕ
  used : Bool
  deriving DecidableEq, Repr

/-- The identity document store. -/
structure Store where
  users : List User
  refreshSessions : List Session
  passwordResets : List PasswordReset
  oauthClients : List OAuthClient
  oauthAuthorizationCodes : List AuthorizationCode
  deriving DecidableEq, Repr

/-- The claims of an access token; a claim that may be absent is optional. -/
structure Claims where
  sub : String
  clientId : Option String
  role : Option Role
  status : Option Status
  mustChangePassword : Option Bool
  scope : Option String
  iss : String
  aud : String
  iat : ℕ
  exp : ℕ
  jti : String
  tokenType : String
  act : Option String
  jurisdiction : Option Jurisdiction
  deriving DecidableEq, Repr

/-- The runtime settings that the services read. -/
structure IdentitySettings where
  jwtIssuer : String
  jwtAudience : String
  accessTokenExpireMinutes : ℕ
  refreshTokenExpireDays : ℕ
  resetTokenExpireMinutes : ℕ
  oauthIssuerUrl : String
  oauthAccessTokenExpireMinutes : ℕ
  oauthAuthorizationCodeExpireMinutes : ℕ
  oauthDynamicRegistrationEnabled : Bool
  appEnvironment : String
  deriving DecidableEq, Repr

/-- The parts of a URL that are checked. -/
structure ParsedUrl where
  scheme : String
  netloc : String
  hostname : Option String
  fragment : String
  deriving DecidableEq, Repr

/-- The functions of the libraries that the services use; `τ` is the type of signed tokens. -/
structure Primitives (τ : Type) where
  /-- `str.strip`. -/
  strip : String → String
  /-- `str.casefold`. -/
  casefold : String → String
  /-- `urlparse`. -/
  urlparse : String → ParsedUrl
  /-- `hash_password` with the salt it draws. -/
  hashPassword : String → String → String
  /-- `verify_password`. -/
  verifyPassword : String → String → Bool
  /-- The digest under which refresh tokens, reset tokens and codes are stored. -/
  hashToken : String → String
  /-- `_pkce_challenge`: the encoded SHA-256 digest of a verifier. -/
  pkceChallenge : String → String
  /-- `jwt.encode` under the private key of the service. -/
  encode : Claims → τ
  /-- `jwt.get_unverified_claims`. -/
  unverifiedClaims : τ → Option Claims
  /-- The claims of a token whose signature verifies under the public key. -/
  signedClaims : τ → Option Claims

/-- The random values that one request may draw. -/
structure Draw where
  refreshToken : String
  csrfToken : String
  sessionId : String
  familyId : String
  jti : String
  resetToken : String
  resetId : String
  code : String
  codeId : String
  clientId : String
  clientSecret : String
  userId : String
  temporaryPassword : String
  salt : String
  deriving DecidableEq, Repr

/-- What one request reads from the clock, in the order in which it does. -/
structure Clock where
  /-- The time of a record that is written. -/
  stamp : ℕ
  /-- When expired rows are swept. -/
  sweep : ℕ
  /-- When an expiry is compared. -/
  check : ℕ
  /-- From when the lifetime of a new row counts. -/
  issue : ℕ
  /-- When a token is signed. -/
  sign : ℕ
  deriving DecidableEq, Repr

section

variable {τ : Type} (P : Primitives τ)

/-- `normalize_email`. -/
def Primitives.normalizeEmail (value : String) : String := P.casefold (P.strip value)

/-- The seconds of an instant, `int(now.timestamp())`. -/
def timestamp (now : ℕ) : ℕ := now / 1000000

/-- A number of minutes. -/
def minutes (n : ℕ) : ℕ := n * 60 * 1000000

/-- A number of days. -/
def days (n : ℕ) : ℕ := n * 24 * 60 * 60 * 1000000

/-- `TOKEN_TYPE_ACCESS`. -/
def tokenTypeAccess : String := "access"

/-- `jwt.decode` with the audience and the issuer that are expected: the signature, the expiry,
the issuer and the audience are checked. -/
def Primitives.decode (now : ℕ) (issuer audience : String) (token : τ) : Option Claims :=
  (P.signedClaims token).filter fun claims =>
    timestamp now ≤ claims.exp ∧ claims.iss = issuer ∧ claims.aud = audience

/-- What the token library documents: the signature of a token that was encoded verifies, and the
claims that a valid signature covers are the claims that the token shows. -/
structure Primitives.TokensReadBack : Prop where
  signedClaims_encode : ∀ claims, P.signedClaims (P.encode claims) = some claims
  unverifiedClaims_of_signed : ∀ {token claims}, P.signedClaims token = some claims →
    P.unverifiedClaims token = some claims

theorem Primitives.decode_eq_some {P : Primitives τ} {now : ℕ} {issuer audience : String}
    {token : τ} {claims : Claims} :
    P.decode now issuer audience token = some claims ↔
      P.signedClaims token = some claims ∧
        timestamp now ≤ claims.exp ∧ claims.iss = issuer ∧ claims.aud = audience := by
  simp [decode, Option.filter_eq_some_iff]

/-- `build_access_claims`. -/
def buildAccessClaims (settings : IdentitySettings) (draw : Draw) (clock : Clock) (user : User) :
    Claims where
  sub := user.id
  clientId := none
  role := some user.role
  status := some user.status
  mustChangePassword := some user.mustChangePassword
  scope := none
  iss := settings.jwtIssuer
  aud := settings.jwtAudience
  iat := timestamp clock.sign
  exp := timestamp (clock.sign + minutes settings.accessTokenExpireMinutes)
  jti := draw.jti
  tokenType := tokenTypeAccess
  act := none
  jurisdiction := user.jurisdiction

/-- `sign_access_token`. -/
def signAccessToken (settings : IdentitySettings) (draw : Draw) (clock : Clock) (user : User) : τ :=
  P.encode (buildAccessClaims settings draw clock user)

end

/-- The claims of `sign_oauth_access_token`; `actor` is the client that held the subject token. -/
def oauthClaims (settings : IdentitySettings) (draw : Draw) (clock : Clock)
    (subject clientId : String) (scopes : Finset String) (audience : String) (role : Role)
    (actor : Option String)
    (jurisdiction : Option Jurisdiction) : Claims where
  sub := subject
  clientId := some clientId
  role := some role
  status := some .active
  mustChangePassword := none
  scope := some (scopeClaim scopes)
  iss := settings.oauthIssuerUrl
  aud := audience
  iat := timestamp clock.sign
  exp := timestamp clock.sign + settings.oauthAccessTokenExpireMinutes * 60
  jti := draw.jti
  tokenType := tokenTypeAccess
  act := actor.filter (· ≠ "")
  jurisdiction := jurisdiction

end Identity

end TrackFlow
