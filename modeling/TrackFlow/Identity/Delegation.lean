import TrackFlow.Identity.OAuth

/-!
# Chains of token exchanges

A token exchange turns a subject token into a token for another resource.  `Delegated` is a
chain of exchanges through any clients, at any times and over any stores.

* `Narrows` : the authority of one token is within that of another; it is a preorder.
* `tokenExchange_narrows` : one exchange of a token with scopes only narrows its authority.
* `delegation_never_grows` : **so does every chain.**
-/

namespace TrackFlow

namespace Identity

/-- The scopes that the claims grant. -/
def Claims.grantedScopes (claims : Claims) : Finset String := scopes (claims.scope.getD "")

/-- The authority of `derived` is within the authority of `original`: it acts for the same
subject, in the same role and jurisdiction, with no scope that is new. -/
structure Narrows (derived original : Claims) : Prop where
  sub : derived.sub = original.sub
  role : derived.role = original.role
  jurisdiction : derived.jurisdiction = original.jurisdiction
  scopes : derived.grantedScopes ⊆ original.grantedScopes

theorem Narrows.refl (claims : Claims) : Narrows claims claims :=
  ⟨rfl, rfl, rfl, Finset.Subset.refl _⟩

theorem Narrows.trans {a b c : Claims} (h : Narrows a b) (h' : Narrows b c) : Narrows a c :=
  ⟨h.sub.trans h'.sub, h.role.trans h'.role, h.jurisdiction.trans h'.jurisdiction,
    h.scopes.trans h'.scopes⟩

/-- Tokens of the authorization server carry a role and scopes. -/
structure Claims.Scoped (claims : Claims) : Prop where
  role : claims.role.isSome
  scope : claims.scope.isSome

section

variable {τ : Type} {P : Primitives τ} {settings : IdentitySettings}

/-- `token` comes from `original` by the exchanges of `clients`, the last one first. -/
inductive Delegated (P : Primitives τ) (settings : IdentitySettings) (original : τ) :
    τ → List OAuthClient → Prop
  | refl : Delegated P settings original original []
  | exchange {token : τ} {clients : List OAuthClient} {store : Store} {draw : Draw} {clock : Clock}
      {request : ExchangeRequest τ} {issued : OAuthToken τ} {client : OAuthClient}
      (chain : Delegated P settings original token clients) (subject : request.subjectToken = token)
      (exchanged : tokenExchange P settings draw clock store request = .ok issued)
      (by_client : OAuthClients.get store.oauthClients request.clientId = some client) :
      Delegated P settings original issued.accessToken (client :: clients)

variable {draw : Draw} {clock : Clock}

theorem scoped_oauthClaims (subject clientId : String) (requested : Finset String)
    (audience : String) (role : Role) (actor : Option String) (jurisdiction : Option Jurisdiction) :
    (oauthClaims settings draw clock subject clientId requested audience role actor
      jurisdiction).Scoped :=
  ⟨rfl, rfl⟩

/-- A token that is issued for registered scopes grants exactly them. -/
theorem grantedScopes_oauthClaims (settings : IdentitySettings) (draw : Draw) (clock : Clock)
    {requested : Finset String} (h : ∀ scope ∈ requested, IsScope scope)
    (subject clientId audience : String) (role : Role) (actor : Option String)
    (jurisdiction : Option Jurisdiction) :
    (oauthClaims settings draw clock subject clientId requested audience role actor
      jurisdiction).grantedScopes = requested :=
  scopes_scopeClaim h

/-- **One exchange.**  The token that is issued narrows the subject token, is within the scopes
of the client and is for one of its resources. -/
theorem tokenExchange_narrows (hP : P.TokensReadBack) {store : Store} {request : ExchangeRequest τ}
    {issued : OAuthToken τ} {client : OAuthClient} {subject : Claims}
    (h : tokenExchange P settings draw clock store request = .ok issued)
    (hclient : OAuthClients.get store.oauthClients request.clientId = some client)
    (hsubject : P.signedClaims request.subjectToken = some subject) (hscoped : subject.Scoped) :
    ∃ claims, P.signedClaims issued.accessToken = some claims ∧ claims.Scoped ∧
      Narrows claims subject ∧ claims.grantedScopes ⊆ client.scopes.toFinset ∧
      claims.aud ∈ client.resources := by
  obtain ⟨found, verified, hauth, hex, hp, rfl⟩ := (tokenExchange_eq_ok_iff hP).1 h
  have hfound : found = client := Option.some_injective _ (hauth.get.symm.trans hclient)
  have hverified : verified = subject := Option.some_injective _ (hex.signed.symm.trans hsubject)
  subst hfound hverified
  obtain ⟨role, hrole⟩ := Option.isSome_iff_exists.1 hscoped.role
  obtain ⟨source, hsource⟩ := Option.isSome_iff_exists.1 hscoped.scope
  have hgranted := grantedScopes_oauthClaims settings draw clock hp.registered.isScope verified.sub
    request.clientId request.resource (verified.role.getD .service)
    (some ((presented verified.clientId).getD "trackflow-backoffice")) verified.jurisdiction
  refine ⟨_, hP.signedClaims_encode _, scoped_oauthClaims .., ⟨rfl, ?_, rfl, ?_⟩, ?_, hp.resource⟩
  · change some (verified.role.getD .service) = verified.role
    rw [hrole, Option.getD_some]
  · rw [hgranted, Claims.grantedScopes, hsource, Option.getD_some]
    exact hp.scopes source hsource
  · rw [hgranted]
    exact hp.registered.registered

/-- What a chain of exchanges keeps, by induction on the chain. -/
theorem Delegated.narrows (hP : P.TokensReadBack) {original token : τ} {clients : List OAuthClient}
    {claims₀ : Claims} (h : Delegated P settings original token clients)
    (h₀ : P.signedClaims original = some claims₀) (hscoped : claims₀.Scoped) :
    ∃ claims, P.signedClaims token = some claims ∧ claims.Scoped ∧ Narrows claims claims₀ ∧
      (∀ client ∈ clients, claims.grantedScopes ⊆ client.scopes.toFinset) ∧
      ∀ client ∈ clients.head?, claims.aud ∈ client.resources := by
  induction h with
  | refl => exact ⟨claims₀, h₀, hscoped, .refl _, by simp, by simp⟩
  | exchange _ hsubject hex hclient ih =>
    obtain ⟨before, hsigned, hs, hnarrow, hclients, -⟩ := ih
    obtain ⟨claims, hsigned', hs', hnarrow', hregistered, haud⟩ :=
      tokenExchange_narrows hP hex hclient (hsubject ▸ hsigned) hs
    refine ⟨claims, hsigned', hs', hnarrow'.trans hnarrow, ?_, ?_⟩
    · intro client hmem
      rcases List.mem_cons.1 hmem with rfl | hmem
      · exact hregistered
      · exact hnarrow'.scopes.trans (hclients client hmem)
    · intro client hhead
      cases hhead
      exact haud

/-- **Delegated authority never grows.**  Along every chain of exchanges from a token that the
authorization server issued, the derived token acts for the same subject, in the same role and
jurisdiction, with scopes of the original that are registered for every client of the chain, and
for a resource of the client that exchanged last. -/
theorem delegation_never_grows (hP : P.TokensReadBack) {subject clientId audience : String}
    {requested : Finset String} {role : Role} {actor : Option String}
    {jurisdiction : Option Jurisdiction} {token : τ} {client : OAuthClient}
    {clients : List OAuthClient}
    (h : Delegated P settings
      (issue P settings draw clock subject clientId requested audience role actor
        jurisdiction).accessToken token (client :: clients)) :
    ∃ claims, P.signedClaims token = some claims ∧
      claims.grantedScopes ⊆ scopes (scopeClaim requested) ∧
      (∀ c ∈ client :: clients, claims.grantedScopes ⊆ c.scopes.toFinset) ∧
      claims.sub = subject ∧ claims.role = some role ∧ claims.jurisdiction = jurisdiction ∧
      claims.aud ∈ client.resources := by
  obtain ⟨claims, hsigned, -, hnarrow, hclients, haud⟩ :=
    h.narrows hP (hP.signedClaims_encode _) (scoped_oauthClaims ..)
  exact ⟨claims, hsigned, hnarrow.scopes, hclients, hnarrow.sub, hnarrow.role,
    hnarrow.jurisdiction, haud client rfl⟩

end

/-- A gateway that may exchange back-office tokens for inventory tokens. -/
def inventoryGateway : OAuthClient where
  clientId := "gateway"
  clientName := "Gateway"
  clientSecretHash := some "secret"
  redirectUris := []
  grantTypes := [.tokenExchange]
  scopes := ["incidents:read", "inventory:read"]
  resources := ["https://inventory"]
  sourceAudiences := ["https://mcp"]
  active := true

/-- A token for the tools of an assistant that acts for a user. -/
def assistantToken : OAuthToken Claims :=
  issue plainPrimitives defaultSettings (namedDraw "a") (Clock.at 0) "user" "assistant"
    {"inventory:read"} "https://mcp" .user none (some .es)

/-- The gateway exchanges it. -/
def gatewayRequest : ExchangeRequest Claims :=
  ⟨"gateway", some "secret", assistantToken.accessToken, "inventory:read", "https://inventory"⟩

theorem delegation_never_grows_gateway :
    ∃ claims, plainPrimitives.signedClaims
        (exchangedToken plainPrimitives defaultSettings (namedDraw "b") (Clock.at 0)
          assistantToken.accessToken gatewayRequest).accessToken = some claims ∧
      claims.grantedScopes ⊆ scopes (scopeClaim {"inventory:read"}) ∧ claims.sub = "user" := by
  have hauth : Authenticated plainPrimitives [inventoryGateway] gatewayRequest.clientId
      gatewayRequest.clientSecret .tokenExchange inventoryGateway :=
    ⟨rfl, rfl, by decide, by decide⟩
  have hex : Exchangeable plainPrimitives defaultSettings 0 gatewayRequest.subjectToken
      inventoryGateway assistantToken.accessToken :=
    ⟨rfl, by decide, by decide, .inr rfl, rfl, rfl, by decide⟩
  have hp : Permitted inventoryGateway assistantToken.accessToken gatewayRequest := by
    refine ⟨⟨by decide, by decide, by decide⟩, by decide, fun source hsource => ?_⟩
    cases hsource
    rw [scopes_scopeClaim (by decide)]
    decide
  have hok : tokenExchange plainPrimitives defaultSettings (namedDraw "b") (Clock.at 0)
      ⟨[], [], [], [inventoryGateway], []⟩ gatewayRequest = .ok _ :=
    (tokenExchange_eq_ok_iff tokensReadBack_plainPrimitives).2
      ⟨inventoryGateway, assistantToken.accessToken, hauth, hex, hp, rfl⟩
  obtain ⟨claims, hsigned, hscopes, -, hsub, -⟩ :=
    delegation_never_grows tokensReadBack_plainPrimitives (.exchange .refl rfl hok rfl)
  exact ⟨claims, hsigned, hscopes, hsub⟩

end Identity

end TrackFlow
