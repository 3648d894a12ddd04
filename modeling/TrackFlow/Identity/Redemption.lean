import TrackFlow.Identity.Delegation
import TrackFlow.Identity.Effects

/-!
# Racing for authorization codes

Any number of attempts to redeem codes run against the authorization server at once.  An attempt
authenticates its client, consumes the code and is settled, and the other attempts and all the
other requests of the service may come between any two of these events.

* `redemptions` : the machine; it remembers every consent for which a code was issued.
* `CodesBurned` : the invariant; what an attempt has found is burnt, and found by it alone.
* `authorization_code_single_use` : **codes are single use and bound.**
* `exchange_eq_events` : the handler of the service is the three events in a row.
-/

namespace TrackFlow

namespace Identity

/-- What a user has consented to, and the code that was issued for it. -/
structure Consent where
  code : String
  request : AuthorizationRequest
  userId : String
  expiresAt : ℕ
  deriving DecidableEq

/-- An attempt to redeem a code. -/
inductive Attempt (τ : Type)
  | waiting
  | authenticated (request : RedemptionRequest) (client : OAuthClient)
  | consumed (request : RedemptionRequest) (client : OAuthClient)
      (record : Option AuthorizationCode)
  | settled (request : RedemptionRequest) (record : Option AuthorizationCode) (now : ℕ)
      (result : Except OAuthError (OAuthToken τ))

/-- The code that an attempt has found, with its request. -/
def Attempt.found? {τ : Type} : Attempt τ → Option (RedemptionRequest × AuthorizationCode)
  | .consumed request _ record => record.map fun record => (request, record)
  | .settled request record _ _ => record.map fun record => (request, record)
  | _ => none

/-- The service and the attempts `ι`. -/
structure Redemptions (ι τ : Type) where
  store : Store
  consents : List Consent
  attempts : ι → Attempt τ

/-- What may happen next. -/
inductive RedemptionEvent (ι τ : Type)
  | handle (label : Label τ)
  | authenticate (i : ι) (request : RedemptionRequest)
  | consume (i : ι)
  | settle (i : ι) (draw : Draw) (clock : Clock)

/-- The request is itself an attempt to redeem a code. -/
def Request.isRedemption {τ : Type} : Request τ → Bool
  | .exchangeAuthorizationCode _ => true
  | _ => false

section

variable {ι τ : Type} [DecidableEq ι] (P : Primitives τ) (settings : IdentitySettings)

/-- The consent for which a request is given a code. -/
def consentOf (store : Store) (label : Label τ) : Option Consent :=
  match label.request with
  | .authorize request email password =>
    match (authorize P settings label.draw label.clock store request email password).1,
      consentingUser P store.users email password with
    | .ok code, some user =>
      some ⟨code, request, user.id,
        label.clock.issue + minutes settings.oauthAuthorizationCodeExpireMinutes⟩
    | _, _ => none
  | _ => none

/-- The events; a redemption is never handled in one piece. -/
def redemptions : Machine (Redemptions ι τ) (RedemptionEvent ι τ) where
  next s
    | .handle label =>
      if label.request.isRedemption = true then none
      else ((server P settings).next s.store label).map fun store =>
        { s with store, consents := s.consents ++ (consentOf P settings s.store label).toList }
    | .authenticate i request =>
      match s.attempts i with
      | .waiting =>
        some { s with
          attempts := Function.update s.attempts i
            (match authenticateClient P s.store.oauthClients request.clientId request.clientSecret
              .authorizationCode with
            | .error e => .settled request none 0 (.error e)
            | .ok client => .authenticated request client) }
      | _ => none
    | .consume i =>
      match s.attempts i with
      | .authenticated request client =>
        let (record, oauthAuthorizationCodes) :=
          OAuthCodes.consume s.store.oauthAuthorizationCodes (P.hashToken request.code)
        some { s with
          store := { s.store with oauthAuthorizationCodes }
          attempts := Function.update s.attempts i (.consumed request client record) }
      | _ => none
    | .settle i draw clock =>
      match s.attempts i with
      | .consumed request client record =>
        some { s with
          attempts := Function.update s.attempts i
            (.settled request record clock.check
              (redeem P settings draw clock request client record)) }
      | _ => none

end

/-- The row was written for the consent. -/
structure Recorded {τ : Type} (P : Primitives τ) (consent : Consent) (row : AuthorizationCode) :
    Prop where
  tokenHash : row.tokenHash = P.hashToken consent.code
  clientId : row.clientId = consent.request.clientId
  redirectUri : row.redirectUri = consent.request.redirectUri
  scope : row.scope = consent.request.scope
  resource : row.resource = consent.request.resource
  codeChallenge : row.codeChallenge = consent.request.codeChallenge
  userId : row.userId = consent.userId
  expiresAt : row.expiresAt = consent.expiresAt

theorem Recorded.burn {τ : Type} {P : Primitives τ} {consent : Consent} {row : AuthorizationCode}
    (h : Recorded P consent row) : Recorded P consent row.burn :=
  ⟨h.tokenHash, h.clientId, h.redirectUri, h.scope, h.resource, h.codeChallenge, h.userId,
    h.expiresAt⟩

theorem Recorded.marked {τ : Type} {P : Primitives τ} {consent : Consent} {row : AuthorizationCode}
    (h : Recorded P consent row) (p : AuthorizationCode → Bool) :
    Recorded P consent (if p row then row.burn else row) := by
  by_cases hp : p row = true
  · rw [if_pos hp]
    exact h.burn
  · rw [if_neg hp]
    exact h

/-- What holds of the codes and of the attempts that race for them. -/
structure CodesBurned {ι τ : Type} (P : Primitives τ) (settings : IdentitySettings)
    (s : Redemptions ι τ) : Prop where
  digests : (s.store.oauthAuthorizationCodes.map AuthorizationCode.tokenHash).Nodup
  consented : ∀ row ∈ s.store.oauthAuthorizationCodes,
    ∃ consent ∈ s.consents, Recorded P consent row
  /-- What an attempt has found is burnt. -/
  burnt : ∀ i request record, (s.attempts i).found? = some (request, record) →
    record.burn ∈ s.store.oauthAuthorizationCodes ∧ record.tokenHash = P.hashToken request.code
  /-- No two attempts have found the same code. -/
  once : ∀ i j request request' record record', (s.attempts i).found? = some (request, record) →
    (s.attempts j).found? = some (request', record') →
      record.tokenHash = record'.tokenHash → i = j
  /-- What was settled was settled by the checks of the service. -/
  settled : ∀ i request record now token,
    s.attempts i = .settled request record now (.ok token) →
      ∃ draw clock client, clock.check = now ∧
        redeem P settings draw clock request client record = .ok token

section

variable {ι τ : Type} {P : Primitives τ} {settings : IdentitySettings}

/-- An authorization that succeeds was consented to by an active user, and inserts a code. -/
theorem authorize_eq_ok {draw : Draw} {clock : Clock} {store : Store}
    {request : AuthorizationRequest} {email password code : String}
    (h : (authorize P settings draw clock store request email password).1 = .ok code) :
    ∃ user, consentingUser P store.users email password = some user ∧ code = draw.code ∧
      (authorize P settings draw clock store request email password).2 =
        { store with
          oauthAuthorizationCodes :=
            OAuthCodes.create (OAuthCodes.cleanupExpired store.oauthAuthorizationCodes clock.sweep)
              (issuedCode P settings draw clock request user) } := by
  unfold authorize at h ⊢
  split at h
  · cases h
  split at h
  · cases h
  · rename_i user hconsent
    cases h
    exact ⟨user, hconsent, rfl, rfl⟩

theorem authorize_eq_error {draw : Draw} {clock : Clock} {store : Store}
    {request : AuthorizationRequest} {email password : String} {e : OAuthError}
    (h : (authorize P settings draw clock store request email password).1 = .error e) :
    (authorize P settings draw clock store request email password).2 = store := by
  unfold authorize at h ⊢
  repeat' split at h
  all_goals first | rfl | cases h

/-- What a request that is no redemption does to the codes and consents: it burns codes, and
when a consent is given, it inserts the code of the consent. -/
theorem handle_codes (settings : IdentitySettings) {store : Store} {label : Label τ}
    (hfresh : Fresh P label.draw store) :
    (∃ p, (handle P settings label.draw label.clock store label.request).2.oauthAuthorizationCodes =
        updateWhere p AuthorizationCode.burn store.oauthAuthorizationCodes ∧
        consentOf P settings store label = none) ∨
      ∃ consent p row, consentOf P settings store label = some consent ∧
        (handle P settings label.draw label.clock store label.request).2.oauthAuthorizationCodes =
          updateWhere p AuthorizationCode.burn store.oauthAuthorizationCodes ++ [row] ∧
        Recorded P consent row ∧ row.tokenHash = P.hashToken label.draw.code := by
  obtain ⟨request, draw, clock⟩ := label
  by_cases hauthorize : ∃ r email password, request = .authorize r email password
  · obtain ⟨r, email, password, rfl⟩ := hauthorize
    change (∃ p, (authorize P settings draw clock store r email
      password).2.oauthAuthorizationCodes = _ ∧ _) ∨ ∃ _ _ _, _ ∧
        (authorize P settings draw clock store r email password).2.oauthAuthorizationCodes = _ ∧ _
    cases hr : (authorize P settings draw clock store r email password).1 with
    | error e =>
      rw [authorize_eq_error hr]
      exact .inl ⟨fun _ => false, (updateWhere_false _ _).symm, by simp [consentOf, hr]⟩
    | ok code =>
      obtain ⟨user, hconsent, rfl, hs⟩ := authorize_eq_ok hr
      rw [hs]
      exact .inr ⟨⟨draw.code, r, user.id,
          clock.issue + minutes settings.oauthAuthorizationCodeExpireMinutes⟩, _,
        issuedCode P settings draw clock r user, by simp [consentOf, hr, hconsent], rfl,
        ⟨rfl, rfl, rfl, rfl, rfl, rfl, rfl, rfl⟩, rfl⟩
  · have hnone : consentOf P settings store ⟨request, draw, clock⟩ = none := by
      unfold consentOf
      split
      · rename_i r email password heq
        exact (hauthorize ⟨r, email, password, heq⟩).elim
      · rfl
    have heffect := (handle_effect settings clock hfresh request).codes
    generalize (handle P settings draw clock store request).2.oauthAuthorizationCodes = codes'
      at heffect ⊢
    cases heffect with
    | burn p => exact .inl ⟨p, rfl, hnone⟩
    | issue p r email password user hr => exact (hauthorize ⟨r, email, password, hr⟩).elim

/-! ## The invariant -/

variable {s s' : Redemptions ι τ}

theorem CodesBurned.start {store : Store} (hcodes : store.oauthAuthorizationCodes = []) :
    CodesBurned P settings (⟨store, [], fun _ => .waiting⟩ : Redemptions ι τ) where
  digests := by simp [hcodes]
  consented row hrow := by simp [hcodes] at hrow
  burnt i request record h := by simp [Attempt.found?] at h
  once i j request request' record record' h := by simp [Attempt.found?] at h
  settled i request record now token h := by cases h

/-- The invariant when codes are marked. -/
theorem CodesBurned.mark (h : CodesBurned P settings s) {store : Store}
    (p : AuthorizationCode → Bool)
    (hcodes : store.oauthAuthorizationCodes =
      updateWhere p AuthorizationCode.burn s.store.oauthAuthorizationCodes) :
    CodesBurned P settings { s with store } where
  digests := by
    rw [hcodes, map_updateWhere (f := AuthorizationCode.burn) fun _ => rfl]
    exact h.digests
  consented code hcode := by
    rw [hcodes] at hcode
    obtain ⟨old, hold, rfl⟩ := mem_updateWhere.1 hcode
    obtain ⟨c, hc, hrec⟩ := h.consented old hold
    exact ⟨c, hc, hrec.marked p⟩
  burnt i request record hi := by
    obtain ⟨hmem, hhash⟩ := h.burnt i request record hi
    have hg : Grows AuthorizationCode.burn s.store.oauthAuthorizationCodes
        store.oauthAuthorizationCodes := hcodes ▸ Grows.updateWhere _ _ _
    exact ⟨hg.mem_of_fixed hmem rfl, hhash⟩
  once := h.once
  settled := h.settled

/-- The invariant when a code with a new digest is inserted for a new consent. -/
theorem CodesBurned.insert (h : CodesBurned P settings s) {store : Store} {row : AuthorizationCode}
    {consent : Consent}
    (hcodes : store.oauthAuthorizationCodes = s.store.oauthAuthorizationCodes ++ [row])
    (hfresh : ∀ code ∈ s.store.oauthAuthorizationCodes, code.tokenHash ≠ row.tokenHash)
    (hrow : Recorded P consent row) :
    CodesBurned P settings { s with store, consents := s.consents ++ [consent] } where
  digests := by
    rw [hcodes, List.map_append]
    refine List.Nodup.append h.digests (List.nodup_singleton _) fun k hk hk' => ?_
    obtain ⟨code, hcode, rfl⟩ := List.mem_map.1 hk
    exact hfresh code hcode (List.mem_singleton.1 hk')
  consented code hcode := by
    rw [hcodes] at hcode
    rcases List.mem_append.1 hcode with hcode | hcode
    · obtain ⟨c, hc, hrec⟩ := h.consented code hcode
      exact ⟨c, List.mem_append_left _ hc, hrec⟩
    · cases List.mem_singleton.1 hcode
      exact ⟨consent, List.mem_append_right _ List.mem_cons_self, hrow⟩
  burnt i request record hi := by
    obtain ⟨hmem, hhash⟩ := h.burnt i request record hi
    rw [hcodes]
    exact ⟨List.mem_append_left _ hmem, hhash⟩
  once := h.once
  settled := h.settled

/-- The attempt has redeemed a code with this digest for a token. -/
def Attempt.Redeemed (attempt : Attempt τ) (tokenHash : String) (P : Primitives τ) : Prop :=
  ∃ request record now token, attempt = .settled request record now (.ok token) ∧
    P.hashToken request.code = tokenHash

/-- The token was issued for the consent: it carries exactly what was consented. -/
structure IssuedFor (P : Primitives τ) (consent : Consent) (request : RedemptionRequest) (now : ℕ)
    (token : OAuthToken τ) : Prop where
  code : P.hashToken request.code = P.hashToken consent.code
  clientId : request.clientId = consent.request.clientId
  redirectUri : request.redirectUri = consent.request.redirectUri
  unexpired : now < consent.expiresAt
  isPkceValue : isPkceValue request.codeVerifier = true
  challenge : P.pkceChallenge request.codeVerifier = consent.request.codeChallenge
  claims : ∃ claims, token.accessToken = P.encode claims ∧
    claims.grantedScopes = scopes consent.request.scope ∧ claims.aud = consent.request.resource ∧
    claims.sub = consent.userId ∧ claims.clientId = some consent.request.clientId

theorem CodesBurned.found_of_redeemed (h : CodesBurned P settings s) {i : ι} {tokenHash : String}
    (hi : (s.attempts i).Redeemed tokenHash P) :
    ∃ request record, (s.attempts i).found? = some (request, record) ∧
      record.tokenHash = tokenHash := by
  obtain ⟨request, found, now, token, hs, hhash⟩ := hi
  obtain ⟨draw, clock, client, -, hredeem⟩ := h.settled i request found now token hs
  obtain ⟨record, rfl, -⟩ := redeem_eq_ok_iff.1 hredeem
  have hfound : (s.attempts i).found? = some (request, record) := by
    rw [hs]
    rfl
  exact ⟨request, record, hfound, (h.burnt i request record hfound).2.trans hhash⟩

/-- What was issued was issued for a consent. -/
theorem CodesBurned.issuedFor (h : CodesBurned P settings s) {i : ι} {request : RedemptionRequest}
    {found : Option AuthorizationCode} {now : ℕ} {token : OAuthToken τ}
    (hs : s.attempts i = .settled request found now (.ok token)) :
    ∃ consent ∈ s.consents, IssuedFor P consent request now token := by
  obtain ⟨draw, clock, client, rfl, hredeem⟩ := h.settled i request found now token hs
  obtain ⟨record, rfl, hr, hreg, rfl⟩ := redeem_eq_ok_iff.1 hredeem
  obtain ⟨hburnt, hhash⟩ := h.burnt i request record (by rw [hs]; rfl)
  obtain ⟨consent, hmem, hrow⟩ := h.consented _ hburnt
  refine ⟨consent, hmem, ?_, hr.clientId.symm.trans hrow.clientId,
    hr.redirectUri.symm.trans hrow.redirectUri, ?_, hr.isPkceValue,
    hr.challenge.trans hrow.codeChallenge, _, rfl, ?_, hrow.resource, hrow.userId, ?_⟩
  · exact hhash.symm.trans hrow.tokenHash
  · rw [← hrow.expiresAt]
    exact hr.unexpired
  · have hscope : record.scope = consent.request.scope := hrow.scope
    rw [← hscope]
    exact grantedScopes_oauthClaims _ _ _ hreg.isScope ..
  · exact congrArg some (hr.clientId.symm.trans hrow.clientId)

variable [DecidableEq ι]

/-- The invariant when one attempt moves on without a new find. -/
theorem CodesBurned.update (h : CodesBurned P settings s) {i : ι} {attempt : Attempt τ}
    (hfound : attempt.found? = none ∨ attempt.found? = (s.attempts i).found?)
    (hsettled : ∀ request record now token, attempt = .settled request record now (.ok token) →
      ∃ draw clock client, clock.check = now ∧
        redeem P settings draw clock request client record = .ok token) :
    CodesBurned P settings { s with attempts := Function.update s.attempts i attempt } := by
  have hold : ∀ j request record,
      (Function.update s.attempts i attempt j).found? = some (request, record) →
        (s.attempts j).found? = some (request, record) := by
    intro j request record hj
    by_cases hij : j = i
    · subst hij
      rw [Function.update_self] at hj
      rcases hfound with hnone | heq
      · rw [hnone] at hj
        cases hj
      · exact heq ▸ hj
    · rwa [Function.update_of_ne hij] at hj
  refine ⟨h.digests, h.consented, fun j request record hj => h.burnt j _ _ (hold j _ _ hj),
    fun j k _ _ _ _ hj hk => h.once j k _ _ _ _ (hold j _ _ hj) (hold k _ _ hk), ?_⟩
  intro j request record now token hj
  by_cases hij : j = i
  · subst hij
    exact hsettled request record now token (by simpa using hj)
  · exact h.settled j request record now token (by simpa [hij] using hj)

/-- The invariant when one attempt finds a burnt code that no other attempt has found. -/
theorem CodesBurned.find (h : CodesBurned P settings s) {i : ι} {request : RedemptionRequest}
    {client : OAuthClient} {record : AuthorizationCode}
    (hburnt : record.burn ∈ s.store.oauthAuthorizationCodes)
    (hhash : record.tokenHash = P.hashToken request.code)
    (hnew : ∀ j request' record', (s.attempts j).found? = some (request', record') →
      record'.tokenHash ≠ record.tokenHash) :
    CodesBurned P settings
      { s with
        attempts := Function.update s.attempts i (.consumed request client (some record)) } := by
  have hfound : ∀ j request' record',
      (Function.update s.attempts i (.consumed request client (some record)) j).found? =
        some (request', record') →
      (j = i ∧ request' = request ∧ record' = record) ∨
        (s.attempts j).found? = some (request', record') := by
    intro j request' record' hj
    by_cases hij : j = i
    · subst hij
      rw [Function.update_self] at hj
      cases hj
      exact .inl ⟨rfl, rfl, rfl⟩
    · rw [Function.update_of_ne hij] at hj
      exact .inr hj
  refine ⟨h.digests, h.consented, fun j request' record' hj => ?_, ?_, ?_⟩
  · rcases hfound j request' record' hj with ⟨-, rfl, rfl⟩ | hj
    · exact ⟨hburnt, hhash⟩
    · exact h.burnt j request' record' hj
  · intro j k rj rk recj reck hj hk heq
    rcases hfound j rj recj hj with ⟨hji, -, hrj⟩ | hj'
    · rcases hfound k rk reck hk with ⟨hki, -, -⟩ | hk'
      · exact hji.trans hki.symm
      · exact (hnew k rk reck hk' (hrj ▸ heq.symm)).elim
    · rcases hfound k rk reck hk with ⟨-, -, hrk⟩ | hk'
      · exact (hnew j rj recj hj' (hrk ▸ heq)).elim
      · exact h.once j k rj rk recj reck hj' hk' heq
  · intro j request' record' now token hj
    have hj : Function.update s.attempts i (.consumed request client (some record)) j =
        .settled request' record' now (.ok token) := hj
    by_cases hij : j = i
    · subst hij
      rw [Function.update_self] at hj
      cases hj
    · rw [Function.update_of_ne hij] at hj
      exact h.settled j request' record' now token hj

/-- **Consuming keeps the invariant**: what is found was unused, so no other attempt has it. -/
theorem CodesBurned.consume (h : CodesBurned P settings s) (i : ι) (request : RedemptionRequest)
    (client : OAuthClient) {store : Store}
    (hstore : store = { s.store with
      oauthAuthorizationCodes :=
        (OAuthCodes.consume s.store.oauthAuthorizationCodes (P.hashToken request.code)).2 }) :
    CodesBurned P settings
      { s with
        store
        attempts := Function.update s.attempts i (.consumed request client
          (OAuthCodes.consume s.store.oauthAuthorizationCodes (P.hashToken request.code)).1) } := by
  obtain ⟨p, hp⟩ := OAuthCodes.exists_consume_eq s.store.oauthAuthorizationCodes
    (P.hashToken request.code)
  have hmark : CodesBurned P settings { s with store } := h.mark p (hstore ▸ hp)
  cases hrec : (OAuthCodes.consume s.store.oauthAuthorizationCodes
      (P.hashToken request.code)).1 with
  | none => exact hmark.update (.inl rfl) (by simp)
  | some record =>
    obtain ⟨hmem, hhash, hunused, hburnt⟩ := OAuthCodes.consume_eq_some hrec
    refine hmark.find (hstore ▸ hburnt) hhash fun j request' record' hj heq => ?_
    -- the code of another attempt is burnt already, and there is one row for a digest
    have hother := (h.burnt j request' record' hj).1
    have hsame : record'.burn = record := List.inj_on_of_nodup_map h.digests hother hmem heq
    rw [← hsame] at hunused
    cases hunused

/-- **Every event keeps the invariant.** -/
theorem CodesBurned.next (h : CodesBurned P settings s) {event : RedemptionEvent ι τ}
    (hnext : (redemptions P settings).next s event = some s') : CodesBurned P settings s' := by
  cases event with
  | handle label =>
    simp only [redemptions] at hnext
    split_ifs at hnext with hredeem
    obtain ⟨store, hstore, rfl⟩ := Option.map_eq_some_iff.1 hnext
    obtain ⟨hfresh, rfl⟩ := server_next_eq_some hstore
    rcases handle_codes settings hfresh with
      ⟨p, hcodes, hnone⟩ | ⟨consent, p, row, hsome, hcodes, hrow, hhash⟩
    · have hmark := h.mark p hcodes
      rw [hnone]
      simpa using hmark
    · let burned : Store := { s.store with
        oauthAuthorizationCodes :=
          updateWhere p AuthorizationCode.burn s.store.oauthAuthorizationCodes }
      have hmark : CodesBurned P settings { s with store := burned } := h.mark p rfl
      rw [hsome]
      refine hmark.insert hcodes (fun code hcode => ?_) hrow
      obtain ⟨old, hold, rfl⟩ := mem_updateWhere.1 hcode
      have hold' := (hfresh.code old hold).2
      rw [hhash]
      by_cases hp : p old = true <;> simpa [hp, AuthorizationCode.burn] using hold'
  | authenticate i request =>
    simp only [redemptions] at hnext
    split at hnext
    · cases hnext
      refine h.update (.inl ?_) ?_
      · split <;> rfl
      · intro r record now token heq
        split at heq <;> cases heq
    · cases hnext
  | consume i =>
    simp only [redemptions] at hnext
    split at hnext
    · cases hnext
      exact h.consume i _ _ rfl
    · cases hnext
  | settle i draw clock =>
    simp only [redemptions] at hnext
    split at hnext
    · rename_i request client record hi
      cases hnext
      refine h.update (.inr (by rw [hi]; rfl)) fun r rec now token heq => ?_
      obtain ⟨rfl, rfl, hnow, hresult⟩ := Attempt.settled.inj heq
      exact ⟨draw, clock, client, hnow, hresult⟩
    · cases hnext

theorem codesBurned_reachable {s₀ : Redemptions ι τ} (h₀ : CodesBurned P settings s₀)
    (h : (redemptions P settings).Reachable s₀ s) : CodesBurned P settings s :=
  h.invariant _ h₀ fun _ _ _ hI _ hnext => hI.next hnext

/-! ## Codes are single use and bound -/

/-- What an attempt has found it keeps. -/
theorem found?_next {event : RedemptionEvent ι τ}
    (hnext : (redemptions P settings).next s event = some s') {i : ι} {request : RedemptionRequest}
    {record : AuthorizationCode} (hi : (s.attempts i).found? = some (request, record)) :
    (s'.attempts i).found? = some (request, record) := by
  have hupdate (j : ι) (attempt : Attempt τ)
      (hsame : (s.attempts j).found? = some (request, record) →
        attempt.found? = some (request, record)) :
      (Function.update s.attempts j attempt i).found? = some (request, record) := by
    by_cases hij : i = j
    · subst hij
      rw [Function.update_self]
      exact hsame hi
    · rwa [Function.update_of_ne hij]
  cases event with
  | handle label =>
    simp only [redemptions] at hnext
    split_ifs at hnext
    obtain ⟨store, -, rfl⟩ := Option.map_eq_some_iff.1 hnext
    exact hi
  | authenticate j request' =>
    simp only [redemptions] at hnext
    split at hnext
    · rename_i hj
      cases hnext
      refine hupdate j _ fun hfound => ?_
      rw [hj] at hfound
      cases hfound
    · cases hnext
  | consume j =>
    simp only [redemptions] at hnext
    split at hnext
    · rename_i hj
      cases hnext
      refine hupdate j _ fun hfound => ?_
      rw [hj] at hfound
      cases hfound
    · cases hnext
  | settle j draw clock =>
    simp only [redemptions] at hnext
    split at hnext
    · rename_i hj
      cases hnext
      refine hupdate j _ fun hfound => ?_
      rw [hj] at hfound
      exact hfound
    · cases hnext

theorem found?_reachable (h : (redemptions P settings).Reachable s s') {i : ι}
    {request : RedemptionRequest} {record : AuthorizationCode}
    (hi : (s.attempts i).found? = some (request, record)) :
    (s'.attempts i).found? = some (request, record) :=
  h.invariant (fun t => (t.attempts i).found? = some (request, record)) hi
    fun _ _ _ hI _ hnext => found?_next hnext hI

/-- **Authorization codes are single use and bound**, in every interleaving of attempts with each
other and with all other requests, from a store without codes.  A token is issued only for a
consent that the request matches, and carries exactly what was consented; two attempts never
redeem one code; and once an attempt has found a code, no other one ever redeems it. -/
theorem authorization_code_single_use {store : Store} (hcodes : store.oauthAuthorizationCodes = [])
    (h : (redemptions P settings).Reachable ⟨store, [], fun _ => .waiting⟩ s) :
    (∀ i request found now token, s.attempts i = .settled request found now (.ok token) →
      ∃ consent ∈ s.consents, IssuedFor P consent request now token) ∧
    (∀ i j tokenHash, (s.attempts i).Redeemed tokenHash P → (s.attempts j).Redeemed tokenHash P →
      i = j) ∧
    (∀ i request record, (s.attempts i).found? = some (request, record) →
      ∀ s', (redemptions P settings).Reachable s s' →
        ∀ j, (s'.attempts j).Redeemed (P.hashToken request.code) P → j = i) := by
  have hb := codesBurned_reachable (CodesBurned.start hcodes) h
  refine ⟨fun i request found now token hs => hb.issuedFor hs, ?_, ?_⟩
  · intro i j tokenHash hi hj
    obtain ⟨_, _, hfi, hhi⟩ := hb.found_of_redeemed hi
    obtain ⟨_, _, hfj, hhj⟩ := hb.found_of_redeemed hj
    exact hb.once i j _ _ _ _ hfi hfj (hhi.trans hhj.symm)
  · intro i request record hi s' h' j hj
    have hb' := codesBurned_reachable hb h'
    obtain ⟨_, _, hfj, hhj⟩ := hb'.found_of_redeemed hj
    have hhi := (hb.burnt i request record hi).2
    exact hb'.once j i _ _ _ _ hfj (found?_reachable h' hi) (hhj.trans hhi.symm)

/-- The handler of the service is the three events of an attempt in a row. -/
theorem exchange_eq_events (draw : Draw) (clock : Clock) (request : RedemptionRequest) {i : ι}
    (hi : s.attempts i = .waiting) :
    ∃ s' found now, (redemptions P settings).Reachable s s' ∧
      s'.store = (exchangeAuthorizationCode P settings draw clock s.store request).2 ∧
      s'.attempts i = .settled request found now
        (exchangeAuthorizationCode P settings draw clock s.store request).1 := by
  unfold exchangeAuthorizationCode
  cases hauth : authenticateClient P s.store.oauthClients request.clientId request.clientSecret
      .authorizationCode with
  | error e =>
    let s₁ : Redemptions ι τ :=
      { s with attempts := Function.update s.attempts i (.settled request none 0 (.error e)) }
    have h₁ : (redemptions P settings).next s (.authenticate i request) = some s₁ := by
      simp [redemptions, hi, hauth, s₁]
    exact ⟨s₁, none, 0, .tail .refl trivial h₁, rfl, by simp [s₁]⟩
  | ok client =>
    let codes := OAuthCodes.consume s.store.oauthAuthorizationCodes (P.hashToken request.code)
    let s₁ : Redemptions ι τ :=
      { s with attempts := Function.update s.attempts i (.authenticated request client) }
    let s₂ : Redemptions ι τ :=
      { s₁ with
        store := { s.store with oauthAuthorizationCodes := codes.2 }
        attempts := Function.update s₁.attempts i (.consumed request client codes.1) }
    let s₃ : Redemptions ι τ :=
      { s₂ with
        attempts := Function.update s₂.attempts i (.settled request codes.1 clock.check
          (redeem P settings draw clock request client codes.1)) }
    have h₁ : (redemptions P settings).next s (.authenticate i request) = some s₁ := by
      simp [redemptions, hi, hauth, s₁]
    have h₂ : (redemptions P settings).next s₁ (.consume i) = some s₂ := by
      simp [redemptions, s₁, s₂, codes]
    have h₃ : (redemptions P settings).next s₂ (.settle i draw clock) = some s₃ := by
      simp [redemptions, s₁, s₂, s₃]
    exact ⟨s₃, codes.1, clock.check, .tail (.tail (.tail .refl trivial h₁) trivial h₂) trivial h₃,
      rfl, by simp [s₃, codes]⟩

end

/-- The user of `newStore` lets the assistant read the inventory. -/
def inventoryConsent : AuthorizationRequest where
  clientId := "assistant"
  redirectUri := "https://assistant/callback"
  responseType := "code"
  scope := "inventory:read"
  resource := "https://mcp"
  codeChallenge := "abcdefghijklmnopqrstuvwxyz0123456789-abcdef"
  codeChallengeMethod := "S256"

/-- The assistant redeems the code. -/
def inventoryRedemption : RedemptionRequest where
  clientId := "assistant"
  clientSecret := none
  code := "code-a"
  redirectUri := "https://assistant/callback"
  codeVerifier := "abcdefghijklmnopqrstuvwxyz0123456789-abcdef"

theorem authorization_code_single_use_second_attempt :
    ∃ s : Redemptions ℕ Claims,
      (redemptions plainPrimitives defaultSettings).Reachable ⟨newStore, [], fun _ => .waiting⟩ s ∧
      (s.attempts 0).Redeemed "code-a" plainPrimitives ∧
      ∀ j, (s.attempts j).Redeemed "code-a" plainPrimitives → j = 0 := by
  obtain ⟨s, hreach, hs⟩ := (redemptions plainPrimitives defaultSettings).exists_reachable
    (⟨newStore, [], fun _ => .waiting⟩ : Redemptions ℕ Claims)
    [.handle ⟨.authorize inventoryConsent "ana@example.com" "pw", namedDraw "a", .at 0⟩,
      .authenticate 0 inventoryRedemption, .authenticate 1 inventoryRedemption, .consume 0,
      .consume 1, .settle 1 (namedDraw "b") (.at 1), .settle 0 (namedDraw "c") (.at 2)]
    (fun s => match s.attempts 0 with
      | .settled request _ _ (.ok _) => decide (request.code = "code-a")
      | _ => false) (by decide)
  have hfirst : (s.attempts 0).Redeemed "code-a" plainPrimitives := by
    split at hs
    · rename_i request found now token heq
      exact ⟨request, found, now, token, heq, of_decide_eq_true hs⟩
    · cases hs
  exact ⟨s, hreach, hfirst, fun j hj =>
    (authorization_code_single_use rfl hreach).2.1 j 0 "code-a" hj hfirst⟩

end Identity

end TrackFlow
