import TrackFlow.Web.Form
import TrackFlow.Identity.Redemption

/-!
# What a client is told at its redirect URI

The authorization page and its submission, of `oauth_routes.py`: a consent page, an error, or a
redirect to the client with the outcome and the state in the query.

* `authorizeForm`, `authorizeSubmit` : the two handlers.
* `searchParams_redirect` : what the client reads of a redirect.
* `redirects_only_to_callbacks` : **a redirect goes to a registered URI, and tells it the outcome.**
* `Waiting` : a code that was issued waits for its client.
* `code_redeems_after_callback` : **the code that a client reads is redeemed for the token.**
-/

namespace TrackFlow

namespace Identity

/-- The parameters of a query, by their names. -/
abbrev Parameters := List (String × String)

/-- What the form of the authorization page is submitted with. -/
structure AuthorizationForm where
  request : AuthorizationRequest
  state : String
  decision : String
  email : String
  password : String
  deriving DecidableEq, Repr

/-- What the authorization endpoint responds. -/
inductive AuthorizationResponse
  | consentPage (request : AuthorizationRequest) (state error : String) (statusCode : ℕ)
  | error (e : OAuthError)
  | redirect (location : List Char)
  deriving DecidableEq, Repr

/-! ## Redirects -/

/-- The characters that `RedirectResponse` leaves in a location. -/
def locationKeeps (c : Char) : Bool :=
  c.isAlphanum || "_.-~:/%#?=@[]!$&\x27()*+,;".toList.contains c

/-- The `Location` header of `RedirectResponse`. -/
def locationHeader (url : List Char) : List Char :=
  Web.percentEncode (fun c => !locationKeeps c) url

/-- The query of `_redirect`; the state is left out when it is empty. -/
def redirectQuery (parameters : Parameters) (state : String) : List (List Char × List Char) :=
  (parameters ++ if state = "" then [] else [("state", state)]).map
    fun p => (p.1.toList, p.2.toList)

/-- `_redirect`. -/
def redirect (redirectUri state : String) (parameters : Parameters) : List Char :=
  locationHeader
    (Web.addQuery redirectUri.toList (Web.urlencode (redirectQuery parameters state)))

/-- The parameters of an error. -/
def errorParameters (error description : String) : Parameters :=
  [("error", error), ("error_description", description)]

/-- The parameters of a denial. -/
def denialParameters : Parameters :=
  errorParameters "access_denied" "The resource owner denied the request."

/-- `_authorization_error`: an error is redirected only to a registered URI. -/
def authorizationError (clients : List OAuthClient) (request : AuthorizationRequest)
    (state : String) (e : OAuthError) : AuthorizationResponse :=
  match validateRedirectUri clients request.clientId request.redirectUri with
  | .error _ => .error e
  | .ok _ => .redirect (redirect request.redirectUri state (errorParameters e.error e.description))

/-- `authorize_form`. -/
def authorizeForm (clients : List OAuthClient) (request : AuthorizationRequest) (state : String) :
    AuthorizationResponse :=
  match validateAuthorizationRequest clients request with
  | .error e => authorizationError clients request state e
  | .ok _ => .consentPage request state "" 200

section

variable {τ : Type} (P : Primitives τ) (settings : IdentitySettings) (draw : Draw) (clock : Clock)

/-- `authorize_submit`. -/
def authorizeSubmit (store : Store) (form : AuthorizationForm) : AuthorizationResponse × Store :=
  match validateAuthorizationRequest store.oauthClients form.request with
  | .error e => (authorizationError store.oauthClients form.request form.state e, store)
  | .ok _ =>
    if form.decision ≠ "approve" then
      (.redirect (redirect form.request.redirectUri form.state denialParameters), store)
    else
      match authorize P settings draw clock store form.request form.email form.password with
      | (.error e, store) =>
        if e.error = "access_denied" then
          (.consentPage form.request form.state e.description e.statusCode, store)
        else (.error e, store)
      | (.ok code, store) =>
        (.redirect (redirect form.request.redirectUri form.state [("code", code)]), store)

end

/-! ## What is read of a redirect -/

section

variable {url : List Char} {redirectUri state : String} {parameters : Parameters}

theorem locationKeeps_of_isQueryChar {c : Char} (h : Web.isQueryChar c = true) :
    locationKeeps c = true := by
  simp only [Web.isQueryChar, Web.isQuoted, Bool.or_eq_true, decide_eq_true_eq,
    List.contains_iff_mem] at h
  rcases h with ((h | h) | rfl) | rfl
  · simp [locationKeeps, h]
  · have hall : ∀ c ∈ ['_', '.', '-', '~', '+', '%'], locationKeeps c = true :=
      List.all_iff_forall_prop.1 (by decide)
    exact hall c h
  · decide
  · decide

/-- A location has no spaces and no control characters. -/
theorem visible_locationHeader : ∀ c ∈ locationHeader url, 0x20 < c.toNat := by
  intro c hc
  rcases Web.mem_percentEncode hc with hdigit | ⟨-, hkeeps⟩
  · have hall : ∀ c ∈ '%' :: "0123456789ABCDEF".toList, 0x20 < c.toNat :=
      List.all_iff_forall_prop.1 (by decide)
    exact hall c hdigit
  · simp only [locationKeeps, Bool.not_eq_false', Bool.or_eq_true, List.contains_iff_mem] at hkeeps
    rcases hkeeps with hname | hmark
    · exact (Web.bounds_of_isAlphanum hname).1
    · have hall : ∀ c ∈ "_.-~:/%#?=@[]!$&\x27()*+,;".toList, 0x20 < c.toNat :=
        List.all_iff_forall_prop.1 (by decide)
      exact hall c hmark

/-- A sign that is left as it is stands in the location where it stood in the URL. -/
theorem mem_locationHeader_iff {sign : Char} (hkeeps : locationKeeps sign = true)
    (hdigit : sign ∉ '%' :: "0123456789ABCDEF".toList) :
    sign ∈ locationHeader url ↔ sign ∈ url := by
  constructor
  · intro h
    rcases Web.mem_percentEncode h with hmem | ⟨hmem, -⟩
    · exact absurd hmem hdigit
    · exact hmem
  · intro h
    refine List.mem_flatMap.2 ⟨sign, h, ?_⟩
    rw [Web.encodeChar_of_not (by simp [hkeeps])]
    exact List.mem_singleton_self sign

/-- The URL is encoded, and the query that is added stays as it is. -/
theorem redirect_eq (redirectUri state : String) (parameters : Parameters) :
    redirect redirectUri state parameters =
      Web.addQuery (locationHeader redirectUri.toList)
        (Web.urlencode (redirectQuery parameters state)) := by
  have hquery : locationHeader (Web.urlencode (redirectQuery parameters state)) =
      Web.urlencode (redirectQuery parameters state) :=
    Web.percentEncode_eq_self fun c hc => by
      rw [locationKeeps_of_isQueryChar (Web.isQueryChar_of_mem_urlencode hc)]
      rfl
  have hsign (sign : Char) (hkeeps : locationKeeps sign = true) (query : List Char) :
      locationHeader (sign :: query) = sign :: locationHeader query := by
    rw [locationHeader, Web.percentEncode_cons, Web.encodeChar_of_not (by simp [hkeeps])]
    rfl
  have happend (front behind : List Char) :
      locationHeader (front ++ behind) = locationHeader front ++ locationHeader behind :=
    Web.percentEncode_append _ _
  have hquestion : '?' ∈ locationHeader redirectUri.toList ↔ '?' ∈ redirectUri.toList :=
    mem_locationHeader_iff (by decide) (by decide)
  simp only [redirect, Web.addQuery, happend, hquestion]
  split_ifs
  · rw [hsign '&' (by decide), hquery]
  · rw [hsign '?' (by decide), hquery]

/-- **What a client reads of a redirect**: the parameters behind those of its own URI, unless the
URI has a fragment. -/
theorem searchParams_redirect (redirectUri state : String) (parameters : Parameters) :
    Web.searchParams (redirect redirectUri state parameters) =
      Web.searchParams (locationHeader redirectUri.toList) ++
        if '#' ∈ redirectUri.toList then [] else redirectQuery parameters state := by
  rw [redirect_eq, Web.searchParams_addQuery visible_locationHeader,
    if_congr (mem_locationHeader_iff (by decide) (by decide)) rfl rfl]

theorem locationHeader_prefix_redirect :
    locationHeader redirectUri.toList <+: redirect redirectUri state parameters := by
  rw [redirect_eq, Web.addQuery]
  exact List.prefix_append _ _

end

/-! ## Where a redirect goes -/

section

variable {τ : Type} {P : Primitives τ} {settings : IdentitySettings} {draw : Draw} {clock : Clock}
  {store store' : Store} {clients : List OAuthClient} {form : AuthorizationForm}
  {request : AuthorizationRequest} {state : String} {location : List Char}

/-- The redirect URI is registered for a client that is active. -/
def IsCallback (clients : List OAuthClient) (clientId redirectUri : String) : Prop :=
  ∃ client, OAuthClients.get clients clientId = some client ∧ client.active = true ∧
    redirectUri ∈ client.redirectUris

theorem validateRedirectUri_eq_ok_iff {clientId redirectUri : String} {client : OAuthClient} :
    validateRedirectUri clients clientId redirectUri = .ok client ↔
      OAuthClients.get clients clientId = some client ∧ client.active = true ∧
        redirectUri ∈ client.redirectUris := by
  simp only [validateRedirectUri, except_bind_eq_ok, except_pure_eq_ok, raiseIf_eq_ok_iff,
    activeClient_eq_ok_iff, exists_const, not_not]
  constructor
  · rintro ⟨found, ⟨hget, hactive⟩, hmem, rfl⟩
    exact ⟨hget, hactive, hmem⟩
  · rintro ⟨hget, hactive, hmem⟩
    exact ⟨client, ⟨hget, hactive⟩, hmem, rfl⟩

/-- A request is validated for the client of its redirect URI, whose scopes it keeps to. -/
theorem validateAuthorizationRequest_eq_ok {client : OAuthClient}
    (h : validateAuthorizationRequest clients request = .ok client) :
    validateRedirectUri clients request.clientId request.redirectUri = .ok client ∧
      request.responseType = "code" ∧ .authorizationCode ∈ client.grantTypes ∧
      Registered client (scopes request.scope) ∧ request.codeChallengeMethod = "S256" := by
  simp only [validateAuthorizationRequest, except_bind_eq_ok, except_pure_eq_ok,
    raiseIf_eq_ok_iff, requireClientScopes_eq_ok_iff, requireClientResource_eq_ok_iff,
    exists_const, not_or, not_not] at h
  obtain ⟨found, hfound, ⟨htype, hgrant⟩, hscopes, -, ⟨hmethod, -⟩, rfl⟩ := h
  exact ⟨hfound, htype, hgrant, hscopes, hmethod⟩

/-- What the client is told when a form is submitted, and the store that is left: an error of its
request, that the user denied it, or the code that was issued to a user who consents. -/
inductive Told (P : Primitives τ) (settings : IdentitySettings) (draw : Draw) (clock : Clock)
    (store : Store) (form : AuthorizationForm) : Parameters → Store → Prop
  | refused (e : OAuthError)
      (invalid : validateAuthorizationRequest store.oauthClients form.request = .error e) :
      Told P settings draw clock store form (errorParameters e.error e.description) store
  | denied (client : OAuthClient)
      (valid : validateAuthorizationRequest store.oauthClients form.request = .ok client)
      (decision : form.decision ≠ "approve") :
      Told P settings draw clock store form denialParameters store
  | approved (client : OAuthClient) (user : User)
      (valid : validateAuthorizationRequest store.oauthClients form.request = .ok client)
      (decision : form.decision = "approve")
      (consent : consentingUser P store.users form.email form.password = some user) :
      Told P settings draw clock store form [("code", draw.code)]
        { store with
          oauthAuthorizationCodes :=
            OAuthCodes.create (OAuthCodes.cleanupExpired store.oauthAuthorizationCodes clock.sweep)
              (issuedCode P settings draw clock form.request user) }

theorem isCallback_of_valid {client : OAuthClient}
    (h : validateAuthorizationRequest clients request = .ok client) :
    IsCallback clients request.clientId request.redirectUri :=
  ⟨client, validateRedirectUri_eq_ok_iff.1 (validateAuthorizationRequest_eq_ok h).1⟩

theorem authorizationError_eq_redirect_iff {e : OAuthError} :
    authorizationError clients request state e = .redirect location ↔
      IsCallback clients request.clientId request.redirectUri ∧
        location = redirect request.redirectUri state (errorParameters e.error e.description) := by
  unfold authorizationError
  cases hvalid : validateRedirectUri clients request.clientId request.redirectUri with
  | error refusal =>
    refine ⟨fun h => (nomatch h), ?_⟩
    rintro ⟨⟨client, hclient⟩, -⟩
    rw [validateRedirectUri_eq_ok_iff.2 hclient] at hvalid
    cases hvalid
  | ok client =>
    have hcallback : IsCallback clients request.clientId request.redirectUri :=
      ⟨client, validateRedirectUri_eq_ok_iff.1 hvalid⟩
    simp [hcallback, eq_comm]

/-- **A submitted form is redirected** exactly to a registered URI, with what the client is
told. -/
theorem authorizeSubmit_eq_redirect_iff :
    authorizeSubmit P settings draw clock store form = (.redirect location, store') ↔
      IsCallback store.oauthClients form.request.clientId form.request.redirectUri ∧
        ∃ parameters, Told P settings draw clock store form parameters store' ∧
          location = redirect form.request.redirectUri form.state parameters := by
  unfold authorizeSubmit
  constructor
  · intro h
    split at h
    · rename_i e hinvalid
      obtain ⟨hlocation, rfl⟩ := Prod.mk.inj h
      obtain ⟨hcallback, hlocation⟩ := authorizationError_eq_redirect_iff.1 hlocation
      exact ⟨hcallback, _, .refused e hinvalid, hlocation⟩
    · rename_i client hvalid
      refine ⟨isCallback_of_valid hvalid, ?_⟩
      split_ifs at h with hdecision
      · cases h
        exact ⟨_, .denied client hvalid hdecision, rfl⟩
      · split at h
        · -- the page is shown again, or an error is
          split_ifs at h <;> cases h
        · rename_i code left hauthorize
          cases h
          obtain ⟨user, hconsent, rfl, hleft⟩ :=
            authorize_eq_ok (by rw [hauthorize] : (authorize P settings draw clock store
              form.request form.email form.password).1 = .ok code)
          rw [hauthorize] at hleft
          cases hleft
          exact ⟨_, .approved client user hvalid (not_not.1 hdecision) hconsent, rfl⟩
  · rintro ⟨hcallback, parameters, htold, rfl⟩
    cases htold with
    | refused e hinvalid =>
      rw [hinvalid]
      exact Prod.ext (authorizationError_eq_redirect_iff.2 ⟨hcallback, rfl⟩) rfl
    | denied client hvalid hdecision =>
      rw [hvalid]
      exact if_pos hdecision
    | approved client user hvalid hdecision hconsent =>
      obtain ⟨-, htype, -, -, hmethod⟩ := validateAuthorizationRequest_eq_ok hvalid
      -- the request of a form that was validated is validated again
      have hagain : validateAuthorizationRequest store.oauthClients
          { form.request with responseType := "code", codeChallengeMethod := "S256" } =
            .ok client := by
        rw [← hvalid, ← htype, ← hmethod]
      rw [hvalid]
      simp only [authorize, hagain, hconsent, hdecision, ne_eq, not_true_eq_false, if_false]

/-- **Redirects go to registered URIs only.**  A submitted form is redirected exactly if its
redirect URI is registered for its active client; the client reads its outcome there, behind what
the URI carries itself and with the state. -/
theorem redirects_only_to_callbacks :
    (authorizeSubmit P settings draw clock store form = (.redirect location, store') ↔
      IsCallback store.oauthClients form.request.clientId form.request.redirectUri ∧
        ∃ parameters, Told P settings draw clock store form parameters store' ∧
          location = redirect form.request.redirectUri form.state parameters) ∧
    ∀ parameters, Web.searchParams (redirect form.request.redirectUri form.state parameters) =
      Web.searchParams (locationHeader form.request.redirectUri.toList) ++
        if '#' ∈ form.request.redirectUri.toList then []
        else redirectQuery parameters form.state :=
  ⟨authorizeSubmit_eq_redirect_iff, fun _ => searchParams_redirect _ _ _⟩

end

/-! ## A code waits for its client -/

section

variable {τ : Type} {P : Primitives τ} {settings : IdentitySettings} {draw : Draw} {clock : Clock}
  {store store' : Store} {row : AuthorizationCode}

/-- No two codes have one id or one digest. -/
structure CodesDistinct (store : Store) : Prop where
  ids : (store.oauthAuthorizationCodes.map AuthorizationCode.id).Nodup
  digests : (store.oauthAuthorizationCodes.map AuthorizationCode.tokenHash).Nodup

/-- The code can still be redeemed. -/
structure Waiting (row : AuthorizationCode) (store : Store) : Prop extends CodesDistinct store where
  mem : row ∈ store.oauthAuthorizationCodes
  unused : row.used = false

/-- A request that is not about codes. -/
def Request.leavesCodes : Request τ → Bool
  | .authorize .. | .exchangeAuthorizationCode _ => false
  | _ => true

theorem changeUser_codes (store : Store) (userId : String) (changes : User → User) :
    (changeUser store userId changes).2.oauthAuthorizationCodes =
      store.oauthAuthorizationCodes := by
  unfold changeUser
  split <;> rfl

theorem handle_codes_of_leavesCodes {request : Request τ} (h : request.leavesCodes = true) :
    (handle P settings draw clock store request).2.oauthAuthorizationCodes =
      store.oauthAuthorizationCodes := by
  cases request with
  | authorize | exchangeAuthorizationCode => cases h
  | clientCredentials | tokenExchange => rfl
  | updateUser | updateJurisdiction => exact changeUser_codes _ _ _
  | login | refresh | logout | changePassword | forgotPassword | resetPassword
  | revokeUserSessions =>
    simp only [handle, Prod.map_snd, id_eq, login, refresh, logout, changePassword,
      requestPasswordReset, resetPassword, revokeUserSessions]
    repeat' split
    all_goals rfl
  | createUser =>
    simp only [handle, Prod.map_snd, id_eq, createUser, createUserWithTempPassword]
    split <;> rename_i heq <;> split at heq <;> cases heq <;> rfl
  | updateStatus userId status admin =>
    have hset := changeUser_codes store userId fun user => { user with status }
    rw [← setStatus] at hset
    simp only [handle, Prod.map_snd, id_eq, updateStatus]
    split
    · rfl
    split <;> rename_i heq <;> rw [heq] at hset
    · exact hset
    · dsimp only
      split_ifs <;> exact hset
  | deleteUser userId admin =>
    have hset := changeUser_codes store userId fun user => { user with status := .disabled }
    rw [← setStatus] at hset
    simp only [handle, Prod.map_snd, id_eq, deleteUser]
    split
    · rfl
    split <;> rename_i heq <;> rw [heq] at hset <;> exact hset
  | registerPublicClient | registerConfidentialClient =>
    simp only [handle, Prod.map_snd, id_eq, registerPublicClient, registerConfidentialClient]
    repeat' split
    all_goals rfl

theorem CodesDistinct.mark (h : CodesDistinct store) (p : AuthorizationCode → Bool)
    (hcodes : store'.oauthAuthorizationCodes =
      updateWhere p AuthorizationCode.burn store.oauthAuthorizationCodes) :
    CodesDistinct store' where
  ids := by
    rw [hcodes, map_updateWhere (f := AuthorizationCode.burn) fun _ => rfl]
    exact h.ids
  digests := by
    rw [hcodes, map_updateWhere (f := AuthorizationCode.burn) fun _ => rfl]
    exact h.digests

theorem CodesDistinct.insert (h : CodesDistinct store) {new : AuthorizationCode}
    (hcodes : store'.oauthAuthorizationCodes = store.oauthAuthorizationCodes ++ [new])
    (hfresh : ∀ code ∈ store.oauthAuthorizationCodes,
      code.id ≠ new.id ∧ code.tokenHash ≠ new.tokenHash) : CodesDistinct store' where
  ids := by
    rw [hcodes, List.map_append]
    refine h.ids.append (List.nodup_singleton _) fun id hid hnew => ?_
    obtain ⟨code, hcode, rfl⟩ := List.mem_map.1 hid
    exact (hfresh code hcode).1 (List.mem_singleton.1 hnew)
  digests := by
    rw [hcodes, List.map_append]
    refine h.digests.append (List.nodup_singleton _) fun digest hdigest hnew => ?_
    obtain ⟨code, hcode, rfl⟩ := List.mem_map.1 hdigest
    exact (hfresh code hcode).2 (List.mem_singleton.1 hnew)

/-- Codes that are new are new among marked ones. -/
theorem Fresh.codes_of_mark (hfresh : Fresh P draw store) {p : AuthorizationCode → Bool} :
    ∀ code ∈ updateWhere p AuthorizationCode.burn store.oauthAuthorizationCodes,
      code.id ≠ draw.codeId ∧ code.tokenHash ≠ P.hashToken draw.code := by
  intro code hcode
  obtain ⟨old, hold, rfl⟩ := mem_updateWhere.1 hcode
  by_cases hp : p old = true <;>
    simpa [hp, AuthorizationCode.burn] using hfresh.code old hold

/-- **Every request keeps the codes distinct.** -/
theorem CodesDistinct.handle (h : CodesDistinct store) (hfresh : Fresh P draw store)
    (request : Request τ) :
    CodesDistinct (handle P settings draw clock store request).2 := by
  have heffect := (handle_effect settings clock hfresh request).codes
  generalize hstore : (Identity.handle P settings draw clock store request).2 = left
    at heffect ⊢
  generalize hcodes : left.oauthAuthorizationCodes = codes at heffect
  cases heffect with
  | burn p => exact h.mark p hcodes
  | issue p consented email password user =>
    let marked : Store :=
      { store with
        oauthAuthorizationCodes :=
          updateWhere p AuthorizationCode.burn store.oauthAuthorizationCodes }
    have hmarked : CodesDistinct marked := h.mark p rfl
    exact hmarked.insert hcodes hfresh.codes_of_mark

theorem codesDistinct_reachable {start : Store} (hstart : start.oauthAuthorizationCodes = [])
    (h : (server P settings).Reachable start store) : CodesDistinct store := by
  refine h.invariant CodesDistinct ⟨by simp [hstart], by simp [hstart]⟩ ?_
  intro s label s' hI _ hnext
  obtain ⟨hfresh, rfl⟩ := server_next_eq_some hnext
  exact hI.handle hfresh label.request

/-! ### What keeps a code -/

/-- The request neither comes after the code expired nor presents the code. -/
def LeavesCode (P : Primitives τ) (row : AuthorizationCode) (label : Label τ) : Prop :=
  label.clock.sweep < row.expiresAt ∧
    ∀ request, label.request = .exchangeAuthorizationCode request →
      P.hashToken request.code ≠ row.tokenHash

/-- A mark that leaves the code out. -/
theorem Waiting.mark (h : Waiting row store) {p : AuthorizationCode → Bool} (hp : p row = false)
    (hcodes : store'.oauthAuthorizationCodes =
      updateWhere p AuthorizationCode.burn store.oauthAuthorizationCodes) :
    Waiting row store' where
  toCodesDistinct := h.toCodesDistinct.mark p hcodes
  mem := by
    rw [hcodes]
    exact mem_updateWhere.2 ⟨row, h.mem, by rw [hp]; rfl⟩
  unused := h.unused

/-- **A code waits** through every request that leaves it alone. -/
theorem Waiting.handle (h : Waiting row store) (hfresh : Fresh P draw store)
    {request : Request τ} (hleaves : LeavesCode P row ⟨request, draw, clock⟩) :
    Waiting row (handle P settings draw clock store request).2 := by
  have hdistinct : CodesDistinct (Identity.handle P settings draw clock store request).2 :=
    h.toCodesDistinct.handle hfresh request
  refine ⟨hdistinct, ?_, h.unused⟩
  cases request with
  | authorize consented email password =>
    cases hr : (authorize P settings draw clock store consented email password).1 with
    | error e =>
      change row ∈ (authorize P settings draw clock store consented email
        password).2.oauthAuthorizationCodes
      rw [authorize_eq_error hr]
      exact h.mem
    | ok code =>
      obtain ⟨user, -, -, hs⟩ := authorize_eq_ok hr
      change row ∈ (authorize P settings draw clock store consented email
        password).2.oauthAuthorizationCodes
      rw [hs]
      -- the sweep comes before the code expires
      refine List.mem_append_left _ (mem_updateWhere.2 ⟨row, h.mem, if_neg ?_⟩)
      simp only [decide_eq_true_eq, not_and, not_le]
      exact fun _ => hleaves.1
  | exchangeAuthorizationCode redemption =>
    change row ∈ (exchangeAuthorizationCode P settings draw clock store
      redemption).2.oauthAuthorizationCodes
    unfold exchangeAuthorizationCode
    split
    · exact h.mem
    · change row ∈ (OAuthCodes.consume store.oauthAuthorizationCodes
        (P.hashToken redemption.code)).2
      unfold OAuthCodes.consume
      split
      · exact h.mem
      · -- what is burnt has another digest, hence another id
        rename_i found hfind
        refine mem_updateWhere.2 ⟨row, h.mem, if_neg ?_⟩
        simp only [decide_eq_true_eq]
        intro hid
        have hfound : found.tokenHash = P.hashToken redemption.code ∧ found.used = false := by
          simpa using List.find?_some hfind
        have hsame : row = found :=
          List.inj_on_of_nodup_map h.ids h.mem (List.mem_of_find?_eq_some hfind) hid
        exact hleaves.2 redemption rfl (hsame ▸ hfound.1.symm)
  | _ =>
    rw [handle_codes_of_leavesCodes rfl]
    exact h.mem

theorem waiting_reachable (h : Waiting row store)
    (hrun : (server P settings).Run (fun _ label => LeavesCode P row label) store store') :
    Waiting row store' := by
  refine hrun.invariant _ h ?_
  intro s label s' hI hleaves hnext
  obtain ⟨hfresh, rfl⟩ := server_next_eq_some hnext
  exact hI.handle hfresh hleaves

/-- A code that waits is found. -/
theorem Waiting.consume (h : Waiting row store) :
    (OAuthCodes.consume store.oauthAuthorizationCodes row.tokenHash).1 = some row := by
  have hfind : (store.oauthAuthorizationCodes.find? fun code =>
      code.tokenHash = row.tokenHash ∧ code.used = false) = some row := by
    obtain ⟨found, hfound⟩ : ∃ found, (store.oauthAuthorizationCodes.find? fun code =>
        code.tokenHash = row.tokenHash ∧ code.used = false) = some found := by
      rw [← Option.isSome_iff_exists, List.find?_isSome]
      exact ⟨row, h.mem, by simp [h.unused]⟩
    have hkeys : found.tokenHash = row.tokenHash ∧ found.used = false := by
      simpa using List.find?_some hfound
    rw [hfound, List.inj_on_of_nodup_map h.digests (List.mem_of_find?_eq_some hfound) h.mem hkeys.1]
  rw [OAuthCodes.consume, hfind]

/-- Clients that are registered stay as they are. -/
theorem get_reachable {G : Store → Label τ → Prop} {clientId : String} {client : OAuthClient}
    (h : OAuthClients.get store.oauthClients clientId = some client)
    (hrun : (server P settings).Run G store store') :
    OAuthClients.get store'.oauthClients clientId = some client := by
  refine hrun.invariant (fun s => OAuthClients.get s.oauthClients clientId = some client) h ?_
  intro s label s' hI _ hnext
  obtain ⟨hfresh, rfl⟩ := server_next_eq_some hnext
  have heffect := (handle_effect settings label.clock hfresh label.request).clients
  generalize (Identity.handle P settings label.draw label.clock s label.request).2.oauthClients =
    clients at heffect ⊢
  cases heffect with
  | same => exact hI
  | register new =>
    rw [OAuthClients.get, List.find?_append]
    exact Option.or_eq_some_iff.2 (.inl hI)

/-! ### From the callback to the token -/

/-- The name of the parameter that carries a code. -/
def codeName : List Char := "code".toList

theorem getParam_append_of_eq_none {name : List Char} {front behind : List (List Char × List Char)}
    (h : Web.getParam name front = none) :
    Web.getParam name (front ++ behind) = Web.getParam name behind := by
  rw [Web.getParam, Option.map_eq_none_iff] at h
  rw [Web.getParam, List.find?_append, h, Option.none_or]
  rfl

/-- Of what a client is told, only the code is read as a code. -/
theorem getParam_codeName_state (state : String) (parameters : Parameters) :
    Web.getParam codeName (redirectQuery parameters state) =
      Web.getParam codeName (parameters.map fun p => (p.1.toList, p.2.toList)) := by
  rw [redirectQuery, List.map_append]
  split_ifs
  · rw [List.map_nil, List.append_nil]
  · simp [Web.getParam, List.find?_append, codeName]

variable {location : List Char} {form : AuthorizationForm}

/-- A client that reads a code was told it. -/
theorem Told.of_code {parameters : Parameters} {state : String} {code : List Char}
    (htold : Told P settings draw clock store form parameters store')
    (h : Web.getParam codeName (redirectQuery parameters state) = some code) :
    code = draw.code.toList ∧ ∃ client user,
      validateAuthorizationRequest store.oauthClients form.request = .ok client ∧
      form.decision = "approve" ∧
      consentingUser P store.users form.email form.password = some user ∧
      store' = { store with
        oauthAuthorizationCodes :=
          OAuthCodes.create (OAuthCodes.cleanupExpired store.oauthAuthorizationCodes clock.sweep)
            (issuedCode P settings draw clock form.request user) } := by
  rw [getParam_codeName_state] at h
  cases htold with
  | refused e => simp [Web.getParam, errorParameters, codeName] at h
  | denied client => simp [Web.getParam, denialParameters, errorParameters, codeName] at h
  | approved client user hvalid hdecision hconsent =>
    refine ⟨?_, client, user, hvalid, hdecision, hconsent, rfl⟩
    simpa [Web.getParam, codeName, eq_comm] using h

/-- The client redeems what it has read with the verifier of its challenge, before the code
expires and with the secret that it is registered with, if any. -/
structure RedeemsReading (P : Primitives τ) (settings : IdentitySettings)
    (clients : List OAuthClient) (issued now : ℕ) (form : AuthorizationForm) (code : List Char)
    (request : RedemptionRequest) : Prop where
  code : request.code.toList = code
  clientId : request.clientId = form.request.clientId
  redirectUri : request.redirectUri = form.request.redirectUri
  isPkceValue : isPkceValue request.codeVerifier = true
  challenge : P.pkceChallenge request.codeVerifier = form.request.codeChallenge
  secret : ∀ client, OAuthClients.get clients request.clientId = some client →
    secretRefused P client request.clientSecret = false
  unexpired : now < issued + minutes settings.oauthAuthorizationCodeExpireMinutes

/-- **The flow completes.**  In every reachable store, the code that a client reads at its redirect
URI was approved by a user who may consent, and whatever requests come in between that leave the
code alone, the client redeems it for a token of that user with the scopes and the resource that
the user approved. -/
theorem code_redeems_after_callback {start : Store} (hstart : start.oauthAuthorizationCodes = [])
    (hreach : (server P settings).Reachable start store) (hfresh : Fresh P draw store)
    (hsubmit : authorizeSubmit P settings draw clock store form = (.redirect location, store'))
    {code : List Char} (hread : Web.getParam codeName (Web.searchParams location) = some code)
    (hown : Web.getParam codeName
      (Web.searchParams (locationHeader form.request.redirectUri.toList)) = none) :
    ∃ user, consentingUser P store.users form.email form.password = some user ∧
      form.decision = "approve" ∧
      ∀ later, (server P settings).Run (fun _ label => LeavesCode P
          (issuedCode P settings draw clock form.request user) label) store' later →
        ∀ draw' clock' request,
          RedeemsReading P settings store.oauthClients clock.issue clock'.check form code request →
            (exchangeAuthorizationCode P settings draw' clock' later request).1 =
              .ok (issue P settings draw' clock' user.id form.request.clientId
                (scopes form.request.scope) form.request.resource user.role none
                user.jurisdiction) := by
  obtain ⟨-, parameters, htold, rfl⟩ := authorizeSubmit_eq_redirect_iff.1 hsubmit
  have hquery : Web.getParam codeName (redirectQuery parameters form.state) = some code := by
    rw [searchParams_redirect, getParam_append_of_eq_none hown] at hread
    split_ifs at hread
    · cases hread
    · exact hread
  obtain ⟨rfl, client, user, hvalid, hdecision, hconsent, rfl⟩ := htold.of_code hquery
  refine ⟨user, hconsent, hdecision, fun later hrun draw' clock' request hredeems => ?_⟩
  obtain ⟨hcallback, -, hgrant, hregistered, -⟩ := validateAuthorizationRequest_eq_ok hvalid
  obtain ⟨hget, hactive, -⟩ := validateRedirectUri_eq_ok_iff.1 hcallback
  -- the code waits from when it is issued
  let row : AuthorizationCode := issuedCode P settings draw clock form.request user
  let marked : Store :=
    { store with
      oauthAuthorizationCodes :=
        OAuthCodes.cleanupExpired store.oauthAuthorizationCodes clock.sweep }
  have hmarked : CodesDistinct marked := (codesDistinct_reachable hstart hreach).mark _ rfl
  let approved : Store :=
    { store with
      oauthAuthorizationCodes := OAuthCodes.create marked.oauthAuthorizationCodes row }
  have hissued : Waiting row approved :=
    ⟨hmarked.insert rfl hfresh.codes_of_mark, List.mem_append_right _ (List.mem_singleton_self _),
      rfl⟩
  have hwaiting : Waiting row later := waiting_reachable hissued hrun
  have hgetlater : OAuthClients.get later.oauthClients request.clientId = some client := by
    have hgetapproved : OAuthClients.get approved.oauthClients form.request.clientId =
      some client := hget
    rw [hredeems.clientId]
    exact get_reachable hgetapproved hrun
  have hauthenticated : authenticateClient P later.oauthClients request.clientId
      request.clientSecret .authorizationCode = .ok client :=
    authenticateClient_eq_ok_iff.2 ⟨hgetlater, hactive, hgrant,
      hredeems.secret client (hredeems.clientId ▸ hget)⟩
  have hcode : request.code = draw.code := String.toList_injective hredeems.code
  have hfound : (OAuthCodes.consume later.oauthAuthorizationCodes (P.hashToken request.code)).1 =
      some row := by
    rw [hcode]
    exact hwaiting.consume
  have hredeem : redeem P settings draw' clock' request client (some row) =
      .ok (issue P settings draw' clock' user.id request.clientId (scopes form.request.scope)
        form.request.resource user.role none user.jurisdiction) :=
    redeem_eq_ok_iff.2 ⟨row, rfl, ⟨hredeems.unexpired, hredeems.clientId.symm,
      hredeems.redirectUri.symm, hredeems.isPkceValue, hredeems.challenge⟩, hregistered, rfl⟩
  rw [exchangeAuthorizationCode, hauthenticated]
  change redeem P settings draw' clock' request client (OAuthCodes.consume
    later.oauthAuthorizationCodes (P.hashToken request.code)).1 = _
  rw [hfound, hredeem, hredeems.clientId]

end

/-- The user of `newStore` lets the assistant read the inventory, on the page. -/
def inventoryForm : AuthorizationForm :=
  ⟨inventoryConsent, "x&y", "approve", "ana@example.com", "pw"⟩

theorem code_redeems_after_callback_inventory :
    ∃ location store', authorizeSubmit plainPrimitives defaultSettings (namedDraw "a") (.at 0)
        newStore inventoryForm = (.redirect location, store') ∧
      location = "https://assistant/callback?code=code-a&state=x%26y".toList ∧
      (exchangeAuthorizationCode plainPrimitives defaultSettings (namedDraw "b") (.at 1) store'
        inventoryRedemption).1 =
          .ok (issue plainPrimitives defaultSettings (namedDraw "b") (.at 1) "user" "assistant"
            (scopes "inventory:read") "https://mcp" .user none (some .es)) := by
  let location : List Char := "https://assistant/callback?code=code-a&state=x%26y".toList
  let store' : Store := (authorize plainPrimitives defaultSettings (namedDraw "a") (.at 0) newStore
    inventoryConsent "ana@example.com" "pw").2
  have hsubmit : authorizeSubmit plainPrimitives defaultSettings (namedDraw "a") (.at 0) newStore
      inventoryForm = (.redirect location, store') := by decide
  obtain ⟨user, hconsent, -, hredeems⟩ := code_redeems_after_callback rfl .refl (by decide) hsubmit
    (show Web.getParam codeName (Web.searchParams location) = some "code-a".toList by decide)
    (by decide)
  have huser : consentingUser plainPrimitives newStore.users "ana@example.com" "pw" =
      some activeUser := by decide
  cases (Option.some_injective _ (huser.symm.trans hconsent))
  exact ⟨location, store', hsubmit, rfl, hredeems store' .refl (namedDraw "b") (.at 1)
    inventoryRedemption ⟨by decide, rfl, rfl, by decide, rfl, by decide, by decide⟩⟩

end Identity

end TrackFlow
