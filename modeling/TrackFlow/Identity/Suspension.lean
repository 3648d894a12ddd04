import TrackFlow.Identity.Redemption

/-!
# Tokens of suspended users

The status of a user is checked when a code is issued and when a session token is minted, but
neither grant of the token endpoint looks at the user again: a code or a token that outlives a
suspension still yields new tokens.

* `authority` : the machine; it remembers the access tokens that were handed out.
* `code_outlives_suspension` : a code yields a token for a suspended user.
* `suspended_user_obtains_nothing` : **no grant issues a token for a user who is not active**, in
  runs that never suspend the user of a live grant.
-/

namespace TrackFlow

namespace Identity

/-- The subject of a client that acts for itself. -/
def isClientSubject (sub : String) : Bool := "client:".toList.isPrefixOf sub.toList

theorem isClientSubject_client (clientId : String) :
    isClientSubject ("client:" ++ clientId) = true := by
  rw [isClientSubject, String.toList_append, List.isPrefixOf_iff_prefix]
  exact List.prefix_append _ _

/-- The service with the access tokens that it has handed out, and the latest instant that it
has read from the clock. -/
structure Authority (τ : Type) where
  store : Store
  minted : List τ
  now : ℕ

/-- The latest reading of a clock. -/
def Clock.latest (clock : Clock) : ℕ :=
  max clock.stamp (max clock.sweep (max clock.check (max clock.issue clock.sign)))

/-- The clock reads nothing earlier than `now`. -/
def Clock.NotBefore (clock : Clock) (now : ℕ) : Prop :=
  now ≤ clock.stamp ∧ now ≤ clock.sweep ∧ now ≤ clock.check ∧ now ≤ clock.issue ∧ now ≤ clock.sign

instance (clock : Clock) (now : ℕ) : Decidable (clock.NotBefore now) :=
  inferInstanceAs (Decidable (_ ∧ _ ∧ _ ∧ _ ∧ _))

section

variable {τ : Type} (P : Primitives τ) (settings : IdentitySettings)

/-- The private key is the service's alone: a token whose signature verifies was handed out. -/
def Unforged (minted : List τ) : Request τ → Prop
  | .tokenExchange request => (P.signedClaims request.subjectToken).isSome →
      request.subjectToken ∈ minted
  | _ => True

variable [DecidableEq τ]

instance (minted : List τ) (request : Request τ) : Decidable (Unforged P minted request) := by
  cases request <;> unfold Unforged <;> infer_instance

/-- Requests in any order, with a clock that does not run backwards and without forged tokens. -/
def authority : Machine (Authority τ) (Label τ) where
  next s label :=
    if Fresh P label.draw s.store ∧ label.clock.NotBefore s.now ∧
        Unforged P s.minted label.request then
      some
        { store := (handle P settings label.draw label.clock s.store label.request).2
          minted := s.minted ++
            (handle P settings label.draw label.clock s.store label.request).1.minted
          now := label.clock.latest }
    else none

end

/-- The request asks for a token on behalf of somebody else. -/
def Request.isDelegation {τ : Type} : Request τ → Bool
  | .exchangeAuthorizationCode _ => true
  | .tokenExchange _ => true
  | _ => false

/-- A token that is issued next on behalf of a user is issued for one who exists and is active. -/
def IssuesForActive {τ : Type} [DecidableEq τ] (P : Primitives τ) (settings : IdentitySettings)
    (s : Authority τ) : Prop :=
  ∀ label token s', (authority P settings).next s label = some s' →
    label.request.isDelegation = true →
    (handle P settings label.draw label.clock s.store label.request).1 = .token token →
      ∃ claims, token.accessToken = P.encode claims ∧
        (isClientSubject claims.sub = true ∨ s.store.IsActive claims.sub)

/-- At `now`, somebody can still obtain a token for the user: with an unused code, or with a
token that some client may exchange. -/
inductive LiveGrant {τ : Type} (P : Primitives τ) (settings : IdentitySettings) (s : Authority τ)
    (now : ℕ) (userId : String) : Prop
  | code (record : AuthorizationCode) (mem : record ∈ s.store.oauthAuthorizationCodes)
      (unused : record.used = false) (unexpired : now < record.expiresAt)
      (user : record.userId = userId)
  | token (token : τ) (mem : token ∈ s.minted) (client : OAuthClient)
      (registered : client ∈ s.store.oauthClients) (grant : .tokenExchange ∈ client.grantTypes)
      (claims : Claims) (exchangeable : Exchangeable P settings now token client claims)
      (user : claims.sub = userId)

/-- The condition on a request: it does not suspend or disable the user of a live grant, and it
does not register a client that may exchange a token of a user who is not active. -/
structure Orderly {τ : Type} (P : Primitives τ) (settings : IdentitySettings) (s : Authority τ)
    (label : Label τ) : Prop where
  suspends : ∀ userId, label.request.suspends = some userId →
    ¬LiveGrant P settings s label.clock.latest userId
  registers : ∀ name grants scopes resources client,
    label.request = .registerConfidentialClient name grants scopes resources
      (OAuthClient.sourceAudiences client) →
      ∀ token ∈ s.minted, ∀ claims, Exchangeable P settings label.clock.latest token client claims →
        isClientSubject claims.sub = true ∨ s.store.IsActive claims.sub

/-- The invariant: whoever has a live grant is active. -/
structure GrantsActive {τ : Type} (P : Primitives τ) (settings : IdentitySettings)
    (s : Authority τ) : Prop where
  ids : (s.store.users.map User.id).Nodup
  active : ∀ userId, isClientSubject userId = false → LiveGrant P settings s s.now userId →
    s.store.IsActive userId

section

variable {τ : Type} {P : Primitives τ} {settings : IdentitySettings}

theorem Store.isActive_iff {store : Store} (hids : (store.users.map User.id).Nodup)
    {userId : String} :
    store.IsActive userId ↔ ∃ user ∈ store.users, user.id = userId ∧ user.status = .active := by
  constructor
  · rintro ⟨user, hget, hactive⟩
    exact ⟨user, List.mem_of_find?_eq_some hget, by simpa using List.find?_some hget, hactive⟩
  · rintro ⟨user, hmem, rfl, hactive⟩
    refine ⟨user, ?_, hactive⟩
    unfold Users.getById
    cases hf : store.users.find? fun u => u.id = user.id with
    | none =>
      have := List.find?_eq_none.1 hf user hmem
      simp at this
    | some found =>
      have hid : found.id = user.id := by simpa using List.find?_some hf
      rw [List.inj_on_of_nodup_map hids (List.mem_of_find?_eq_some hf) hmem hid]

theorem Exchangeable.earlier {now now' : ℕ} {token : τ} {client : OAuthClient} {claims : Claims}
    (h : now ≤ now') (hex : Exchangeable P settings now' token client claims) :
    Exchangeable P settings now token client claims :=
  { hex with unexpired := (Nat.div_le_div_right h).trans hex.unexpired }

/-- A live grant was live before. -/
theorem LiveGrant.earlier {s : Authority τ} {now now' : ℕ} {userId : String} (h : now ≤ now')
    (hlive : LiveGrant P settings s now' userId) : LiveGrant P settings s now userId := by
  cases hlive with
  | code record mem unused unexpired user =>
    exact .code record mem unused (Nat.lt_of_le_of_lt h unexpired) user
  | token token mem client registered grant claims exchangeable user =>
    exact .token token mem client registered grant claims (exchangeable.earlier h) user

theorem Clock.check_le_latest (clock : Clock) : clock.check ≤ clock.latest := by
  unfold latest
  omega

/-- A new token was minted for a client, or for a user who is active or has a live grant. -/
theorem Origin.sub_cases {s : Authority τ} {label : Label τ} {claims : Claims}
    (horigin : Origin P settings s.store label.request label.clock claims)
    (hclock : label.clock.NotBefore s.now) (hunforged : Unforged P s.minted label.request) :
    isClientSubject claims.sub = true ∨ (∃ user ∈ s.store.users, user.id = claims.sub ∧
      user.status = .active) ∨ LiveGrant P settings s s.now claims.sub := by
  obtain ⟨-, -, hcheck, -, -⟩ := hclock
  cases horigin with
  | user user mem active sub => exact .inr (.inl ⟨user, mem, sub.symm, active⟩)
  | client clientId sub => exact .inl (sub ▸ isClientSubject_client clientId)
  | code redemption redeems record mem unused unexpired sub =>
    exact .inr (.inr (.code record mem unused (Nat.lt_of_le_of_lt hcheck unexpired) sub.symm))
  | exchange exchanged exchanges client mem grant subject exchangeable sub =>
    rw [exchanges] at hunforged
    have hminted := hunforged (by rw [exchangeable.signed]; rfl)
    exact .inr (.inr (.token _ hminted client mem grant subject (exchangeable.earlier hcheck)
      sub.symm))

/-- A user who is active stays so, unless the request suspends that user. -/
theorem UserStep.active {request : Request τ} {draw : Draw} {users users' : List User} {user : User}
    (h : UserStep request draw users users') (hmem : user ∈ users) (hactive : user.status = .active)
    (hsuspends : request.suspends ≠ some user.id) :
    ∃ user' ∈ users', user'.id = user.id ∧ user'.status = .active := by
  cases h with
  | same => exact ⟨user, hmem, rfl, hactive⟩
  | create created id active => exact ⟨user, List.mem_append_left _ hmem, rfl, hactive⟩
  | change userId changes id status =>
    refine ⟨_, mem_updateWhere.2 ⟨user, hmem, rfl⟩, ?_⟩
    by_cases hu : user.id = userId
    · rw [if_pos (decide_eq_true hu)]
      refine ⟨id user, ?_⟩
      rcases status user with hs | hs | hs
      · exact hs.trans hactive
      · exact hs
      · exact (hsuspends (hu ▸ hs)).elim
    · rw [if_neg (by simpa using hu)]
      exact ⟨rfl, hactive⟩

theorem UserStep.ids {request : Request τ} {draw : Draw} {users users' : List User}
    (h : UserStep request draw users users') (hids : (users.map User.id).Nodup)
    (hfresh : ∀ user ∈ users, user.id ≠ draw.userId) : (users'.map User.id).Nodup := by
  cases h with
  | same => exact hids
  | change userId changes id status =>
    rw [map_updateWhere id]
    exact hids
  | create created id active =>
    rw [List.map_append]
    refine List.Nodup.append hids (List.nodup_singleton _) fun k hk hk' => ?_
    obtain ⟨user, hmem, rfl⟩ := List.mem_map.1 hk
    exact hfresh user hmem ((List.mem_singleton.1 hk').trans id)

theorem suspends_of_minted {draw : Draw} {clock : Clock} {store : Store} {request : Request τ}
    {token : τ} (h : token ∈ (handle P settings draw clock store request).1.minted) :
    request.suspends = none := by
  have hnone {result : Except Failure UserPublic} :
      token ∉ (respond (τ := τ) .user .failed result).minted := by
    cases result <;> exact List.not_mem_nil
  cases request with
  | updateStatus userId status admin => exact (hnone h).elim
  | deleteUser userId admin => exact (hnone h).elim
  | _ => rfl

variable {s s' : Authority τ} {label : Label τ}

/-- Where a grant comes from that is live after a request. -/
theorem LiveGrant.before (hP : P.TokensReadBack) (hI : GrantsActive P settings s)
    (horderly : Orderly P settings s label) (hfresh : Fresh P label.draw s.store)
    (hclock : label.clock.NotBefore s.now) (hunforged : Unforged P s.minted label.request)
    (hs' : s' =
      { store := (handle P settings label.draw label.clock s.store label.request).2
        minted := s.minted ++
          (handle P settings label.draw label.clock s.store label.request).1.minted
        now := label.clock.latest })
    {userId : String} (huser : isClientSubject userId = false)
    (hlive : LiveGrant P settings s' label.clock.latest userId) :
    LiveGrant P settings s label.clock.latest userId ∨
      label.request.suspends = none ∧ s.store.IsActive userId := by
  have heffect := handle_effect settings label.clock hfresh label.request
  cases hlive with
  | code record mem unused unexpired user =>
    have hold {p : AuthorizationCode → Bool} (hmem : record ∈
        updateWhere p AuthorizationCode.burn s.store.oauthAuthorizationCodes) :
        LiveGrant P settings s label.clock.latest userId := by
      obtain ⟨r, hr, rfl⟩ := mem_updateWhere.1 hmem
      by_cases hp : p r = true
      · rw [if_pos hp] at unused
        cases unused
      · rw [if_neg hp] at unused unexpired user
        exact .code r hr unused unexpired user
    have hcodes := heffect.codes
    rw [hs'] at mem
    generalize (handle P settings label.draw label.clock s.store
      label.request).2.oauthAuthorizationCodes = codes' at hcodes mem
    cases hcodes with
    | burn p => exact .inl (hold mem)
    | issue p consented email password consenting hrequest hconsent =>
      rcases List.mem_append.1 mem with hmem | hmem
      · exact .inl (hold hmem)
      · -- the code that is issued now is issued for an active user
        cases List.mem_singleton.1 hmem
        obtain ⟨hfind, hchecks⟩ := Option.filter_eq_some_iff.1 hconsent
        refine .inr ⟨by rw [hrequest]; rfl, (Store.isActive_iff hI.ids).2 ?_⟩
        exact ⟨consenting, List.mem_of_find?_eq_some hfind, user, (of_decide_eq_true hchecks).1⟩
  | token token mem client registered grant claims exchangeable user =>
    rw [hs'] at mem registered
    rcases List.mem_append.1 mem with hmem | hmem
    · have hclients := heffect.clients
      generalize (handle P settings label.draw label.clock s.store label.request).2.oauthClients =
        clients' at hclients registered
      cases hclients with
      | same => exact .inl (.token token hmem client registered grant claims exchangeable user)
      | register added exchanges =>
        rcases List.mem_append.1 registered with hold | hnew
        · exact .inl (.token token hmem client hold grant claims exchangeable user)
        · cases List.mem_singleton.1 hnew
          obtain ⟨name, grants, scopes, resources, hrequest⟩ := exchanges grant
          have hactive := horderly.registers name grants scopes resources client hrequest token hmem
            claims exchangeable
          rw [user, huser] at hactive
          exact .inr ⟨by rw [hrequest]; rfl, hactive.resolve_left Bool.false_ne_true⟩
    · -- a token that is minted now
      obtain ⟨claims', rfl, horigin⟩ := handle_minted hP label.request hmem
      cases (hP.signedClaims_encode claims').symm.trans exchangeable.signed
      refine .inr ⟨suspends_of_minted hmem, ?_⟩
      have hsub := horigin.sub_cases hclock hunforged
      rw [user, huser] at hsub
      rcases hsub with hclient | hactive | hgrant
      · cases hclient
      · exact (Store.isActive_iff hI.ids).2 hactive
      · exact hI.active userId huser hgrant

variable [DecidableEq τ]

/-- **An orderly request keeps the invariant.** -/
theorem GrantsActive.next (hP : P.TokensReadBack) (hI : GrantsActive P settings s)
    (horderly : Orderly P settings s label)
    (hnext : (authority P settings).next s label = some s') : GrantsActive P settings s' := by
  simp only [authority] at hnext
  split_ifs at hnext with henabled
  obtain ⟨hfresh, hclock, hunforged⟩ := henabled
  have hs' := (Option.some_injective _ hnext).symm
  have heffect := handle_effect settings label.clock hfresh label.request
  have hids : (s'.store.users.map User.id).Nodup := by
    rw [hs']
    exact heffect.users.ids hI.ids hfresh.user
  refine ⟨hids, fun userId huser hlive => ?_⟩
  have hlatest : LiveGrant P settings s' label.clock.latest userId := by
    rw [hs'] at hlive ⊢
    exact hlive
  have hnow : s.now ≤ label.clock.latest := hclock.2.2.1.trans label.clock.check_le_latest
  -- the user is active before the request, and the request does not suspend the user
  have hbefore : s.store.IsActive userId ∧ label.request.suspends ≠ some userId := by
    rcases LiveGrant.before hP hI horderly hfresh hclock hunforged hs' huser hlatest with
      hgrant | ⟨hnone, hactive⟩
    · exact ⟨hI.active userId huser (hgrant.earlier hnow),
        fun hsuspends => horderly.suspends userId hsuspends hgrant⟩
    · exact ⟨hactive, by rw [hnone]; exact nofun⟩
  obtain ⟨user, hmem, rfl, hactive⟩ := (Store.isActive_iff hI.ids).1 hbefore.1
  refine (Store.isActive_iff hids).2 ?_
  rw [hs']
  exact heffect.users.active hmem hactive hbefore.2

/-- A token that a grant issues while the invariant holds is for an active user. -/
theorem GrantsActive.issuesForActive (hP : P.TokensReadBack) (hI : GrantsActive P settings s) :
    IssuesForActive P settings s := by
  intro label token s' hnext hdelegation hresponse
  simp only [authority] at hnext
  split_ifs at hnext with henabled
  obtain ⟨-, hclock, hunforged⟩ := henabled
  have hmem : token.accessToken ∈
      (handle P settings label.draw label.clock s.store label.request).1.minted := by
    rw [hresponse]
    exact List.mem_singleton.2 rfl
  obtain ⟨claims, hclaims, horigin⟩ := handle_minted hP label.request hmem
  refine ⟨claims, hclaims, ?_⟩
  rcases horigin.sub_cases hclock hunforged with hclient | hactive | hgrant
  · exact .inl hclient
  · exact .inr ((Store.isActive_iff hI.ids).2 hactive)
  · by_cases hclient : isClientSubject claims.sub = true
    · exact .inl hclient
    · exact .inr (hI.active _ (Bool.eq_false_iff.2 hclient) hgrant)

/-- **A suspended user obtains no token**, in every run that is orderly: nobody is suspended or
disabled while a code or a token of theirs can still be redeemed. -/
theorem suspended_user_obtains_nothing (hP : P.TokensReadBack) {store : Store}
    {now : ℕ} (hids : (store.users.map User.id).Nodup) (hcodes : store.oauthAuthorizationCodes = [])
    (h : (authority P settings).Run (Orderly P settings) ⟨store, [], now⟩ s) :
    IssuesForActive P settings s := by
  have hstart : GrantsActive P settings (⟨store, [], now⟩ : Authority τ) := by
    refine ⟨hids, fun userId _ hlive => ?_⟩
    cases hlive with
    | code record mem => simp [hcodes] at mem
    | token token mem => cases mem
  exact (h.invariant _ hstart fun _ _ _ hI horderly hnext =>
    hI.next hP horderly hnext).issuesForActive hP

end

/-- The user of `newStore` consents. -/
def consentLabel : Label Claims :=
  ⟨.authorize inventoryConsent "ana@example.com" "pw", namedDraw "a", .at 0⟩

/-- An administrator suspends the user. -/
def suspendLabel : Label Claims :=
  ⟨.updateStatus "user" .suspended { activeUser with id := "admin", role := .admin },
    namedDraw "b", .at 1⟩

/-- The code is redeemed. -/
def redeemLabel : Label Claims :=
  ⟨.exchangeAuthorizationCode inventoryRedemption, namedDraw "c", .at 2⟩

/-- A code that was issued before a suspension yields a token after it. -/
theorem code_outlives_suspension :
    ¬∀ s, (authority plainPrimitives defaultSettings).Reachable ⟨newStore, [], 0⟩ s →
      IssuesForActive plainPrimitives defaultSettings s := by
  intro hall
  obtain ⟨s, hreach, hs⟩ := (authority plainPrimitives defaultSettings).exists_reachable
    (⟨newStore, [], 0⟩ : Authority Claims) [consentLabel, suspendLabel]
    (fun s => ((authority plainPrimitives defaultSettings).next s redeemLabel).isSome &&
      (match (handle plainPrimitives defaultSettings redeemLabel.draw redeemLabel.clock s.store
          redeemLabel.request).1 with
        | .token token => token.accessToken.sub = "user"
        | _ => false) &&
      (Users.getById s.store.users "user").all fun user => user.status = .suspended) (by decide)
  simp only [Bool.and_eq_true] at hs
  obtain ⟨⟨hnext, hresponse⟩, husers⟩ := hs
  obtain ⟨s', hnext⟩ := Option.isSome_iff_exists.1 hnext
  split at hresponse
  · rename_i token htoken
    obtain ⟨claims, hclaims, hactive⟩ := hall s hreach redeemLabel token s' hnext rfl htoken
    have hclaims' : token.accessToken = claims := hclaims
    have hsub : claims.sub = "user" := hclaims' ▸ of_decide_eq_true hresponse
    rw [hsub] at hactive
    rcases hactive with hclient | ⟨user, hget, hactive⟩
    · exact absurd hclient (by decide)
    · rw [hget] at husers
      have hsuspended : user.status = .suspended := of_decide_eq_true husers
      rw [hactive] at hsuspended
      cases hsuspended
  · cases hresponse

/-- The service after the consent. -/
def consentedAuthority : Authority Claims where
  store := (handle plainPrimitives defaultSettings consentLabel.draw consentLabel.clock newStore
    consentLabel.request).2
  minted := []
  now := 0

theorem suspended_user_obtains_nothing_after_consent :
    IssuesForActive plainPrimitives defaultSettings consentedAuthority := by
  have horderly : Orderly plainPrimitives defaultSettings ⟨newStore, [], 0⟩ consentLabel := by
    constructor
    · intro userId h
      cases h
    · intro name grants scopes resources client h
      cases h
  have hnext : (authority plainPrimitives defaultSettings).next ⟨newStore, [], 0⟩ consentLabel =
      some consentedAuthority := by
    simp only [authority]
    rw [if_pos (by decide)]
    rfl
  have hrun : (authority plainPrimitives defaultSettings).Run
      (Orderly plainPrimitives defaultSettings) ⟨newStore, [], 0⟩ consentedAuthority :=
    .tail .refl horderly hnext
  exact suspended_user_obtains_nothing tokensReadBack_plainPrimitives (by decide) rfl hrun

end Identity

end TrackFlow
