import TrackFlow.Identity.Families
import Mathlib.Data.Fintype.Basic
import Mathlib.Logic.Function.Basic

/-!
# Parallel requests of a browser

`fetchWithAuth` of the backoffice client, run by any number of calls at once against the refresh
handler.  A call asks its service; on a 401 it refreshes the session with the cookie that the
browser holds at that moment, and asks again.

* `advance` : what one call does next; `browser` runs all calls in any order.
* `parallel_refresh_logs_out` : two calls that refresh at once revoke the family.
* `parallel_calls_keep_session` : **the browser stays logged in**, in runs with one refresh at a
  time.
-/

namespace TrackFlow

namespace Identity

/-! ## The model -/

/-- What a `fetchWithAuth` call is made with. -/
structure FetchCall where
  /-- The call goes to `/api/auth/me`. -/
  me : Bool
  retryOnUnauthorized : Bool
  deriving DecidableEq, Repr

/-- The cookies of the browser. -/
structure Cookies (τ : Type) where
  access : Option τ
  refresh : Option String
  deriving DecidableEq, Repr

/-- How far a call is.  `retried` tells the request after a refresh from the first one. -/
inductive Phase (τ : Type)
  | ready (retried : Bool)
  | requested (retried : Bool) (access : Option τ)
  | answered (retried unauthorized : Bool)
  /-- A 401 has arrived; `refreshSession` is called next. -/
  | unauthorized
  | refreshing (refreshToken : Option String)
  | refreshed (tokens : Option (AuthTokens τ))
  /-- The call has returned; `expired` says whether it called `notifySessionExpired`. -/
  | settled (expired : Bool)
  deriving DecidableEq, Repr

/-- What happens to a call next. -/
inductive CallEvent
  /-- A request leaves with the cookies of the browser. -/
  | send
  /-- The service answers, with what its clock reads. -/
  | answer (now : ℕ)
  /-- The identity service handles the refresh. -/
  | serve (draw : Draw) (clock : Clock)
  /-- A response arrives, and its `Set-Cookie` is applied. -/
  | arrive
  deriving DecidableEq, Repr

section

variable {τ : Type} (P : Primitives τ) (settings : IdentitySettings)

/-- `authenticate_request`: the claims of a good access token; without one the answer is 401. -/
def authenticateRequest (now : ℕ) (access : Option τ) : Option Claims :=
  (access.bind (P.decode now settings.jwtIssuer settings.jwtAudience)).filter fun claims =>
    claims.role.isSome ∧ claims.mustChangePassword.isSome ∧ claims.tokenType = tokenTypeAccess ∧
      claims.status = some .active

/-- `get_current_user`: the user is read again. -/
def getCurrentUser (store : Store) (now : ℕ) (access : Option τ) : Option User :=
  (authenticateRequest P settings now access).bind fun claims =>
    (Users.getById store.users claims.sub).filter fun user => user.status = .active

/-- The service of a call answers 401. -/
def answersUnauthorized (call : FetchCall) (store : Store) (now : ℕ) (access : Option τ) : Bool :=
  if call.me then (getCurrentUser P settings store now access).isNone
  else (authenticateRequest P settings now access).isNone

/-- The refresh route: without the cookie it answers 401. -/
def refreshRoute (draw : Draw) (clock : Clock) (store : Store) (refreshToken : Option String) :
    Option (AuthTokens τ) × Store :=
  match presented refreshToken with
  | none => (none, store)
  | some refreshToken =>
    (refresh P settings draw clock store refreshToken).map Except.toOption id

/-- The step of one call: the store, the cookies and the phase that it leaves. -/
def advance (call : FetchCall) (store : Store) (cookies : Cookies τ) :
    Phase τ → CallEvent → Option (Store × Cookies τ × Phase τ)
  | .ready retried, .send => some (store, cookies, .requested retried cookies.access)
  | .requested retried access, .answer now =>
    some (store, cookies, .answered retried (answersUnauthorized P settings call store now access))
  | .answered _ false, .arrive => some (store, cookies, .settled false)
  | .answered retried true, .arrive =>
    -- the route of `/api/auth/me` clears the cookies
    let cookies := if call.me then ⟨none, none⟩ else cookies
    if retried then some (store, cookies, .settled true)
    else if call.retryOnUnauthorized then some (store, cookies, .unauthorized)
    else some (store, cookies, .settled false)
  | .unauthorized, .send => some (store, cookies, .refreshing cookies.refresh)
  | .refreshing refreshToken, .serve draw clock =>
    if Fresh P draw store ∧ draw.refreshToken ≠ "" then
      let (tokens, store) := refreshRoute P settings draw clock store refreshToken
      some (store, cookies, .refreshed tokens)
    else none
  | .refreshed (some tokens), .arrive =>
    some (store, ⟨some tokens.accessToken, some tokens.refreshToken⟩, .ready true)
  | .refreshed none, .arrive => some (store, cookies, .settled true)
  | _, _ => none

end

/-- The identity service, and a browser with its calls. -/
structure Browser (ι τ : Type) where
  store : Store
  cookies : Cookies τ
  phases : ι → Phase τ

/-- An event of a call. -/
structure CallLabel (ι : Type) where
  call : ι
  event : CallEvent

section

variable {ι τ : Type} [DecidableEq ι] (P : Primitives τ) (settings : IdentitySettings)
  (calls : ι → FetchCall)

/-- The calls advance in any order. -/
def browser : Machine (Browser ι τ) (CallLabel ι) where
  next s label :=
    (advance P settings (calls label.call) s.store s.cookies (s.phases label.call) label.event).map
      fun (store, cookies, phase) =>
        { store, cookies, phases := Function.update s.phases label.call phase }

end

section

variable {ι τ : Type} (P : Primitives τ)

/-- A refresh of the call is on its way. -/
def Phase.IsRefresh {τ : Type} : Phase τ → Prop
  | .refreshing _ => True
  | .refreshed _ => True
  | _ => False

instance (phase : Phase τ) : Decidable phase.IsRefresh := by
  cases phase <;> unfold Phase.IsRefresh <;> infer_instance

/-- Sessions and new tokens do not expire meanwhile: the session that a refresh presents is
unexpired when the service looks at it, and so is the access token of a second request. -/
def inTime (s : Browser ι τ) (label : CallLabel ι) : Bool :=
  match s.phases label.call, label.event with
  | .refreshing refreshToken, .serve _ clock =>
    ((presented refreshToken).bind fun token =>
      Sessions.getByTokenHash s.store.refreshSessions (P.hashToken token)).all fun session =>
        clock.sweep < session.expiresAt ∧ clock.check < session.expiresAt
  | .requested true access, .answer now =>
    (access.bind P.signedClaims).all fun claims => timestamp now ≤ claims.exp
  | _, _ => true

/-- The condition on a step: a refresh is sent when no other is on its way, and no 401 of
`/api/auth/me` arrives. -/
def RefreshesAlone (calls : ι → FetchCall) (s : Browser ι τ) (label : CallLabel ι) : Prop :=
  match s.phases label.call, label.event with
  | .unauthorized, .send => ∀ j, ¬(s.phases j).IsRefresh
  | .answered _ true, .arrive => (calls label.call).me = false
  | _, _ => True

instance [Fintype ι] (calls : ι → FetchCall) (s : Browser ι τ) (label : CallLabel ι) :
    Decidable (RefreshesAlone calls s label) := by
  unfold RefreshesAlone
  split <;> infer_instance

/-- The browser holds the token of the one live session of the family. -/
def Holds (familyId userId : String) (sessions : List Session) (refreshToken : Option String) :
    Prop :=
  ∃ token, refreshToken = some token ∧ token ≠ "" ∧ ∃ a ∈ sessions,
    a.tokenHash = P.hashToken token ∧
    a.familyId = familyId ∧ a.userId = userId ∧ a.revoked = false ∧
    ∀ b ∈ sessions, b.familyId = familyId → b.revoked = false → b = a

/-- Once all calls have settled, the browser is logged in and no call has reported the session
as expired. -/
def StaysLoggedIn (familyId userId : String) (s : Browser ι τ) : Prop :=
  (∀ i, ∃ expired, s.phases i = .settled expired) →
    Holds P familyId userId s.store.refreshSessions s.cookies.refresh ∧
      ∀ i, s.phases i ≠ .settled true

/-- The calls are about to be made, by a browser that holds a live session of an active user. -/
structure LoggedIn (familyId userId : String) (s : Browser ι τ) : Prop where
  ready : ∀ i, s.phases i = .ready false
  active : s.store.IsActive userId
  holds : Holds P familyId userId s.store.refreshSessions s.cookies.refresh

end

/-! ## The invariant -/

section

variable {ι τ : Type} (P : Primitives τ) (settings : IdentitySettings)

/-- The token verifies and was signed for an active user; it may have expired. -/
def SignedFor (userId : String) (access : τ) : Prop :=
  ∃ claims, P.signedClaims access = some claims ∧ claims.iss = settings.jwtIssuer ∧
    claims.aud = settings.jwtAudience ∧ claims.role.isSome = true ∧
    claims.mustChangePassword.isSome = true ∧ claims.tokenType = tokenTypeAccess ∧
    claims.status = some .active ∧ claims.sub = userId

/-- What holds in a phase while refreshes are sent one at a time. -/
def PhaseOk (familyId userId : String) (store : Store) (cookies : Cookies τ) : Phase τ → Prop
  | .ready true => ∃ access, cookies.access = some access ∧ SignedFor P settings userId access
  | .requested true access => ∃ token, access = some token ∧ SignedFor P settings userId token
  | .answered true unauthorized => unauthorized = false
  | .refreshing refreshToken => refreshToken = cookies.refresh
  | .refreshed tokens => ∃ issued, tokens = some issued ∧
      Holds P familyId userId store.refreshSessions (some issued.refreshToken) ∧
      SignedFor P settings userId issued.accessToken
  | .settled expired => expired = false
  | _ => True

/-- The invariant of runs with one refresh at a time.  The token of the live session is in the
browser or in the one response that is on its way there. -/
structure Steady (familyId userId : String) (s : Browser ι τ) : Prop where
  families : Families s.store.refreshSessions
  active : s.store.IsActive userId
  alone : ∀ i j, (s.phases i).IsRefresh → (s.phases j).IsRefresh → i = j
  cookie : (∀ i tokens, s.phases i ≠ .refreshed tokens) →
    Holds P familyId userId s.store.refreshSessions s.cookies.refresh
  phases : ∀ i, PhaseOk P settings familyId userId s.store s.cookies (s.phases i)

end

section

variable {ι τ : Type} {P : Primitives τ} {settings : IdentitySettings} {draw : Draw}
  {clock : Clock} {store : Store} {familyId userId : String}

/-- A refresh with a live and unexpired session of an active user rotates the session. -/
theorem refresh_of_live (settings : IdentitySettings) (draw : Draw) {a : Session} {user : User}
    {refreshToken : String}
    (ha : Sessions.getByTokenHash store.refreshSessions (P.hashToken refreshToken) = some a)
    (hlive : a.revoked = false) (hsweep : clock.sweep < a.expiresAt)
    (hcheck : clock.check < a.expiresAt)
    (huser : Users.getById store.users a.userId = some user) (hactive : user.status = .active) :
    refresh P settings draw clock store refreshToken =
      (let (tokens, store) := issueTokens P settings draw clock
        { store with
          refreshSessions := Sessions.revokeSession
            (Sessions.cleanupExpired store.refreshSessions clock.sweep) a.id }
        user (some a.familyId) (some a.id)
      (.ok tokens, store)) := by
  have hfind : Sessions.getByTokenHash (Sessions.cleanupExpired store.refreshSessions clock.sweep)
      (P.hashToken refreshToken) = some a := by
    have hkeep : ¬(a.revoked = false ∧ a.expiresAt ≤ clock.sweep) := by omega
    unfold Sessions.getByTokenHash at ha ⊢
    rw [Sessions.cleanupExpired, find?_updateWhere (f := Session.revoke) (fun _ => rfl), ha]
    simp [hkeep]
  have hcheck' : ¬a.expiresAt ≤ clock.check := by omega
  unfold refresh
  dsimp only
  rw [hfind]
  simp only [huser]
  simp [hlive, hcheck', hactive, Option.filter]

/-- After that refresh the new token is the one of the live session of the family. -/
theorem Holds.refresh (settings : IdentitySettings) (hfam : Families store.refreshSessions)
    (hactive : store.IsActive userId) {refreshToken : Option String}
    (hholds : Holds P familyId userId store.refreshSessions refreshToken)
    (hfresh : Fresh P draw store) (hdraw : draw.refreshToken ≠ "")
    (hunexpired : ((presented refreshToken).bind fun token =>
      Sessions.getByTokenHash store.refreshSessions (P.hashToken token)).all (fun session =>
        clock.sweep < session.expiresAt ∧ clock.check < session.expiresAt) = true) :
    ∃ user tokens store', Users.getById store.users userId = some user ∧ user.status = .active ∧
      refreshRoute P settings draw clock store refreshToken = (some tokens, store') ∧
      tokens.accessToken = signAccessToken P settings draw clock user ∧
      store'.users = store.users ∧ Families store'.refreshSessions ∧
      Holds P familyId userId store'.refreshSessions (some tokens.refreshToken) := by
  obtain ⟨token, rfl, hne, a, ha, hhash, rfl, rfl, hlive, -⟩ := hholds
  obtain ⟨user, huser, hstatus⟩ := hactive
  have hpresented : presented (some token) = some token := by simp [presented, Option.filter, hne]
  have hfind := hfam.getByTokenHash ha
  rw [hhash] at hfind
  rw [hpresented, Option.bind_some, hfind] at hunexpired
  obtain ⟨hsweep, hcheck⟩ := of_decide_eq_true hunexpired
  have hrefresh := refresh_of_live settings draw hfind hlive hsweep hcheck huser hstatus
  have hfam' := hfam.step (refresh_effect settings clock hfresh token).sessions
  rw [hrefresh] at hfam'
  have hroute : refreshRoute P settings draw clock store (some token) =
      (refresh P settings draw clock store token).map Except.toOption id := by
    unfold refreshRoute
    rw [hpresented]
  have hid : user.id = a.userId := by simpa using List.find?_some huser
  refine ⟨user, _, _, huser, hstatus, hroute.trans (congrArg _ hrefresh), rfl, rfl, hfam', ?_⟩
  refine ⟨draw.refreshToken, rfl, hdraw, _, List.mem_append_right _ (List.mem_singleton.2 rfl),
    rfl, rfl, hid, rfl, fun b hb hf hb' => ?_⟩
  exact hfam'.linear b hb _ (List.mem_append_right _ (List.mem_singleton.2 rfl)) hf hb' rfl

/-- The access token of a refresh is signed for the user. -/
theorem signedFor_signAccessToken (hP : P.TokensReadBack) {user : User}
    (huser : Users.getById store.users userId = some user) (hactive : user.status = .active) :
    SignedFor P settings userId (signAccessToken P settings draw clock user) := by
  have hid : user.id = userId := by simpa using List.find?_some huser
  exact ⟨_, hP.signedClaims_encode _, rfl, rfl, rfl, rfl, rfl, congrArg some hactive, hid⟩

/-- A token that is signed for an active user and has not expired is not answered with 401. -/
theorem answersUnauthorized_eq_false {call : FetchCall} {now : ℕ} {access : τ}
    (hsigned : SignedFor P settings userId access) (hactive : store.IsActive userId)
    (hunexpired : ((some access).bind P.signedClaims).all (fun claims =>
      timestamp now ≤ claims.exp) = true) :
    answersUnauthorized P settings call store now (some access) = false := by
  obtain ⟨claims, hclaims, hiss, haud, hrole, hmust, htype, hstatus, rfl⟩ := hsigned
  obtain ⟨user, huser, husers⟩ := hactive
  rw [Option.bind_some, hclaims] at hunexpired
  have hdecode : P.decode now settings.jwtIssuer settings.jwtAudience access = some claims :=
    P.decode_eq_some.2 ⟨hclaims, of_decide_eq_true hunexpired, hiss, haud⟩
  have hauth : authenticateRequest P settings now (some access) = some claims := by
    rw [authenticateRequest, Option.bind_some, hdecode]
    simp [Option.filter, hrole, hmust, htype, hstatus]
  have hcurrent : getCurrentUser P settings store now (some access) = some user := by
    rw [getCurrentUser, hauth, Option.bind_some, huser]
    simp [Option.filter, husers]
  unfold answersUnauthorized
  rw [hauth, hcurrent]
  split_ifs <;> rfl

/-- What holds in a phase without a refresh on its way needs only the access cookie. -/
theorem PhaseOk.of_not_isRefresh {store' : Store} {cookies cookies' : Cookies τ} {phase : Phase τ}
    (h : PhaseOk P settings familyId userId store cookies phase) (hphase : ¬phase.IsRefresh)
    (haccess : (∃ access, cookies.access = some access ∧ SignedFor P settings userId access) →
      ∃ access, cookies'.access = some access ∧ SignedFor P settings userId access) :
    PhaseOk P settings familyId userId store' cookies' phase := by
  cases phase with
  | ready retried =>
    cases retried with
    | false => trivial
    | true => exact haccess h
  | requested retried access => cases retried <;> exact h
  | answered retried unauthorized => cases retried <;> exact h
  | unauthorized => trivial
  | refreshing refreshToken => exact (hphase trivial).elim
  | refreshed tokens => exact (hphase trivial).elim
  | settled expired => exact h

variable [DecidableEq ι] {s s' : Browser ι τ} {calls : ι → FetchCall} {label : CallLabel ι}

/-- The call `i` moves to a phase; what the other calls rely on is still there. -/
theorem Steady.update (h : Steady P settings familyId userId s) {i : ι} {phase : Phase τ}
    {cookies : Cookies τ} (hfam : Families store.refreshSessions) (hactive : store.IsActive userId)
    (hphase : PhaseOk P settings familyId userId store cookies phase)
    (hothers : ∀ j, j ≠ i → PhaseOk P settings familyId userId store cookies (s.phases j))
    (halone : phase.IsRefresh → ∀ j, j ≠ i → ¬(s.phases j).IsRefresh)
    (hcookie : (∀ tokens, phase ≠ .refreshed tokens) →
      (∀ j, j ≠ i → ∀ tokens, s.phases j ≠ .refreshed tokens) →
      Holds P familyId userId store.refreshSessions cookies.refresh) :
    Steady P settings familyId userId
      { store, cookies, phases := Function.update s.phases i phase } where
  families := hfam
  active := hactive
  alone := by
    intro j k hj hk
    dsimp only at hj hk
    by_cases hji : j = i <;> by_cases hki : k = i
    · exact hji.trans hki.symm
    · subst hji
      rw [Function.update_self] at hj
      rw [Function.update_of_ne hki] at hk
      exact (halone hj k hki hk).elim
    · subst hki
      rw [Function.update_self] at hk
      rw [Function.update_of_ne hji] at hj
      exact (halone hk j hji hj).elim
    · rw [Function.update_of_ne hji] at hj
      rw [Function.update_of_ne hki] at hk
      exact h.alone j k hj hk
  cookie := by
    intro hnone
    refine hcookie (fun tokens he => hnone i tokens ?_) fun j hj tokens he => hnone j tokens ?_
    · exact (Function.update_self i phase s.phases).trans he
    · exact (Function.update_of_ne hj phase s.phases).trans he
  phases := by
    intro j
    dsimp only
    by_cases hj : j = i
    · subst hj
      rw [Function.update_self]
      exact hphase
    · rw [Function.update_of_ne hj]
      exact hothers j hj

/-- The call `i` moves on between two phases without a refresh. -/
theorem Steady.quiet (h : Steady P settings familyId userId s) {i : ι} {phase : Phase τ}
    (hphase : PhaseOk P settings familyId userId s.store s.cookies phase)
    (hbefore : ¬(s.phases i).IsRefresh) (hafter : ¬phase.IsRefresh) :
    Steady P settings familyId userId { s with phases := Function.update s.phases i phase } := by
  refine h.update h.families h.active hphase (fun j _ => h.phases j)
    (fun hrefresh => (hafter hrefresh).elim) fun _ hothers => h.cookie fun j tokens he => ?_
  by_cases hj : j = i
  · subst hj
    exact hbefore (he ▸ trivial)
  · exact hothers j hj tokens he

/-- **One step keeps the invariant**, when it is in time and refreshes are alone. -/
theorem Steady.next (hP : P.TokensReadBack) (h : Steady P settings familyId userId s)
    (htime : inTime P s label = true) (halone : RefreshesAlone calls s label)
    (hnext : (browser P settings calls).next s label = some s') :
    Steady P settings familyId userId s' := by
  obtain ⟨i, event⟩ := label
  obtain ⟨⟨store', cookies', phase'⟩, hadvance, rfl⟩ := Option.map_eq_some_iff.1 hnext
  have hok := h.phases i
  dsimp only at hadvance
  cases hphase : s.phases i with
  | ready retried =>
    rw [hphase] at hadvance hok
    cases event with
    | send =>
      cases hadvance
      refine h.quiet ?_ (by rw [hphase]; exact id) id
      cases retried <;> exact hok
    | _ => cases hadvance
  | requested retried access =>
    rw [hphase] at hadvance hok
    cases event with
    | answer now =>
      cases hadvance
      refine h.quiet ?_ (by rw [hphase]; exact id) id
      cases retried with
      | false => trivial
      | true =>
        -- the token of a second request is new
        obtain ⟨token, rfl, hsigned⟩ := hok
        simp only [inTime, hphase] at htime
        exact answersUnauthorized_eq_false hsigned h.active htime
    | _ => cases hadvance
  | answered retried unauthorized =>
    rw [hphase] at hadvance hok
    cases event with
    | arrive =>
      cases unauthorized with
      | false =>
        cases hadvance
        exact h.quiet rfl (by rw [hphase]; exact id) id
      | true =>
        simp only [RefreshesAlone, hphase] at halone
        cases retried with
        | true => cases hok
        | false =>
          simp only [advance, halone, Bool.false_eq_true, if_false] at hadvance
          split_ifs at hadvance with hretry <;> cases hadvance
          · exact h.quiet trivial (by rw [hphase]; exact id) id
          · exact h.quiet rfl (by rw [hphase]; exact id) id
    | _ => cases unauthorized <;> cases hadvance
  | unauthorized =>
    rw [hphase] at hadvance hok
    cases event with
    | send =>
      cases hadvance
      simp only [RefreshesAlone, hphase] at halone
      refine h.update h.families h.active rfl (fun j _ => h.phases j) (fun _ j _ => halone j)
        fun _ _ => h.cookie fun j tokens he => halone j (he ▸ trivial)
    | _ => cases hadvance
  | refreshing refreshToken =>
    rw [hphase] at hadvance hok
    cases event with
    | serve draw clock =>
      simp only [advance] at hadvance
      split_ifs at hadvance with hdraw
      have hothers : ∀ j, j ≠ i → ¬(s.phases j).IsRefresh := by
        intro j hj hrefresh
        exact hj (h.alone j i hrefresh (by rw [hphase]; trivial))
      have hholds := h.cookie fun j tokens he => by
        by_cases hj : j = i
        · rw [hj, hphase] at he
          cases he
        · exact hothers j hj (he ▸ trivial)
      simp only [inTime, hphase] at htime
      rw [← (show refreshToken = s.cookies.refresh from hok)] at hholds
      obtain ⟨user, tokens, after, huser, hactive, hroute, haccess, husers, hfam, hafter⟩ :=
        hholds.refresh settings h.families h.active hdraw.1 hdraw.2 htime
      rw [hroute] at hadvance
      cases hadvance
      refine h.update hfam (by rw [Store.IsActive, husers]; exact h.active)
        ⟨tokens, rfl, hafter, ?_⟩
        (fun j hj => (h.phases j).of_not_isRefresh (hothers j hj) id) (fun _ => hothers)
        fun hne => (hne _ rfl).elim
      exact haccess ▸ signedFor_signAccessToken hP huser hactive
    | _ => cases hadvance
  | refreshed tokens =>
    rw [hphase] at hadvance hok
    cases event with
    | arrive =>
      obtain ⟨issued, rfl, hholds, hsigned⟩ := hok
      cases hadvance
      have hothers : ∀ j, j ≠ i → ¬(s.phases j).IsRefresh := by
        intro j hj hrefresh
        exact hj (h.alone j i hrefresh (by rw [hphase]; trivial))
      exact h.update h.families h.active ⟨_, rfl, hsigned⟩
        (fun j hj => (h.phases j).of_not_isRefresh (hothers j hj) fun _ => ⟨_, rfl, hsigned⟩)
        (fun hrefresh => hrefresh.elim) fun _ _ => hholds
    | _ => cases tokens <;> cases hadvance
  | settled expired =>
    rw [hphase] at hadvance
    cases hadvance

/-- **Parallel calls keep the session.**  A browser that is logged in makes any number of calls
at once.  In every run that sends one refresh at a time, in which nothing expires on the way and no
401 of `/api/auth/me` arrives, the browser holds the one live session of the family when all calls
have settled, and none of them has reported the session as expired. -/
theorem parallel_calls_keep_session (hP : P.TokensReadBack) {store₀ : Store} {start : Browser ι τ}
    (h₀ : store₀.refreshSessions = [])
    (hstore : (server P settings).Reachable store₀ start.store)
    (hstart : LoggedIn P familyId userId start)
    (h : (browser P settings calls).Run
      (fun s label => inTime P s label = true ∧ RefreshesAlone calls s label) start s) :
    StaysLoggedIn P familyId userId s := by
  have hsteady₀ : Steady P settings familyId userId start := by
    refine ⟨families_reachable (h₀ ▸ .nil) hstore, hstart.active, ?_, fun _ => hstart.holds, ?_⟩
    · intro i j hi
      rw [hstart.ready i] at hi
      exact hi.elim
    · intro i
      rw [hstart.ready i]
      trivial
  have hsteady := h.invariant _ hsteady₀ fun _ _ _ hI hg hnext => hI.next hP hg.1 hg.2 hnext
  intro hsettled
  refine ⟨hsteady.cookie fun i tokens he => ?_, fun i he => ?_⟩
  · obtain ⟨expired, hi⟩ := hsettled i
    rw [hi] at he
    cases he
  · have hi := hsteady.phases i
    rw [he] at hi
    cases hi

end

/-! ## Two calls -/

/-- A user has logged in at 0. -/
def afterLogin : Store :=
  (handle plainPrimitives defaultSettings (namedDraw "a") (.at 0) newStore
    (.login "ana@example.com" "pw")).2

/-- The browser of that user, about to make two calls. -/
def twoCalls : Browser Bool Claims where
  store := afterLogin
  cookies :=
    { access := some (buildAccessClaims defaultSettings (namedDraw "a") (.at 0) activeUser)
      refresh := some "refresh-a" }
  phases := fun _ => .ready false

/-- Calls of a service's route, with the default options. -/
def plainCalls : Bool → FetchCall := fun _ => ⟨false, true⟩

/-- Both calls have received their 401, twenty minutes after the login. -/
def bothUnauthorized : List (CallLabel Bool) :=
  [⟨true, .send⟩, ⟨false, .send⟩, ⟨true, .answer (minutes 20)⟩, ⟨false, .answer (minutes 20)⟩,
    ⟨true, .arrive⟩, ⟨false, .arrive⟩]

/-- A call refreshes the session and asks again. -/
def refreshAndRetry (call : Bool) (draw : Draw) : List (CallLabel Bool) :=
  [⟨call, .send⟩, ⟨call, .serve draw (.at (minutes 20))⟩, ⟨call, .arrive⟩, ⟨call, .send⟩,
    ⟨call, .answer (minutes 20)⟩, ⟨call, .arrive⟩]

theorem reachable_afterLogin :
    (server plainPrimitives defaultSettings).Reachable newStore afterLogin := by
  refine .tail (l := ⟨.login "ana@example.com" "pw", namedDraw "a", .at 0⟩) .refl trivial ?_
  simp only [server]
  rw [if_pos (by decide)]
  rfl

theorem loggedIn_twoCalls : LoggedIn plainPrimitives "family-a" "user" twoCalls where
  ready _ := rfl
  active := ⟨_, rfl, rfl⟩
  holds := by
    refine ⟨"refresh-a", rfl, by decide, _, List.mem_singleton.2 rfl, rfl, rfl, rfl, rfl, ?_⟩
    intro b hb _ _
    exact List.mem_singleton.1 hb

/-- Two calls whose refreshes are both on their way: the second one presents a token that the
first one has rotated out. -/
theorem parallel_refresh_logs_out :
    ¬∀ s, (browser plainPrimitives defaultSettings plainCalls).Run
      (fun s label => inTime plainPrimitives s label = true) twoCalls s →
        StaysLoggedIn plainPrimitives "family-a" "user" s := by
  intro hall
  obtain ⟨s, hrun, hs⟩ := (browser plainPrimitives defaultSettings plainCalls).exists_run
    (inTime plainPrimitives) twoCalls
    (bothUnauthorized ++ [⟨true, .send⟩, ⟨false, .send⟩,
      ⟨true, .serve (namedDraw "b") (.at (minutes 20))⟩,
      ⟨false, .serve (namedDraw "c") (.at (minutes 20))⟩, ⟨true, .arrive⟩, ⟨false, .arrive⟩,
      ⟨true, .send⟩, ⟨true, .answer (minutes 20)⟩, ⟨true, .arrive⟩])
    (fun s => s.phases true = .settled false ∧ s.phases false = .settled true) (by decide)
  obtain ⟨htrue, hfalse⟩ := of_decide_eq_true hs
  refine (hall s hrun fun i => ?_).2 false hfalse
  cases i with
  | false => exact ⟨_, hfalse⟩
  | true => exact ⟨_, htrue⟩

theorem parallel_calls_keep_session_in_turn :
    ∃ s : Browser Bool Claims, (∀ i, s.phases i = .settled false) ∧
      StaysLoggedIn plainPrimitives "family-a" "user" s := by
  obtain ⟨s, hrun, hs⟩ := (browser plainPrimitives defaultSettings plainCalls).exists_run
    (fun s label =>
      decide (inTime plainPrimitives s label = true ∧ RefreshesAlone plainCalls s label))
    twoCalls
    (bothUnauthorized ++ refreshAndRetry true (namedDraw "b") ++
      refreshAndRetry false (namedDraw "c"))
    (fun s => ∀ i, s.phases i = .settled false) (by decide)
  exact ⟨s, of_decide_eq_true hs, parallel_calls_keep_session tokensReadBack_plainPrimitives rfl
    reachable_afterLogin loggedIn_twoCalls (hrun.mono fun _ _ => of_decide_eq_true)⟩

end Identity

end TrackFlow
