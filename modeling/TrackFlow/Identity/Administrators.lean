import TrackFlow.Identity.Suspension

/-!
# There is always an administrator

A request of the user administration is served in two steps: its dependencies resolve the access
token to an administrator, in a thread of their own, and later its handler runs on the event loop
without interruption.  Between the two, handlers of other requests may run; the administrator who
sent a request may be disabled by then.

* `AdminCall.authorize` : the dependencies of a request.
* `administration` : the machine; any number of requests, their two steps in any order.
* `ActiveAdmin.next` : what one step preserves.
* `always_an_administrator` : **every reachable store has an active administrator.**
-/

namespace TrackFlow

namespace Identity

/-! ## The dependencies -/

section

variable {τ : Type} (P : Primitives τ) (settings : IdentitySettings)

/-- The 401 response. -/
def notAuthenticated : Failure := .http 401 "Not authenticated"

/-- `verify_access_token`: the claims of a valid token, if none of the required ones is missing. -/
def verifyAccessToken (now : ℕ) (token : τ) : Option Claims :=
  (P.decode now settings.jwtIssuer settings.jwtAudience token).filter fun claims =>
    claims.role.isSome ∧ claims.status.isSome ∧ claims.mustChangePassword.isSome ∧
      claims.tokenType = tokenTypeAccess

/-- `current_user`: the row of the active user that the token names. -/
def currentUser (now : ℕ) (store : Store) (token : Option τ) : Except Failure User :=
  match token.bind (verifyAccessToken P settings now) with
  | none => .error notAuthenticated
  | some claims =>
    if claims.status ≠ some .active then .error notAuthenticated
    else
      match (Users.getById store.users claims.sub).filter fun user => user.status = .active with
      | none => .error notAuthenticated
      | some user => .ok user

/-- `require_password_current`. -/
def requirePasswordCurrent (user : User) : Except Failure User :=
  if user.mustChangePassword = true then .error (.http 403 "Password change required")
  else .ok user

/-- `require_admin`. -/
def requireAdmin (user : User) : Except Failure User :=
  if user.role ≠ .admin then .error (.http 403 "Admin role required") else .ok user

/-- `admin_user`. -/
def adminUser (now : ℕ) (store : Store) (token : Option τ) : Except Failure User := do
  let user ← currentUser P settings now store token
  let user ← requirePasswordCurrent user
  requireAdmin user

/-- `require_csrf` for a method that changes state. -/
def requireCsrf (cookieToken headerToken : String) : Except Failure Unit :=
  if cookieToken = "" ∨ headerToken = "" ∨ cookieToken ≠ headerToken then
    .error (.http 403 "CSRF token missing or invalid")
  else .ok ()

end

/-! ## The machine -/

/-- The requests of the user administration that create users or change their status. -/
inductive AdminRequest
  | createUser (name email : String) (jurisdiction : Jurisdiction)
  | updateStatus (userId : String) (status : Status)
  | deleteUser (userId : String)
  deriving DecidableEq

/-- The request as its handler gets it, with the administrator that the dependency resolved. -/
def AdminRequest.by (admin : User) {τ : Type} : AdminRequest → Request τ
  | .createUser name email jurisdiction => .createUser name email jurisdiction
  | .updateStatus userId status => .updateStatus userId status admin
  | .deleteUser userId => .deleteUser userId admin

/-- A request with its access token and its two CSRF tokens. -/
structure AdminCall (τ : Type) where
  request : AdminRequest
  token : Option τ
  csrfCookie : String
  csrfHeader : String

/-- The dependencies of a route of the user administration. -/
def AdminCall.authorize {τ : Type} (P : Primitives τ) (settings : IdentitySettings) (now : ℕ)
    (store : Store) (call : AdminCall τ) : Except Failure User := do
  let admin ← adminUser P settings now store call.token
  requireCsrf call.csrfCookie call.csrfHeader
  pure admin

/-- How far a request has come. -/
inductive AdminPhase (τ : Type)
  | waiting
  | authorized (admin : User)
  | answered (response : Response τ)
  deriving DecidableEq

/-- The store and the requests. -/
structure Administration (ι τ : Type) where
  store : Store
  phases : ι → AdminPhase τ

/-- A step of one request: its dependencies, or its handler. -/
inductive AdminEvent (ι : Type)
  | authenticate (i : ι) (now : ℕ)
  | handle (i : ι) (draw : Draw) (clock : Clock)

section

variable {ι τ : Type} [DecidableEq ι] (P : Primitives τ) (settings : IdentitySettings)

/-- Any requests, step by step and in any order; drawn identifiers are new. -/
def administration (calls : ι → AdminCall τ) : Machine (Administration ι τ) (AdminEvent ι) where
  next s
    | .authenticate i now =>
      match s.phases i with
      | .waiting =>
        let phase :=
          match (calls i).authorize P settings now s.store with
          | .error failure => .answered (.failed failure)
          | .ok admin => .authorized admin
        some { s with phases := Function.update s.phases i phase }
      | _ => none
    | .handle i draw clock =>
      match s.phases i with
      | .authorized admin =>
        if Fresh P draw s.store then
          let (response, store) :=
            handle P settings draw clock s.store ((calls i).request.by admin)
          some { store, phases := Function.update s.phases i (.answered response) }
        else none
      | _ => none

end

/-! ## The invariant -/

/-- The user is an administrator who can act. -/
def User.IsActiveAdmin (user : User) : Prop := user.role = .admin ∧ user.status = .active

/-- Users have distinct identifiers, and an active administrator is among them. -/
structure ActiveAdmin (users : List User) : Prop where
  ids : (users.map User.id).Nodup
  admin : ∃ user ∈ users, user.IsActiveAdmin

section

variable {users users' : List User}

/-- Creating a user keeps every administrator. -/
theorem ActiveAdmin.append (h : ActiveAdmin users) {user : User}
    (hfresh : ∀ other ∈ users, other.id ≠ user.id) : ActiveAdmin (users ++ [user]) := by
  obtain ⟨admin, hmem, hadmin⟩ := h.admin
  refine ⟨?_, admin, List.mem_append_left _ hmem, hadmin⟩
  rw [List.map_append]
  refine List.Nodup.append h.ids (List.nodup_singleton _) fun id hid hid' => ?_
  obtain ⟨other, hother, rfl⟩ := List.mem_map.1 hid
  exact hfresh other hother (List.mem_singleton.1 hid')

/-- Setting the status of one user, when it is set to active or another active administrator is
left. -/
theorem ActiveAdmin.setStatus (h : ActiveAdmin users) {userId : String} {status : Status}
    (hleft : status = .active ∨ ∃ admin ∈ users, admin.IsActiveAdmin ∧ admin.id ≠ userId) :
    ActiveAdmin (updateWhere (fun user => user.id = userId)
      (fun user => { user with status }) users) := by
  refine ⟨?_, ?_⟩
  · rw [map_updateWhere (f := fun user : User => { user with status }) fun _ => rfl]
    exact h.ids
  · rcases hleft with rfl | ⟨admin, hmem, hadmin, hne⟩
    · obtain ⟨admin, hmem, hadmin⟩ := h.admin
      refine ⟨_, mem_updateWhere.2 ⟨admin, hmem, rfl⟩, ?_⟩
      split_ifs
      · exact ⟨hadmin.1, rfl⟩
      · exact hadmin
    · refine ⟨admin, mem_updateWhere.2 ⟨admin, hmem, ?_⟩, hadmin⟩
      rw [if_neg (by simpa using hne)]

/-- **The guard.**  When it lets a request pass, another active administrator is left. -/
theorem ActiveAdmin.of_guard {store : Store} (h : ActiveAdmin store.users) {userId : String}
    (hguard : wouldRemoveLastActiveAdmin store userId = .ok false) :
    ∃ admin ∈ store.users, admin.IsActiveAdmin ∧ admin.id ≠ userId := by
  unfold wouldRemoveLastActiveAdmin at hguard
  cases hget : Users.getById store.users userId with
  | none => simp [hget] at hguard
  | some target =>
    simp only [hget] at hguard
    have htarget : target ∈ store.users := List.mem_of_find?_eq_some hget
    have hid : target.id = userId := by simpa using List.find?_some hget
    have honly : ∀ admin ∈ store.users, admin.id = userId → admin = target := fun admin hmem hid' =>
      List.inj_on_of_nodup_map h.ids hmem htarget (hid'.trans hid.symm)
    split_ifs at hguard with hrole
    · -- the target is no active administrator
      obtain ⟨admin, hmem, hadmin⟩ := h.admin
      refine ⟨admin, hmem, hadmin, fun hid' => ?_⟩
      rw [honly admin hmem hid'] at hadmin
      rcases hrole with hrole | hstatus
      · exact hrole hadmin.1
      · exact hstatus hadmin.2
    · -- there are two active administrators at least
      by_contra hnone
      push Not at hnone
      have hall : ∀ admin ∈ store.users.filter fun user =>
          user.role = .admin ∧ user.status = .active, admin = target := by
        intro admin hadmin
        obtain ⟨hmem, hactive⟩ := List.mem_filter.1 hadmin
        exact honly admin hmem (hnone admin hmem (by simpa [User.IsActiveAdmin] using hactive))
      have hnodup : (store.users.filter fun user =>
          user.role = .admin ∧ user.status = .active).Nodup :=
        (List.Nodup.of_map _ h.ids).filter _
      have hle : (store.users.filter fun user =>
          user.role = .admin ∧ user.status = .active).length ≤ 1 := by
        have hsub : (store.users.filter fun user =>
            user.role = .admin ∧ user.status = .active) ⊆ [target] := fun admin hadmin =>
          List.mem_singleton.2 (hall admin hadmin)
        exact (hnodup.subperm hsub).length_le
      rw [Except.ok.injEq, decide_eq_false_iff_not] at hguard
      exact hguard hle

end

section

variable {ι τ : Type} [DecidableEq ι] {P : Primitives τ} {settings : IdentitySettings}
  {draw : Draw} {clock : Clock} {store : Store}

theorem preventAdminLockout_eq_ok {userId : String} {admin : User} {u : Unit}
    (h : preventAdminLockout store userId admin = .ok u) :
    wouldRemoveLastActiveAdmin store userId = .ok false := by
  unfold preventAdminLockout at h
  split_ifs at h
  split at h
  · cases h
  · cases h
  · assumption

/-- `set_status` rewrites the rows of the user, or fails and changes nothing. -/
theorem setStatus_users (store : Store) (userId : String) (status : Status) :
    (setStatus store userId status).2.users = store.users ∨
      (setStatus store userId status).2.users =
        updateWhere (fun user => user.id = userId) (fun user => { user with status })
          store.users := by
  unfold setStatus changeUser
  split
  · exact .inl rfl
  · rename_i record users hupdate
    obtain ⟨user, -, heq⟩ := Option.map_eq_some_iff.1 hupdate
    cases heq
    exact .inr rfl

theorem ActiveAdmin.updateStatus (h : ActiveAdmin store.users) (userId : String) (status : Status)
    (admin : User) : ActiveAdmin (updateStatus store userId status admin).2.users := by
  have hset (hleft : status = .active ∨
      ∃ other ∈ store.users, other.IsActiveAdmin ∧ other.id ≠ userId) :
      ActiveAdmin (Identity.setStatus store userId status).2.users := by
    rcases setStatus_users store userId status with he | he
    · rw [he]
      exact h
    · rw [he]
      exact h.setStatus hleft
  unfold Identity.updateStatus
  split
  · exact h
  · rename_i hguard
    have hleft : status = .active ∨
        ∃ other ∈ store.users, other.IsActiveAdmin ∧ other.id ≠ userId := by
      by_cases hactive : status = .active
      · exact .inl hactive
      · rw [if_pos hactive] at hguard
        exact .inr (h.of_guard (preventAdminLockout_eq_ok hguard))
    split <;> rename_i heq
    · have hkept := hset hleft
      rw [heq] at hkept
      exact hkept
    · have hkept := hset hleft
      rw [heq] at hkept
      dsimp only
      split_ifs <;> exact hkept

theorem ActiveAdmin.deleteUser (h : ActiveAdmin store.users) (userId : String) (admin : User) :
    ActiveAdmin (deleteUser store userId admin).2.users := by
  unfold Identity.deleteUser
  split
  · exact h
  · rename_i hguard
    have hleft := h.of_guard (preventAdminLockout_eq_ok hguard)
    have hset : ActiveAdmin (Identity.setStatus store userId .disabled).2.users := by
      rcases setStatus_users store userId .disabled with he | he
      · rw [he]
        exact h
      · rw [he]
        exact h.setStatus (.inr hleft)
    split <;> rename_i heq <;> rw [heq] at hset <;> exact hset

theorem ActiveAdmin.createUser (h : ActiveAdmin store.users) (hfresh : Fresh P draw store)
    (name email : String) (jurisdiction : Jurisdiction) :
    ActiveAdmin (createUser P settings draw clock store name email jurisdiction).2.users := by
  unfold Identity.createUser createUserWithTempPassword
  split <;> rename_i heq <;> split at heq <;> cases heq
  · exact h
  · rename_i hcreate
    obtain ⟨rfl, rfl⟩ := Users.createUser_eq_some hcreate
    exact h.append fun other hother => hfresh.user other hother

/-- Every handler of the user administration leaves an active administrator. -/
theorem ActiveAdmin.handle (h : ActiveAdmin store.users) (hfresh : Fresh P draw store)
    (request : AdminRequest) (admin : User) :
    ActiveAdmin (handle P settings draw clock store (request.by admin)).2.users := by
  cases request with
  | createUser name email jurisdiction => exact h.createUser hfresh name email jurisdiction
  | updateStatus userId status => exact h.updateStatus userId status admin
  | deleteUser userId => exact h.deleteUser userId admin

/-- **Every step keeps an active administrator**, whoever the dependency has resolved. -/
theorem ActiveAdmin.next {calls : ι → AdminCall τ} {s s' : Administration ι τ}
    (h : ActiveAdmin s.store.users) {event : AdminEvent ι}
    (hnext : (administration P settings calls).next s event = some s') :
    ActiveAdmin s'.store.users := by
  cases event with
  | authenticate i now =>
    simp only [administration] at hnext
    split at hnext
    · cases hnext
      exact h
    · cases hnext
  | handle i draw clock =>
    simp only [administration] at hnext
    split at hnext
    · split_ifs at hnext with hfresh
      cases hnext
      exact h.handle hfresh _ _
    · cases hnext

/-- **There is always an administrator.**  From any store whose users have distinct identifiers,
one of them an active administrator, every state that any requests lead to in any interleaving
has an active administrator, also when the administrator of a request was resolved before other
requests were handled. -/
theorem always_an_administrator {calls : ι → AdminCall τ} {s₀ s : Administration ι τ}
    (hids : (s₀.store.users.map User.id).Nodup)
    (hadmin : ∃ user ∈ s₀.store.users, user.IsActiveAdmin)
    (h : (administration P settings calls).Reachable s₀ s) :
    ∃ user ∈ s.store.users, user.IsActiveAdmin := by
  have hactive : ActiveAdmin s.store.users :=
    h.invariant (fun s => ActiveAdmin s.store.users) ⟨hids, hadmin⟩ fun _ _ _ hI _ hn => hI.next hn
  exact hactive.admin

end

/-! ### Two administrators who disable each other -/

/-- An active administrator. -/
def activeAdmin (id : String) : User := { activeUser with id, email := id, role := .admin }

/-- Ana asks to disable Bea, and Bea asks to delete Ana. -/
def mutualCalls : Bool → AdminCall Claims
  | true => ⟨.updateStatus "bea" .disabled,
      some (buildAccessClaims defaultSettings (namedDraw "a") (.at 0) (activeAdmin "ana")),
      "csrf-a", "csrf-a"⟩
  | false => ⟨.deleteUser "ana",
      some (buildAccessClaims defaultSettings (namedDraw "b") (.at 0) (activeAdmin "bea")),
      "csrf-b", "csrf-b"⟩

/-- Both are authorized before either request is handled; the second one is refused. -/
theorem always_an_administrator_mutual :
    ∃ s, (administration plainPrimitives defaultSettings mutualCalls).Reachable
        ⟨{ newStore with users := [activeAdmin "ana", activeAdmin "bea"] }, fun _ => .waiting⟩ s ∧
      s.phases false = .answered (.failed (.http 400 "At least one active admin is required")) ∧
      ∃ user ∈ s.store.users, user.IsActiveAdmin := by
  obtain ⟨s, hs, hp⟩ :=
    (administration plainPrimitives defaultSettings mutualCalls).exists_reachable
      ⟨{ newStore with users := [activeAdmin "ana", activeAdmin "bea"] }, fun _ => .waiting⟩
      [.authenticate true 0, .authenticate false 0, .handle true (namedDraw "c") (.at 1),
        .handle false (namedDraw "d") (.at 2)]
      (fun s => s.phases false =
        .answered (.failed (.http 400 "At least one active admin is required"))) (by decide)
  refine ⟨s, hs, by simpa using hp, ?_⟩
  exact always_an_administrator (by decide) ⟨_, List.mem_cons_self, rfl, rfl⟩ hs

end Identity

end TrackFlow
