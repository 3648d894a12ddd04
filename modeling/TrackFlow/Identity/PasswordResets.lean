import TrackFlow.Identity.Families

/-!
# Password reset tokens

Reset tokens are inserted and burnt, never deleted (`ResetStep`).  Creating one burns the others
of its user; a reset that succeeds burns all tokens of its user and revokes all their sessions.

* `handle_resets` : what any request does to the reset tokens.
* `Superseded` : the invariant; a user has one unused token at most.
* `password_reset_tokens` : **reset tokens over every run of the service.**
-/

namespace TrackFlow

namespace Identity

/-! ## Steps of the table -/

/-- What one request does to the reset tokens: some are burnt, and one may be created when the
unused ones of its user are burnt. -/
inductive ResetStep (resets : List PasswordReset) : List PasswordReset → Prop
  | burn (p : PasswordReset → Bool) : ResetStep resets (updateWhere p PasswordReset.burn resets)
  | create (p : PasswordReset → Bool) (reset : PasswordReset)
      (alone : ∀ r ∈ resets, r.userId = reset.userId → r.used = false → p r = true) :
      ResetStep resets (updateWhere p PasswordReset.burn resets ++ [reset])

theorem PasswordReset.burn_burn (reset : PasswordReset) : reset.burn.burn = reset.burn := rfl

theorem PasswordReset.burn_eq_self_iff {reset : PasswordReset} :
    reset.burn = reset ↔ reset.used = true := by
  cases reset
  simp [PasswordReset.burn, eq_comm]

section

variable {resets resets' : List PasswordReset}

theorem ResetStep.same (resets : List PasswordReset) : ResetStep resets resets := by
  have h : ResetStep resets (updateWhere (fun _ => false) PasswordReset.burn resets) := .burn _
  rwa [updateWhere_false] at h

theorem ResetStep.of_eq (h : resets' = resets) : ResetStep resets resets' := h ▸ .same resets

theorem ResetStep.grows (h : ResetStep resets resets') :
    Grows PasswordReset.burn resets resets' := by
  cases h with
  | burn p => exact Grows.updateWhere _ _ _
  | create p reset => exact ⟨p, [reset], rfl⟩

/-- Burning twice is one step. -/
theorem ResetStep.of_burnt {p : PasswordReset → Bool}
    (h : ResetStep (updateWhere p PasswordReset.burn resets) resets') :
    ResetStep resets resets' := by
  cases h with
  | burn p' =>
    rw [updateWhere_updateWhere PasswordReset.burn_burn]
    exact .burn _
  | create p' reset alone =>
    rw [updateWhere_updateWhere PasswordReset.burn_burn]
    refine .create _ reset fun r hr huser hunused => ?_
    by_cases hp : p r = true
    · simp [hp]
    · have hmem : r ∈ updateWhere p PasswordReset.burn resets :=
        mem_updateWhere.2 ⟨r, hr, if_neg hp⟩
      simp [hp, alone r hmem huser hunused]

end

section

variable {τ : Type} {P : Primitives τ} {settings : IdentitySettings} {draw : Draw} {clock : Clock}
  {store : Store}

theorem createResetToken_step (userId : String) (purpose : ResetPurpose) :
    ResetStep store.passwordResets
      (createResetToken P settings draw clock store userId purpose).2.passwordResets := by
  refine ResetStep.of_burnt (p := fun r => r.used = false ∧ r.expiresAt ≤ clock.sweep) ?_
  refine .create _ _ fun r _ huser hunused => ?_
  simp [huser, hunused]

/-- The reset token that an attempt presents, once the expired ones are swept. -/
theorem resetPassword_step (token newPassword : String) :
    ResetStep store.passwordResets
      (resetPassword P draw clock store token newPassword).2.passwordResets := by
  have hswept : ResetStep store.passwordResets
      (PasswordResets.cleanupExpired store.passwordResets clock.sweep) := .burn _
  have hmarked (resetId : String) : ResetStep store.passwordResets
      (PasswordResets.markUsed (PasswordResets.cleanupExpired store.passwordResets clock.sweep)
        resetId).2 :=
    ResetStep.of_burnt (.burn fun r => r.id = resetId)
  unfold resetPassword
  dsimp only
  split
  · exact hswept
  split
  · exact hswept
  split
  · exact hmarked _
  split
  · exact hmarked _
  split
  · exact hmarked _
  split
  · exact hmarked _
  · exact ResetStep.of_burnt (ResetStep.of_burnt (.burn _))

theorem createUser_resets (name email : String) (jurisdiction : Jurisdiction) :
    ResetStep store.passwordResets
      (createUser P settings draw clock store name email jurisdiction).2.passwordResets := by
  unfold createUser createUserWithTempPassword
  split <;> rename_i heq <;> split at heq <;> cases heq
  · exact .same _
  · exact createResetToken_step _ _

theorem changeUser_resets (store : Store) (userId : String) (changes : User → User) :
    (changeUser store userId changes).2.passwordResets = store.passwordResets := by
  unfold changeUser
  split <;> rfl

/-- **What any request does to the reset tokens.** -/
theorem handle_resets (request : Request τ) :
    ResetStep store.passwordResets
      (handle P settings draw clock store request).2.passwordResets := by
  cases request with
  | forgotPassword email =>
    simp only [handle, Prod.map_snd, id_eq, requestPasswordReset]
    split
    · exact .same _
    · exact createResetToken_step _ _
  | resetPassword token newPassword => exact resetPassword_step token newPassword
  | createUser name email jurisdiction => exact createUser_resets name email jurisdiction
  | updateUser userId name => exact .of_eq (changeUser_resets store userId _)
  | updateJurisdiction userId jurisdiction => exact .of_eq (changeUser_resets store userId _)
  | updateStatus userId status admin =>
    have hset := changeUser_resets store userId fun user => { user with status }
    refine .of_eq ?_
    simp only [handle, Prod.map_snd, id_eq, updateStatus]
    split
    · rfl
    split <;> rename_i heq <;> rw [← setStatus, heq] at hset
    · exact hset
    · dsimp only
      split_ifs <;> exact hset
  | deleteUser userId admin =>
    have hset := changeUser_resets store userId fun user => { user with status := .disabled }
    refine .of_eq ?_
    simp only [handle, Prod.map_snd, id_eq, deleteUser]
    split
    · rfl
    split <;> rename_i heq <;> rw [← setStatus, heq] at hset <;> exact hset
  | login email password =>
    refine .of_eq ?_
    simp only [handle, Prod.map_snd, id_eq, login, issueTokens]
    repeat' split
    all_goals rfl
  | refresh refreshToken =>
    refine .of_eq ?_
    simp only [handle, Prod.map_snd, id_eq, refresh, issueTokens]
    repeat' split
    all_goals rfl
  | logout refreshToken =>
    refine .of_eq ?_
    simp only [handle, logout]
    repeat' split
    all_goals rfl
  | changePassword userId currentPassword newPassword refreshToken =>
    refine .of_eq ?_
    simp only [handle, Prod.map_snd, id_eq, changePassword]
    repeat' split
    all_goals rfl
  | revokeUserSessions userId =>
    refine .of_eq ?_
    simp only [handle, Prod.map_snd, id_eq, revokeUserSessions]
    split <;> rfl
  | registerPublicClient clientName redirectUris scopes resources =>
    refine .of_eq ?_
    simp only [handle, Prod.map_snd, id_eq, registerPublicClient]
    repeat' split
    all_goals rfl
  | registerConfidentialClient clientName grants scopes resources sourceAudiences =>
    refine .of_eq ?_
    simp only [handle, Prod.map_snd, id_eq, registerConfidentialClient]
    repeat' split
    all_goals rfl
  | authorize request email password =>
    refine .of_eq ?_
    simp only [handle, Prod.map_snd, id_eq, authorize]
    repeat' split
    all_goals rfl
  | exchangeAuthorizationCode request =>
    refine .of_eq ?_
    simp only [handle, Prod.map_snd, id_eq, exchangeAuthorizationCode]
    repeat' split
    all_goals rfl
  | clientCredentials clientId clientSecret scope resource => exact .same _
  | tokenExchange request => exact .same _

end

/-! ## The invariant -/

/-- Every user has one unused token at most. -/
def Superseded (resets : List PasswordReset) : Prop :=
  ∀ userId, (resets.filter fun r => r.userId = userId ∧ r.used = false).length ≤ 1

theorem Superseded.step {resets resets' : List PasswordReset} (h : Superseded resets)
    (hs : ResetStep resets resets') : Superseded resets' := by
  intro userId
  cases hs with
  | burn p =>
    refine (length_filter_updateWhere_le (fun r hr => ?_) p resets).trans (h userId)
    simp [PasswordReset.burn] at hr
  | create p reset alone =>
    rw [List.filter_append, List.length_append]
    by_cases huser : reset.userId = userId
    · -- the tokens of the user that were unused are burnt
      have hnil : (updateWhere p PasswordReset.burn resets).filter
          (fun r => r.userId = userId ∧ r.used = false) = [] := by
        refine List.filter_eq_nil_iff.2 fun r hr => ?_
        obtain ⟨old, hold, rfl⟩ := mem_updateWhere.1 hr
        by_cases hp : p old = true
        · simp [hp, PasswordReset.burn]
        · simp only [if_neg hp, decide_eq_true_eq, not_and]
          exact fun hu hunused => hp (alone old hold (hu.trans huser.symm) hunused)
      rw [hnil, List.length_nil, Nat.zero_add]
      exact List.length_filter_le _ [reset]
    · have hnew : [reset].filter (fun r => r.userId = userId ∧ r.used = false) = [] := by
        simp [huser]
      rw [hnew, List.length_nil, Nat.add_zero]
      refine (length_filter_updateWhere_le (fun r hr => ?_) p resets).trans (h userId)
      simp [PasswordReset.burn] at hr

section

variable {τ : Type} {P : Primitives τ} {settings : IdentitySettings} {draw : Draw} {clock : Clock}
  {store store' : Store} {token newPassword : String}

theorem superseded_reachable (h₀ : Superseded store.passwordResets)
    (h : (server P settings).Reachable store store') : Superseded store'.passwordResets := by
  refine h.invariant (fun s => Superseded s.passwordResets) h₀ fun s label s' hI _ hnext => ?_
  obtain ⟨-, rfl⟩ := server_next_eq_some hnext
  exact hI.step (handle_resets label.request)

/-- Reset tokens are only created and burnt, over whole runs. -/
theorem grows_resets_reachable (h : (server P settings).Reachable store store') :
    Grows PasswordReset.burn store.passwordResets store'.passwordResets := by
  refine h.invariant (fun s => Grows PasswordReset.burn store.passwordResets s.passwordResets)
    (Grows.refl _ _) fun s label s' hI _ hnext => ?_
  obtain ⟨-, rfl⟩ := server_next_eq_some hnext
  exact hI.trans PasswordReset.burn_burn (handle_resets label.request).grows

/-! ## What a reset does -/

/-- **A used token resets nothing.** -/
theorem resetPassword_of_used {reset : PasswordReset}
    (h : PasswordResets.getByTokenHash store.passwordResets (P.hashToken token) = some reset)
    (hused : reset.used = true) :
    (resetPassword P draw clock store token newPassword).1 = .error invalidResetToken := by
  have hswept : Grows PasswordReset.burn store.passwordResets
      (PasswordResets.cleanupExpired store.passwordResets clock.sweep) := Grows.updateWhere _ _ _
  have hfind : PasswordResets.getByTokenHash
      (PasswordResets.cleanupExpired store.passwordResets clock.sweep) (P.hashToken token) =
        some reset :=
    hswept.find?_of_fixed (fun _ => rfl) h (PasswordReset.burn_eq_self_iff.2 hused)
  unfold resetPassword
  dsimp only
  rw [hfind]
  simp [hused]

/-- **A reset that succeeds** found an unused and unexpired token; it burns every reset token of
the user and revokes every session of the user. -/
theorem resetPassword_eq_ok {u : Unit}
    (h : resetPassword P draw clock store token newPassword = (.ok u, store')) :
    ∃ reset, PasswordResets.getByTokenHash store.passwordResets (P.hashToken token) = some reset ∧
      reset.used = false ∧ clock.check < reset.expiresAt ∧
      GrowsMarking (fun r => r.userId = reset.userId) PasswordReset.burn store.passwordResets
        store'.passwordResets ∧
      GrowsMarking (fun a => a.userId = reset.userId) Session.revoke store.refreshSessions
        store'.refreshSessions := by
  unfold resetPassword at h
  dsimp only at h
  split at h
  · cases h
  rename_i reset hfind
  split_ifs at h with hused hexpired hmarked
  · cases h
  · cases h
  · split at h
    · cases h
    split at h <;> cases h
  split at h
  · cases h
  split at h
  · cases h
  cases h
  have hunused : reset.used = false := Bool.eq_false_iff.2 hused
  refine ⟨reset, ?_, hunused, not_le.1 hexpired, ?_, ?_⟩
  · -- the sweep leaves the row that was found alone
    unfold PasswordResets.getByTokenHash PasswordResets.cleanupExpired at hfind
    rw [find?_updateWhere (f := PasswordReset.burn) fun _ => rfl] at hfind
    obtain ⟨row, hrow, hrow'⟩ := Option.map_eq_some_iff.1 hfind
    unfold PasswordResets.getByTokenHash
    rw [hrow, ← hrow']
    split_ifs with hp
    · rw [if_pos hp] at hrow'
      rw [← hrow'] at hunused
      cases hunused
    · rfl
  · -- the sweep and the burning of the token come before the burning of the others
    have hburnt : Grows PasswordReset.burn store.passwordResets (PasswordResets.markUsed
        (PasswordResets.cleanupExpired store.passwordResets clock.sweep) reset.id).2 :=
      (Grows.updateWhere _ _ _).trans PasswordReset.burn_burn (Grows.updateWhere _ _ _)
    refine hburnt.marking PasswordReset.burn_burn fun r huser => ?_
    by_cases hr : r.used = true
    · exact .inr (PasswordReset.burn_eq_self_iff.2 hr)
    · exact .inl (by simp [huser, hr])
  · exact .of_updateWhere fun a _ huser => .inl (by simp [huser])

/-- **Reset tokens over every run of the service.**  From a store where every user has one unused
token at most, in every reachable store no user has two tokens that are unused and unexpired.
When a reset succeeds, its token never resets a password again, every session that the user had
is revoked for ever, and so is every reset token that the user had. -/
theorem password_reset_tokens {store₀ : Store} (h₀ : Superseded store₀.passwordResets)
    (h : (server P settings).Reachable store₀ store) :
    (∀ userId now, (store.passwordResets.filter fun r =>
      r.userId = userId ∧ r.used = false ∧ now < r.expiresAt).length ≤ 1) ∧
    ∀ draw clock token newPassword store₁,
      resetPassword P draw clock store token newPassword = (.ok (), store₁) →
      ∃ reset, PasswordResets.getByTokenHash store.passwordResets (P.hashToken token) = some reset ∧
        ∀ store₂, (server P settings).Reachable store₁ store₂ →
          (∀ draw clock newPassword,
            (resetPassword P draw clock store₂ token newPassword).1 = .error invalidResetToken) ∧
          GrowsMarking (fun a => a.userId = reset.userId) Session.revoke store.refreshSessions
            store₂.refreshSessions ∧
          (∀ a refreshToken draw clock,
            Sessions.getByTokenHash store.refreshSessions (P.hashToken refreshToken) = some a →
            a.userId = reset.userId →
            (refresh P settings draw clock store₂ refreshToken).1 = .error invalidRefreshSession) ∧
          GrowsMarking (fun r => r.userId = reset.userId) PasswordReset.burn store.passwordResets
            store₂.passwordResets ∧
          ∀ r token' draw clock newPassword,
            PasswordResets.getByTokenHash store.passwordResets (P.hashToken token') = some r →
            r.userId = reset.userId →
            (resetPassword P draw clock store₂ token' newPassword).1 =
              .error invalidResetToken := by
  refine ⟨fun userId now => ?_, fun draw clock token newPassword store₁ hok => ?_⟩
  · refine le_trans (List.Sublist.length_le ?_) (superseded_reachable h₀ h userId)
    refine List.monotone_filter_right _ fun r hr => ?_
    simp only [decide_eq_true_eq] at hr ⊢
    exact ⟨hr.1, hr.2.1⟩
  · obtain ⟨reset, hfind, -, -, hresets, hsessions⟩ := resetPassword_eq_ok hok
    refine ⟨reset, hfind, fun store₂ h₂ => ?_⟩
    have hresets₂ := hresets.trans PasswordReset.burn_burn (grows_resets_reachable h₂)
    have hsessions₂ := hsessions.trans Session.revoke_revoke (grows_reachable h₂)
    -- a token of the user is found burnt
    have hburnt : ∀ r token' draw clock newPassword,
        PasswordResets.getByTokenHash store.passwordResets (P.hashToken token') = some r →
        r.userId = reset.userId →
        (resetPassword P draw clock store₂ token' newPassword).1 = .error invalidResetToken := by
      intro r token' draw clock newPassword hr huser
      have hr₂ := hresets₂.find?_eq_some (fun _ => rfl) hr huser
      exact resetPassword_of_used hr₂ rfl
    refine ⟨fun draw clock newPassword => ?_, hsessions₂, ?_, hresets₂, hburnt⟩
    · exact hburnt reset token draw clock newPassword hfind rfl
    · intro a refreshToken draw clock ha huser
      have ha₂ := hsessions₂.find?_eq_some (fun _ => rfl) ha huser
      rw [refresh_of_revoked ha₂ rfl]

end

theorem password_reset_tokens_after_request :
    ∃ store, (server plainPrimitives defaultSettings).Reachable newStore store ∧
      (resetPassword plainPrimitives (namedDraw "c") (.at 120000000) store "reset-a" "new").1 =
        .ok () ∧
      (store.passwordResets.filter fun r =>
        r.userId = "user" ∧ r.used = false ∧ 120000000 < r.expiresAt).length ≤ 1 := by
  obtain ⟨store, hreach, hok⟩ := (server plainPrimitives defaultSettings).exists_reachable newStore
    [⟨.forgotPassword "ana@example.com", namedDraw "b", .at 0⟩,
      ⟨.forgotPassword "ana@example.com", namedDraw "a", .at 60000000⟩]
    (fun store => (resetPassword plainPrimitives (namedDraw "c") (.at 120000000) store "reset-a"
      "new").1 = .ok ()) (by decide)
  have h₀ : Superseded newStore.passwordResets := fun _ => Nat.zero_le _
  exact ⟨store, hreach, by simpa using hok,
    (password_reset_tokens h₀ hreach).1 "user" 120000000⟩

end Identity

end TrackFlow
