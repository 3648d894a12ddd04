import TrackFlow.Identity.Effects

/-!
# Families of refresh sessions

Every login starts a family of sessions, and every refresh replaces the session it was made with
by a new one of the same family (`SessionStep`).

* `Families` : the invariant; a family has one live session at most, and what was rotated out is
  revoked.
* `refresh_families` : **the families over every run of the service.**
-/

namespace TrackFlow

namespace Identity

/-- What the sessions of every reachable store satisfy. -/
structure Families (sessions : List Session) : Prop where
  ids : (sessions.map Session.id).Nodup
  tokenHashes : (sessions.map Session.tokenHash).Nodup
  /-- A family has one live session at most. -/
  linear : ∀ a ∈ sessions, ∀ b ∈ sessions, a.familyId = b.familyId → a.revoked = false →
    b.revoked = false → a = b
  /-- What was rotated out is a revoked session of the family. -/
  lineage : ∀ b ∈ sessions, ∀ i, b.rotatedFrom = some i →
    ∃ a ∈ sessions, a.id = i ∧ a.revoked = true ∧ a.familyId = b.familyId

section

variable {sessions sessions' : List Session}

theorem Families.nil : Families [] := ⟨by simp, by simp, by simp, by simp⟩

/-- Revoking sessions keeps the families. -/
theorem Families.updateWhere (h : Families sessions) (p : Session → Bool) :
    Families (updateWhere p Session.revoke sessions) where
  ids := by rw [map_updateWhere (f := Session.revoke) fun _ => rfl]; exact h.ids
  tokenHashes := by rw [map_updateWhere (f := Session.revoke) fun _ => rfl]; exact h.tokenHashes
  linear a ha b hb hf hla hlb :=
    h.linear a (mem_of_live ha hla).1 b (mem_of_live hb hlb).1 hf hla hlb
  lineage b hb i hi := by
    obtain ⟨r, hr, rfl⟩ := mem_updateWhere.1 hb
    have hrot : r.rotatedFrom = some i := by
      by_cases hp : p r = true <;> simpa [hp, Session.revoke] using hi
    have hfam : (if p r then r.revoke else r).familyId = r.familyId := by
      by_cases hp : p r = true <;> simp [hp, Session.revoke]
    obtain ⟨a, ha, hid, hrev, hf⟩ := h.lineage r hr i hrot
    -- the predecessor is revoked already, so it stays as it is
    have hmem := (Grows.updateWhere p Session.revoke sessions).mem_of_fixed ha
      (Session.revoke_eq_self_iff.2 hrev)
    exact ⟨a, hmem, hid, hrev, hf.trans hfam.symm⟩

/-- **A step keeps the families.** -/
theorem Families.step (h : Families sessions) (hs : SessionStep sessions sessions') :
    Families sessions' := by
  cases hs with
  | revoke p => exact h.updateWhere p
  | issue p session live fresh lineage =>
    have hu := h.updateWhere p
    have hkey {κ : Type} (key : Session → κ) (hkey : ∀ s : Session, key s.revoke = key s)
        (hnodup : (sessions.map key).Nodup) (hfresh : ∀ a ∈ sessions, key a ≠ key session) :
        ((TrackFlow.updateWhere p Session.revoke sessions ++ [session]).map key).Nodup := by
      rw [List.map_append, map_updateWhere hkey]
      refine List.Nodup.append hnodup (List.nodup_singleton _) fun k hk hk' => ?_
      obtain ⟨a, ha, rfl⟩ := List.mem_map.1 hk
      exact hfresh a ha (List.mem_singleton.1 hk')
    -- no session of the family is live besides the new one
    have halone : ∀ a ∈ TrackFlow.updateWhere p Session.revoke sessions,
        a.familyId = session.familyId → a.revoked = false → False := by
      intro a ha hf hlive
      obtain ⟨hmem, hpa⟩ := mem_of_live ha hlive
      rcases lineage with ⟨-, hnew⟩ | ⟨r, hr, hrlive, hpr, hrf, -⟩
      · exact hnew a hmem hf
      · have he : a = r := h.linear a hmem r hr (hf.trans hrf.symm) hlive hrlive
        rw [he, hpr] at hpa
        cases hpa
    refine ⟨hkey _ (fun _ => rfl) h.ids fun a ha => (fresh a ha).1,
      hkey _ (fun _ => rfl) h.tokenHashes fun a ha => (fresh a ha).2, ?_, ?_⟩
    · intro a ha b hb hf hla hlb
      rcases List.mem_append.1 ha with ha | ha <;> rcases List.mem_append.1 hb with hb | hb
      · exact hu.linear a ha b hb hf hla hlb
      · exact (halone a ha (hf.trans (congrArg _ (List.mem_singleton.1 hb))) hla).elim
      · exact (halone b hb (hf.symm.trans (congrArg _ (List.mem_singleton.1 ha))) hlb).elim
      · rw [List.mem_singleton.1 ha, List.mem_singleton.1 hb]
    · intro b hb i hi
      rcases List.mem_append.1 hb with hb | hb
      · obtain ⟨a, ha, h'⟩ := hu.lineage b hb i hi
        exact ⟨a, List.mem_append_left _ ha, h'⟩
      · cases List.mem_singleton.1 hb
        rcases lineage with ⟨hnone, -⟩ | ⟨r, hr, -, hpr, hrf, hrot⟩
        · rw [hnone] at hi
          cases hi
        · rw [hrot] at hi
          cases hi
          have hmem : r.revoke ∈ TrackFlow.updateWhere p Session.revoke sessions :=
            mem_updateWhere.2 ⟨r, hr, if_pos hpr⟩
          exact ⟨r.revoke, List.mem_append_left _ hmem, rfl, rfl, hrf⟩

/-- A lookup by token finds the session of that token. -/
theorem Families.getByTokenHash (h : Families sessions) {a : Session} (ha : a ∈ sessions) :
    Sessions.getByTokenHash sessions a.tokenHash = some a := by
  unfold Sessions.getByTokenHash
  cases hf : sessions.find? fun s => s.tokenHash = a.tokenHash with
  | none =>
    have := List.find?_eq_none.1 hf a ha
    simp at this
  | some b =>
    have hb : b.tokenHash = a.tokenHash := by simpa using List.find?_some hf
    rw [List.inj_on_of_nodup_map h.tokenHashes (List.mem_of_find?_eq_some hf) ha hb]

/-- A family has at most one live session, counted. -/
theorem Families.length_le_one (h : Families sessions) (familyId : String) :
    (sessions.filter fun s => s.familyId = familyId ∧ s.revoked = false).length ≤ 1 := by
  have hnodup : (sessions.filter fun s => s.familyId = familyId ∧ s.revoked = false).Nodup :=
    (List.Nodup.of_map _ h.ids).filter _
  have heq : ∀ a ∈ sessions.filter fun s => s.familyId = familyId ∧ s.revoked = false,
      ∀ b ∈ sessions.filter fun s => s.familyId = familyId ∧ s.revoked = false, a = b := by
    intro a ha b hb
    simp only [List.mem_filter, decide_eq_true_eq] at ha hb
    exact h.linear a ha.1 b hb.1 (ha.2.1.trans hb.2.1.symm) ha.2.2 hb.2.2
  rcases hl : sessions.filter fun s => s.familyId = familyId ∧ s.revoked = false with
    _ | ⟨a, _ | ⟨b, rest⟩⟩
  · rw [hl]
    exact Nat.zero_le _
  · rw [hl]
    exact Nat.le_refl _
  · rw [hl] at hnodup heq
    have hab : a = b := heq a List.mem_cons_self b (List.mem_cons_of_mem _ List.mem_cons_self)
    exact ((List.nodup_cons.1 hnodup).1 (hab ▸ List.mem_cons_self)).elim

end

/-! ## Runs of the service -/

section

variable {τ : Type} {P : Primitives τ} {settings : IdentitySettings} {draw : Draw} {clock : Clock}
  {store : Store}

/-- A status change that succeeds revokes the sessions of the user, unless it activates them. -/
theorem updateStatus_eq_ok {userId : String} {status : Status} {admin : User} {user : UserPublic}
    {store' : Store} (h : updateStatus store userId status admin = (.ok user, store'))
    (hstatus : status ≠ .active) :
    store'.refreshSessions = Sessions.revokeUserSessions store.refreshSessions userId none := by
  have hset := changeUser_sessions store userId fun user => { user with status }
  unfold updateStatus at h
  split at h
  · cases h
  split at h
  · cases h
  · rename_i heq
    rw [← setStatus, heq] at hset
    rw [if_pos hstatus] at h
    cases h
    rw [revokeAllForUser, hset]

theorem families_reachable {store₀ : Store} (h₀ : Families store₀.refreshSessions)
    (h : (server P settings).Reachable store₀ store) : Families store.refreshSessions := by
  refine h.invariant (fun s => Families s.refreshSessions) h₀ fun s label s' hI _ hnext => ?_
  obtain ⟨hfresh, rfl⟩ := server_next_eq_some hnext
  exact hI.step (handle_effect _ _ hfresh label.request).sessions

/-- Sessions are only inserted and revoked, over whole runs. -/
theorem grows_reachable {store₀ : Store} (h : (server P settings).Reachable store₀ store) :
    Grows Session.revoke store₀.refreshSessions store.refreshSessions := by
  refine h.invariant (fun s => Grows Session.revoke store₀.refreshSessions s.refreshSessions)
    (Grows.refl _ _) fun s label s' hI _ hnext => ?_
  obtain ⟨hfresh, rfl⟩ := server_next_eq_some hnext
  exact hI.trans Session.revoke_revoke (handle_effect _ _ hfresh label.request).sessions.grows

/-- **A revoked token mints nothing**, and presenting it revokes its whole family. -/
theorem refresh_of_revoked {a : Session} {refreshToken : String}
    (ha : Sessions.getByTokenHash store.refreshSessions (P.hashToken refreshToken) = some a)
    (hrevoked : a.revoked = true) :
    refresh P settings draw clock store refreshToken =
      (.error invalidRefreshSession,
        { store with
          refreshSessions := Sessions.revokeFamily
            (Sessions.cleanupExpired store.refreshSessions clock.sweep) a.familyId }) := by
  have hswept : Grows Session.revoke store.refreshSessions
      (Sessions.cleanupExpired store.refreshSessions clock.sweep) := Grows.updateWhere _ _ _
  have hfind : Sessions.getByTokenHash (Sessions.cleanupExpired store.refreshSessions clock.sweep)
      (P.hashToken refreshToken) = some a :=
    hswept.find?_of_fixed (fun _ => rfl) ha (Session.revoke_eq_self_iff.2 hrevoked)
  unfold refresh
  dsimp only
  rw [hfind]
  simp [hrevoked]

theorem revoked_of_mem_revokeFamily {sessions : List Session} {familyId : String} {c : Session}
    (hc : c ∈ Sessions.revokeFamily sessions familyId) (hf : c.familyId = familyId) :
    c.revoked = true := by
  obtain ⟨r, -, rfl⟩ := mem_updateWhere.1 hc
  by_cases hr : r.familyId = familyId
  · simp [hr, Session.revoke]
  · simp only [hr, decide_false, Bool.false_eq_true, if_false] at hf

/-- **Refresh-token families**, over every run that starts without sessions.  A family has one
live session at most; a revoked session stays as it is; a token that was rotated out mints
nothing and takes its family with it; and once its user was suspended or disabled, no earlier
session mints again, whatever happens to the user afterwards. -/
theorem refresh_families {store₀ : Store} (h₀ : store₀.refreshSessions = [])
    (h : (server P settings).Reachable store₀ store) :
    (∀ familyId, (store.refreshSessions.filter fun s =>
      s.familyId = familyId ∧ s.revoked = false).length ≤ 1) ∧
    (∀ store', (server P settings).Reachable store store' →
      ∀ a ∈ store.refreshSessions, a.revoked = true →
        a ∈ store'.refreshSessions ∧ ∀ b ∈ store'.refreshSessions, b.id = a.id → b = a) ∧
    (∀ a ∈ store.refreshSessions, ∀ b ∈ store.refreshSessions, b.rotatedFrom = some a.id →
      ∀ draw clock refreshToken, P.hashToken refreshToken = a.tokenHash →
        ∃ store', refresh P settings draw clock store refreshToken =
            (.error invalidRefreshSession, store') ∧
          ∀ c ∈ store'.refreshSessions, c.familyId = a.familyId → c.revoked = true) ∧
    (∀ userId status admin user store₁, status ≠ .active →
      updateStatus store userId status admin = (.ok user, store₁) →
        ∀ store₂, (server P settings).Reachable store₁ store₂ →
          ∀ a ∈ store.refreshSessions, a.userId = userId →
            ∀ draw clock refreshToken, P.hashToken refreshToken = a.tokenHash →
              (refresh P settings draw clock store₂ refreshToken).1 =
                .error invalidRefreshSession) := by
  have hfam : Families store.refreshSessions := families_reachable (h₀ ▸ .nil) h
  refine ⟨hfam.length_le_one, ?_, ?_, ?_⟩
  · intro store' h' a ha hrevoked
    have hmem := (grows_reachable h').mem_of_fixed ha (Session.revoke_eq_self_iff.2 hrevoked)
    refine ⟨hmem, fun b hb hid => ?_⟩
    exact List.inj_on_of_nodup_map (families_reachable hfam h').ids hb hmem hid
  · intro a ha b hb hrot draw clock refreshToken htoken
    obtain ⟨a', ha', hid, hrevoked, -⟩ := hfam.lineage b hb a.id hrot
    cases List.inj_on_of_nodup_map hfam.ids ha' ha hid
    refine ⟨_, refresh_of_revoked (htoken ▸ hfam.getByTokenHash ha) hrevoked, ?_⟩
    exact fun c hc hf => revoked_of_mem_revokeFamily hc hf
  · intro userId status admin user store₁ hstatus hok store₂ h₂ a ha huser draw clock refreshToken
      htoken
    -- the session is revoked when the status changes, and for ever after
    have hrevoke := updateStatus_eq_ok hok hstatus
    have hsus : Sessions.getByTokenHash store₁.refreshSessions (P.hashToken refreshToken) =
        some a.revoke := by
      have hg : Grows Session.revoke store.refreshSessions store₁.refreshSessions :=
        hrevoke ▸ Grows.updateWhere _ _ _
      have hmem : a.revoke ∈ store₁.refreshSessions := by
        rw [hrevoke]
        exact mem_updateWhere.2 ⟨a, ha, if_pos (by simp [huser])⟩
      have h₁ : Families store₁.refreshSessions := hrevoke ▸ hfam.updateWhere _
      have hlookup := h₁.getByTokenHash hmem
      rw [htoken]
      exact hlookup
    have hlater : Sessions.getByTokenHash store₂.refreshSessions (P.hashToken refreshToken) =
        some a.revoke :=
      (grows_reachable h₂).find?_of_fixed (fun _ => rfl) hsus rfl
    rw [refresh_of_revoked hlater rfl]

end

theorem refresh_families_after_rotation :
    ∃ store, (server plainPrimitives defaultSettings).Reachable newStore store ∧
      store.refreshSessions.length = 2 ∧
      (store.refreshSessions.filter fun s =>
        s.familyId = "family-a" ∧ s.revoked = false).length ≤ 1 := by
  obtain ⟨store, hreach, hlen⟩ := (server plainPrimitives defaultSettings).exists_reachable newStore
    [⟨.login "ana@example.com" "pw", namedDraw "a", .at 0⟩,
      ⟨.refresh "refresh-a", namedDraw "b", .at 60000000⟩]
    (fun store => store.refreshSessions.length = 2) (by decide)
  exact ⟨store, hreach, by simpa using hlen, (refresh_families rfl hreach).1 "family-a"⟩

end Identity

end TrackFlow
