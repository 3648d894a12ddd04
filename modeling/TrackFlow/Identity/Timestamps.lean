import TrackFlow.Identity.OAuth
import TrackFlow.Time.Isoformat

/-!
# Stored timestamps

A document holds the text of a `datetime` as its expiry, and `cleanup_expired` and
`exchange_authorization_code` compare this text with the one of the current time.  The other modules
have numbers in place of the texts.

* `Document` : a row, with the text that is stored for its expiry.
* `Document.isExpired` : the comparison of texts; `Stored.cleanupExpired`, `Stored.redeem` : the
  operations that make it.
* `Document.Represents` : the text is the one of the number; `Stored.Written.represents` : it is so
  in every table of a run.
* `timestamps_chronological` : **texts compare as times do**, so that the operations on texts are
  the ones on numbers.
-/

namespace TrackFlow

namespace Identity

open Datetime

/-- A row, and what its document holds under `expires_at`. -/
structure Document (ρ : Type) where
  row : ρ
  expiresAt : Option (List Char)

namespace Document

variable {ρ : Type}

/-- `str(record.get("expires_at", "")) <= now_utc().isoformat()`. -/
def isExpired (doc : Document ρ) (now : Datetime) : Bool :=
  doc.expiresAt.getD [] ≤ now.isoformat

/-- The text is the one of the number that the row has. -/
def Represents (expiresAt : ρ → ℕ) (doc : Document ρ) : Prop :=
  ∃ d, fromtimestamp (expiresAt doc.row) = some d ∧ doc.expiresAt = some d.isoformat

/-- The comparison of texts is the one of numbers. -/
theorem Represents.isExpired_iff {expiresAt : ρ → ℕ} {doc : Document ρ} {now : Datetime} {t : ℕ}
    (h : doc.Represents expiresAt) (hnow : fromtimestamp t = some now) :
    doc.isExpired now = true ↔ expiresAt doc.row ≤ t := by
  obtain ⟨d, hd, htext⟩ := h
  rw [isExpired, htext, decide_eq_true_eq]
  exact isoformat_le_iff_of_fromtimestamp hd hnow

end Document

/-- `(now_utc() + timedelta(...)).isoformat()`; `none` if it raises. -/
def expiryText (issue : Datetime) (lifetime : ℕ) : Option (List Char) :=
  (issue.add lifetime).map isoformat

/-- What is written for a row represents it. -/
theorem represents_of_expiryText {ρ : Type} {expiresAt : ρ → ℕ} {row : ρ} {issue : Datetime}
    {text : List Char} {t lifetime : ℕ} (hrow : expiresAt row = t + lifetime)
    (hissue : fromtimestamp t = some issue) (htext : expiryText issue lifetime = some text) :
    (⟨row, some text⟩ : Document ρ).Represents expiresAt := by
  obtain ⟨d, hd, rfl⟩ := Option.map_eq_some_iff.1 htext
  rw [add_of_fromtimestamp hissue, ← hrow] at hd
  exact ⟨d, hd, rfl⟩

/-- The rows of a table. -/
def rows {ρ : Type} (table : List (Document ρ)) : List ρ := table.map Document.row

namespace Stored

/-! ## Sweeping -/

section

variable {ρ : Type} (marked : ρ → Bool) (mark : ρ → ρ)

/-- `cleanup_expired`; the clock is read once for each document. -/
def cleanupExpired (table : List (Document ρ)) (now : Document ρ → Datetime) :
    List (Document ρ) :=
  updateWhere (fun doc => marked doc.row = false ∧ doc.isExpired (now doc) = true)
    (fun doc => { doc with row := mark doc.row }) table

variable {marked mark} {expiresAt : ρ → ℕ} {table : List (Document ρ)}

/-- The rows of the table that is swept are the rows, swept at the same times. -/
theorem rows_cleanupExpired {now : Document ρ → Datetime} {t : ρ → ℕ}
    (h : ∀ doc ∈ table, doc.Represents expiresAt)
    (hnow : ∀ doc ∈ table, fromtimestamp (t doc.row) = some (now doc)) :
    rows (cleanupExpired marked mark table now) =
      updateWhere (fun r => marked r = false ∧ expiresAt r ≤ t r) mark (rows table) := by
  unfold rows cleanupExpired updateWhere
  rw [List.map_map, List.map_map]
  refine List.map_congr_left fun doc hdoc => ?_
  have hexpired := (h doc hdoc).isExpired_iff (hnow doc hdoc)
  simp only [Function.comp_apply, hexpired]
  split_ifs <;> rfl

/-- The tables of a repository: rows are created, and sets of rows are marked. -/
inductive Written (mark : ρ → ρ) (expiresAt : ρ → ℕ) : List (Document ρ) → Prop
  | empty : Written mark expiresAt []
  | create {table : List (Document ρ)} {row : ρ} {issue : Datetime} {text : List Char}
    {t lifetime : ℕ} (h : Written mark expiresAt table) (hrow : expiresAt row = t + lifetime)
    (hissue : fromtimestamp t = some issue) (htext : expiryText issue lifetime = some text) :
    Written mark expiresAt (table ++ [⟨row, some text⟩])
  | update {table : List (Document ρ)} (h : Written mark expiresAt table)
    (p : Document ρ → Bool) :
    Written mark expiresAt (updateWhere p (fun doc => { doc with row := mark doc.row }) table)

/-- Sweeping marks a set of rows. -/
theorem Written.cleanupExpired (h : Written mark expiresAt table) (now : Document ρ → Datetime) :
    Written mark expiresAt (Stored.cleanupExpired marked mark table now) := h.update _

/-- The documents of a table represent their rows, whatever has happened to them. -/
theorem Written.represents (hmark : ∀ r, expiresAt (mark r) = expiresAt r)
    (h : Written mark expiresAt table) : ∀ doc ∈ table, doc.Represents expiresAt := by
  induction h with
  | empty => exact fun doc hdoc => absurd hdoc List.not_mem_nil
  | create _ hrow hissue htext ih =>
    intro doc hdoc
    rcases List.mem_append.1 hdoc with hdoc | hdoc
    · exact ih doc hdoc
    · rw [List.mem_singleton.1 hdoc]
      exact represents_of_expiryText hrow hissue htext
  | update _ p ih =>
    intro doc hdoc
    obtain ⟨doc', hdoc', rfl⟩ := mem_updateWhere.1 hdoc
    split_ifs
    · obtain ⟨d, hd, htext⟩ := ih doc' hdoc'
      exact ⟨d, (congrArg _ (hmark doc'.row)).trans hd, htext⟩
    · exact ih doc' hdoc'

/-- In every table, sweeping documents by their texts is sweeping rows by their numbers. -/
theorem Written.rows_cleanupExpired {now : Datetime} {t : ℕ}
    (hmark : ∀ r, expiresAt (mark r) = expiresAt r) (h : Written mark expiresAt table)
    (hnow : fromtimestamp t = some now) :
    rows (Stored.cleanupExpired marked mark table fun _ => now) =
      updateWhere (fun r => marked r = false ∧ expiresAt r ≤ t) mark (rows table) :=
  Stored.rows_cleanupExpired (h.represents hmark) fun _ _ => hnow

end

/-- `TinyDBSessionRepository.cleanup_expired`. -/
def Sessions.cleanupExpired : List (Document Session) → (Document Session → Datetime) →
    List (Document Session) :=
  Stored.cleanupExpired Session.revoked Session.revoke

/-- `TinyDBPasswordResetRepository.cleanup_expired`. -/
def PasswordResets.cleanupExpired : List (Document PasswordReset) →
    (Document PasswordReset → Datetime) → List (Document PasswordReset) :=
  Stored.cleanupExpired PasswordReset.used PasswordReset.burn

/-- `TinyDBOAuthCodeRepository.cleanup_expired`. -/
def OAuthCodes.cleanupExpired : List (Document AuthorizationCode) →
    (Document AuthorizationCode → Datetime) → List (Document AuthorizationCode) :=
  Stored.cleanupExpired AuthorizationCode.used AuthorizationCode.burn

/-! ## Redemption -/

section

variable {τ : Type} (P : Primitives τ) (settings : IdentitySettings) (draw : Draw) (clock : Clock)

/-- `exchange_authorization_code` after the code was looked up and burnt, at a time. -/
def redeem (request : RedemptionRequest) (client : OAuthClient)
    (found : Option (Document AuthorizationCode)) (now : Datetime) :
    Except OAuthError (OAuthToken τ) :=
  match found with
  | none => .error invalidCode
  | some doc => do
    raiseIf (doc.isExpired now = true) invalidCode
    raiseIf (doc.row.clientId ≠ request.clientId ∨ doc.row.redirectUri ≠ request.redirectUri)
      invalidCode
    raiseIf (isPkceValue request.codeVerifier = false ∨
      P.pkceChallenge request.codeVerifier ≠ doc.row.codeChallenge) pkceFailed
    requireClientScopes client (scopes doc.row.scope)
    return issue P settings draw clock doc.row.userId request.clientId (scopes doc.row.scope)
      doc.row.resource doc.row.role none doc.row.jurisdiction

theorem redeem_eq {request : RedemptionRequest} {client : OAuthClient}
    {found : Option (Document AuthorizationCode)} {now : Datetime}
    (h : ∀ doc ∈ found, doc.Represents AuthorizationCode.expiresAt)
    (hnow : fromtimestamp clock.check = some now) :
    redeem P settings draw clock request client found now =
      Identity.redeem P settings draw clock request client (found.map Document.row) := by
  cases found with
  | none => rfl
  | some doc =>
    have hexpired := (h doc rfl).isExpired_iff hnow
    simp only [redeem, Identity.redeem, Option.map_some, hexpired]

end

end Stored

/-! ## The order of the texts -/

/-- **Stored timestamps compare chronologically.**  Texts are in the order of their times, whether
or not they have a fraction; and the operations that compare texts do what they do with the times
themselves. -/
theorem timestamps_chronological :
    (∀ a b : Datetime, (a.isoformat < b.isoformat ↔ a.instant < b.instant) ∧
      (a.isoformat ≤ b.isoformat ↔ a.instant ≤ b.instant)) ∧
    ∀ (t : ℕ) (now : Datetime), fromtimestamp t = some now →
      (∀ table, (∀ doc ∈ table, doc.Represents Session.expiresAt) →
        rows (Stored.Sessions.cleanupExpired table fun _ => now) =
          Sessions.cleanupExpired (rows table) t) ∧
      (∀ table, (∀ doc ∈ table, doc.Represents PasswordReset.expiresAt) →
        rows (Stored.PasswordResets.cleanupExpired table fun _ => now) =
          PasswordResets.cleanupExpired (rows table) t) ∧
      (∀ table, (∀ doc ∈ table, doc.Represents AuthorizationCode.expiresAt) →
        rows (Stored.OAuthCodes.cleanupExpired table fun _ => now) =
          OAuthCodes.cleanupExpired (rows table) t) ∧
      ∀ (τ : Type) (P : Primitives τ) (settings : IdentitySettings) (draw : Draw) (clock : Clock)
        (request : RedemptionRequest) (client : OAuthClient)
        (found : Option (Document AuthorizationCode)), clock.check = t →
        (∀ doc ∈ found, doc.Represents AuthorizationCode.expiresAt) →
        Stored.redeem P settings draw clock request client found now =
          redeem P settings draw clock request client (found.map Document.row) := by
  refine ⟨fun a b => ⟨isoformat_lt_iff a b, isoformat_le_iff a b⟩, fun t now hnow => ?_⟩
  refine ⟨fun table h => ?_, fun table h => ?_, fun table h => ?_, ?_⟩
  · exact Stored.rows_cleanupExpired h fun _ _ => hnow
  · exact Stored.rows_cleanupExpired h fun _ _ => hnow
  · exact Stored.rows_cleanupExpired h fun _ _ => hnow
  · rintro τ P settings draw clock request client found rfl h
    exact Stored.redeem_eq P settings draw clock h hnow

/-- Some microseconds after the beginning of a year. -/
def newYear (microsecond : ℕ) (h : microsecond < 1000000) : Datetime where
  year := 2026
  month := 1
  day := 1
  year_mem := by decide
  month_mem := by decide
  day_mem := by decide
  hour := 0
  minute := 0
  second := 0
  microsecond := microsecond
  hour_lt := by decide
  minute_lt := by decide
  second_lt := by decide
  microsecond_lt := h

/-- A session that expires with the year. -/
def lastSession : Session :=
  ⟨"session", "user", "digest", "family", 1767225600000000, false, none⟩

theorem timestamps_chronological_fraction :
    rows (Stored.Sessions.cleanupExpired
        [⟨lastSession, some "2026-01-01T00:00:00+00:00".toList⟩] fun _ => newYear 1 (by decide)) =
      [lastSession.revoke] := by
  refine (timestamps_chronological.2 1767225600000001 (newYear 1 (by decide))
    (by decide +kernel)).1 _ fun doc hdoc => ?_
  rw [List.mem_singleton.1 hdoc]
  exact ⟨newYear 0 (by decide), by decide +kernel, by decide +kernel⟩

end Identity

end TrackFlow
