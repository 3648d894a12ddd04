import Mathlib.Algebra.Order.Ring.Rat
import Mathlib.Data.Finset.Card
import Mathlib.Data.List.TakeWhile
import TrackFlow.LTS.Machine

/-!
# Admission of public support requests

`SupportAdmission` counts the answer runs under way, the admissions of the last minute and those of
the day; the endpoint takes its capacity in the coroutine of a request and gives it back in the
worker thread, which outlives timeouts and disconnects.  The clock readings are of any ordered type
with a subtraction that respects the order, as that of floating-point numbers does.

* `SupportAdmission.acquire` : the check and the count, under the lock.
* `next` : the steps of the requests and of their workers.
* `Sound` : the invariant; what leaves the deque is too old for every window to come.
* `support_admission` : **the limits hold, and a refused request counts nothing.**
* `refused_resets_daily_count` : but it may be the first to notice that a new day has begun.
-/

namespace TrackFlow

namespace PublicSupport

/-! ## The counters -/

/-- The state of `SupportAdmission`. -/
structure SupportAdmission (τ δ : Type*) where
  active : ℤ
  minute : List τ
  day : δ
  dailyCount : ℕ
  deriving DecidableEq, Repr

/-- An admission, with its clock readings. -/
structure Admitted (τ δ : Type*) where
  now : τ
  day : δ
  deriving DecidableEq, Repr

/-- The admission is in the minute that ends at `t`. -/
def Within {τ δ : Type*} [LinearOrder τ] [Sub τ] [OfNat τ 60] (t : τ) (a : Admitted τ δ) : Prop :=
  t - 60 < a.now ∧ a.now ≤ t

instance {τ δ : Type*} [LinearOrder τ] [Sub τ] [OfNat τ 60] (t : τ) (a : Admitted τ δ) :
    Decidable (Within t a) := inferInstanceAs (Decidable (_ ∧ _))

variable {ι τ δ : Type*}

/-- `append` of a deque of at most thirty entries. -/
def append (minute : List τ) (now : τ) : List τ :=
  (minute ++ [now]).drop ((minute ++ [now]).length - 30)

/-- A limit is reached. -/
def SupportAdmission.Full (a : SupportAdmission τ δ) : Prop :=
  2 ≤ a.active ∨ 30 ≤ a.minute.length ∨ 200 ≤ a.dailyCount

instance (a : SupportAdmission τ δ) : Decidable a.Full :=
  inferInstanceAs (Decidable (_ ∨ _ ∨ _))

/-- The admission is counted. -/
def SupportAdmission.count (a : SupportAdmission τ δ) (now : τ) : SupportAdmission τ δ :=
  { a with
    active := a.active + 1
    dailyCount := a.dailyCount + 1
    minute := append a.minute now }

/-- `release`. -/
def SupportAdmission.release (a : SupportAdmission τ δ) : SupportAdmission τ δ :=
  { a with active := a.active - 1 }

variable [LinearOrder τ] [Sub τ] [OfNat τ 60] [LinearOrder δ]

/-- What `acquire` brings up to date before it decides: a new day, and the last minute. -/
def SupportAdmission.prune (a : SupportAdmission τ δ) (now : τ) (day : δ) : SupportAdmission τ δ :=
  let a := if day ≠ a.day then { a with day := day, dailyCount := 0 } else a
  { a with minute := a.minute.dropWhile (· ≤ now - 60) }

/-- `acquire`, and whether it has raised `AdmissionLimit`. -/
def SupportAdmission.acquire (a : SupportAdmission τ δ) (now : τ) (day : δ) :
    SupportAdmission τ δ × Bool :=
  let a := a.prune now day
  if a.Full then (a, true) else (a.count now, false)

/-! ## The endpoint -/

/-- The coroutine of a request. -/
inductive Handler
  | new
  /-- It waits for its worker. -/
  | awaiting
  /-- 429. -/
  | refused
  | answered
  /-- 503. -/
  | failed
  /-- 504. -/
  | timedOut
  /-- The client has disconnected. -/
  | gone
  deriving DecidableEq, Repr

/-- The answer run of a request. -/
inductive Worker
  | none
  | created
  | running
  | ended (ok : Bool)
  deriving DecidableEq, Repr

/-- A request. -/
structure Request where
  handler : Handler := .new
  worker : Worker := .none
  deriving DecidableEq, Repr

/-- The request has been admitted, and its answer run has not ended. -/
def Request.UnderWay (request : Request) : Prop :=
  request.worker = .created ∨ request.worker = .running

/-- The process: its counters, its requests, the admissions so far, and the last reading of the
monotonic clock. -/
structure State (ι τ δ : Type*) where
  admission : SupportAdmission τ δ
  request : ι → Request
  log : List (Admitted τ δ)
  clock : τ

/-- What happens next. -/
inductive Label (ι τ δ : Type*)
  | acquire (i : ι) (now : τ) (day : δ)
  /-- The worker begins. -/
  | start (i : ι)
  /-- The worker returns or raises, and releases what it has held. -/
  | finish (i : ι) (ok : Bool)
  /-- The request hears of its worker. -/
  | deliver (i : ι)
  | timeout (i : ι)
  | disconnect (i : ι)

variable [DecidableEq ι]

/-- A request changes. -/
def State.setRequest (s : State ι τ δ) (i : ι) (request : Request) : State ι τ δ :=
  { s with request := Function.update s.request i request }

/-- The state after a step. -/
def next (s : State ι τ δ) : Label ι τ δ → Option (State ι τ δ)
  | .acquire i now day =>
    if (s.request i).handler = .new then
      match s.admission.acquire now day with
      | (admission, false) => some { (s.setRequest i ⟨.awaiting, .created⟩) with
          admission := admission
          log := s.log ++ [⟨now, day⟩]
          clock := now }
      | (admission, true) => some { (s.setRequest i ⟨.refused, .none⟩) with
          admission := admission
          clock := now }
    else none
  | .start i =>
    if (s.request i).worker = .created then
      some (s.setRequest i { s.request i with worker := .running })
    else none
  | .finish i ok =>
    if (s.request i).worker = .running then
      some { (s.setRequest i { s.request i with worker := .ended ok }) with
        admission := s.admission.release }
    else none
  | .deliver i =>
    match s.request i with
    | ⟨.awaiting, .ended ok⟩ =>
      some (s.setRequest i ⟨if ok then .answered else .failed, .ended ok⟩)
    | _ => none
  | .timeout i =>
    if (s.request i).handler = .awaiting then
      some (s.setRequest i { s.request i with handler := .timedOut })
    else none
  | .disconnect i =>
    if (s.request i).handler = .new ∨ (s.request i).handler = .awaiting then
      some (s.setRequest i { s.request i with handler := .gone })
    else none

variable (ι τ δ) in
/-- The endpoint as a machine. -/
def machine : Machine (State ι τ δ) (Label ι τ δ) := ⟨next⟩

/-- The clocks do not go back. -/
def Forward (s : State ι τ δ) : Label ι τ δ → Prop
  | .acquire _ now day => s.clock ≤ now ∧ s.admission.day ≤ day
  | _ => True

instance (s : State ι τ δ) : (l : Label ι τ δ) → Decidable (Forward s l)
  | .acquire _ now day => inferInstanceAs (Decidable (s.clock ≤ now ∧ s.admission.day ≤ day))
  | .start _ | .finish _ _ | .deliver _ | .timeout _ | .disconnect _ => .isTrue trivial

/-- The process at its start. -/
def start (ι : Type*) (clock : τ) (day : δ) : State ι τ δ where
  admission := ⟨0, [], day, 0⟩
  request _ := {}
  log := []
  clock := clock

/-! ## Answer runs under way -/

/-- There are `n` answer runs under way. -/
def Counts (request : ι → Request) (n : ℤ) : Prop :=
  ∃ running : Finset ι, (∀ j, j ∈ running ↔ (request j).UnderWay) ∧ n = running.card

section

variable {request : ι → Request} {n : ℤ} {i : ι} {r : Request}

theorem Counts.update_same (h : Counts request n) (hr : r.UnderWay ↔ (request i).UnderWay) :
    Counts (Function.update request i r) n := by
  obtain ⟨running, hmem, hcard⟩ := h
  refine ⟨running, fun j => ?_, hcard⟩
  rw [hmem]
  by_cases hj : j = i
  · rw [hj, Function.update_self, hr]
  · rw [Function.update_of_ne hj]

theorem Counts.update_begin (h : Counts request n) (hi : ¬(request i).UnderWay)
    (hr : r.UnderWay) : Counts (Function.update request i r) (n + 1) := by
  obtain ⟨running, hmem, rfl⟩ := h
  have hfresh : i ∉ running := fun hin => hi ((hmem i).1 hin)
  refine ⟨insert i running, fun j => ?_, ?_⟩
  · rw [Finset.mem_insert, hmem]
    by_cases hj : j = i
    · rw [hj, Function.update_self]
      exact iff_of_true (.inl rfl) hr
    · rw [Function.update_of_ne hj, or_iff_right hj]
  · rw [Finset.card_insert_of_notMem hfresh, Nat.cast_succ]

theorem Counts.update_end (h : Counts request n) (hi : (request i).UnderWay)
    (hr : ¬r.UnderWay) : Counts (Function.update request i r) (n - 1) := by
  obtain ⟨running, hmem, rfl⟩ := h
  have hin : i ∈ running := (hmem i).2 hi
  refine ⟨running.erase i, fun j => ?_, ?_⟩
  · rw [Finset.mem_erase, hmem]
    by_cases hj : j = i
    · rw [hj, Function.update_self]
      exact iff_of_false (fun hand => hand.1 rfl) hr
    · rw [Function.update_of_ne hj, and_iff_right hj]
  · rw [← Finset.card_erase_add_one hin, Nat.cast_succ, add_sub_cancel_right]

end

/-! ## The last minute -/

section

variable {minute expired : List τ} {log : List (Admitted τ δ)} {now : τ} {day : δ}

omit [LinearOrder τ] [Sub τ] [OfNat τ 60] in
theorem append_of_length_lt (h : minute.length < 30) : append minute now = minute ++ [now] := by
  have hlength : (minute ++ [now]).length - 30 = 0 := by
    rw [List.length_append, List.length_singleton]
    omega
  rw [append, hlength, List.drop_zero]

omit [LinearOrder δ] in
/-- **One more admission, if the deque has room for it.**  An earlier window does not contain it;
a later one contains nothing that the deque has dropped. -/
theorem countP_within_append (hsub : Monotone fun t : τ => t - 60)
    (hlog : log.map Admitted.now = expired ++ minute) (hexpired : ∀ t ∈ expired, t ≤ now - 60)
    (hroom : minute.length < 30) (hold : ∀ t, log.countP (Within t ·) ≤ 30) (t : τ) :
    (log ++ [(⟨now, day⟩ : Admitted τ δ)]).countP (Within t ·) ≤ 30 := by
  rw [List.countP_append]
  rcases lt_or_ge t now with hlt | hge
  · have hlater : [(⟨now, day⟩ : Admitted τ δ)].countP (Within t ·) = 0 := by
      rw [List.countP_eq_zero]
      intro a ha hwithin
      rw [List.mem_singleton.1 ha] at hwithin
      exact absurd (of_decide_eq_true hwithin).2 (not_le_of_gt hlt)
    rw [hlater]
    exact hold t
  · have hmap : log.countP (Within t ·) =
        (log.map Admitted.now).countP (fun x => decide (t - 60 < x ∧ x ≤ t)) := by
      rw [List.countP_map]
      rfl
    have hnone : expired.countP (fun x => decide (t - 60 < x ∧ x ≤ t)) = 0 := by
      rw [List.countP_eq_zero]
      intro x hx hwithin
      have hbefore : x ≤ t - 60 := (hexpired x hx).trans (hsub hge)
      exact absurd (of_decide_eq_true hwithin).1 (not_lt_of_ge hbefore)
    have hkept := List.countP_le_length (p := fun x => decide (t - 60 < x ∧ x ≤ t)) (l := minute)
    have hone := List.countP_le_length (p := fun a : Admitted τ δ => decide (Within t a))
      (l := [⟨now, day⟩])
    rw [List.length_singleton] at hone
    rw [hmap, hlog, List.countP_append, hnone]
    omega

/-- What the counters say of the admissions so far. -/
structure Recorded (log : List (Admitted τ δ)) (a : SupportAdmission τ δ) (clock : τ) : Prop where
  /-- What has left the deque is more than a minute old. -/
  minute : ∃ expired, log.map Admitted.now = expired ++ a.minute ∧ ∀ t ∈ expired, t ≤ clock - 60
  within : ∀ t, log.countP (Within t ·) ≤ 30
  days : ∀ entry ∈ log, entry.day ≤ a.day
  daily : log.countP (·.day = a.day) = a.dailyCount
  day_le : ∀ d, log.countP (·.day = d) ≤ 200

variable {a : SupportAdmission τ δ} {clock : τ}

theorem day_prune (a : SupportAdmission τ δ) (now : τ) (day : δ) : (a.prune now day).day = day := by
  unfold SupportAdmission.prune
  split_ifs with h
  · rfl
  · exact (not_not.1 h).symm

theorem active_prune (a : SupportAdmission τ δ) (now : τ) (day : δ) :
    (a.prune now day).active = a.active := by
  unfold SupportAdmission.prune
  split_ifs <;> rfl

theorem minute_prune (a : SupportAdmission τ δ) (now : τ) (day : δ) :
    (a.prune now day).minute = a.minute.dropWhile (· ≤ now - 60) := by
  unfold SupportAdmission.prune
  split_ifs <;> rfl

theorem dailyCount_prune (a : SupportAdmission τ δ) (now : τ) (day : δ) :
    (a.prune now day).dailyCount = if day = a.day then a.dailyCount else 0 := by
  unfold SupportAdmission.prune
  by_cases h : day = a.day <;> simp [h]

theorem Recorded.prune (h : Recorded log a clock) (hsub : Monotone fun t : τ => t - 60)
    (hclock : clock ≤ now) (hday : a.day ≤ day) : Recorded log (a.prune now day) now := by
  obtain ⟨expired, hlog, hexpired⟩ := h.minute
  refine ⟨⟨expired ++ a.minute.takeWhile (· ≤ now - 60), ?_, fun t ht => ?_⟩, h.within,
    fun entry hentry => ?_, ?_, h.day_le⟩
  · rw [minute_prune, List.append_assoc, List.takeWhile_append_dropWhile, hlog]
  · rcases List.mem_append.1 ht with ht | ht
    · exact (hexpired t ht).trans (hsub hclock)
    · have hold := List.mem_takeWhile_imp ht
      exact of_decide_eq_true hold
  · rw [day_prune]
    exact (h.days entry hentry).trans hday
  · rw [day_prune, dailyCount_prune]
    split_ifs with hsame
    · rw [hsame]
      exact h.daily
    · -- the new day has no admissions yet
      rw [List.countP_eq_zero]
      intro entry hentry he
      have hbefore := h.days entry hentry
      rw [of_decide_eq_true he] at hbefore
      exact hsame (le_antisymm hbefore hday)

theorem Recorded.count (h : Recorded log a now) (hsub : Monotone fun t : τ => t - 60)
    (hfull : ¬a.Full) : Recorded (log ++ [⟨now, a.day⟩]) (a.count now) now := by
  obtain ⟨-, hfull⟩ := not_or.1 hfull
  obtain ⟨hroom, hdaily⟩ := not_or.1 hfull
  obtain ⟨expired, hlog, hexpired⟩ := h.minute
  have hcount (d : δ) : (log ++ [(⟨now, a.day⟩ : Admitted τ δ)]).countP (·.day = d) =
      log.countP (·.day = d) + if a.day = d then 1 else 0 := by
    rw [List.countP_append, List.countP_singleton]
    simp only [decide_eq_true_eq]
  refine ⟨⟨expired, ?_, hexpired⟩,
    countP_within_append hsub hlog hexpired (Nat.lt_of_not_le hroom) h.within,
    fun entry hentry => ?_, ?_, fun d => ?_⟩
  · have hminute : (a.count now).minute = a.minute ++ [now] :=
      append_of_length_lt (Nat.lt_of_not_le hroom)
    rw [List.map_append, hlog, hminute, List.append_assoc]
    rfl
  · rcases List.mem_append.1 hentry with hentry | hentry
    · exact h.days entry hentry
    · rw [List.mem_singleton.1 hentry]
      exact le_rfl
  · have hday : (a.count now).day = a.day := rfl
    rw [hday, hcount, h.daily, if_pos rfl]
    rfl
  · rw [hcount]
    split_ifs with hd
    · subst hd
      rw [h.daily]
      omega
    · exact h.day_le d

theorem Recorded.release (h : Recorded log a clock) : Recorded log a.release clock :=
  ⟨h.minute, h.within, h.days, h.daily, h.day_le⟩

end

/-! ## Runs -/

/-- The invariant. -/
structure Sound (s : State ι τ δ) : Prop where
  counts : Counts s.request s.admission.active
  fresh : ∀ i, (s.request i).handler = .new → (s.request i).worker = .none
  active_le : s.admission.active ≤ 2
  recorded : Recorded s.log s.admission s.clock

omit [DecidableEq ι] in
theorem Sound.start (clock : τ) (day : δ) : Sound (start ι clock day) where
  counts := ⟨∅, fun j => iff_of_false (Finset.notMem_empty j) (by rintro (h | h) <;> cases h), rfl⟩
  fresh _ _ := rfl
  active_le := Int.zero_le_ofNat 2
  recorded := ⟨⟨[], rfl, by simp⟩, fun t => Nat.zero_le _, by simp [PublicSupport.start], rfl,
    fun d => Nat.zero_le _⟩

section

variable {s s' : State ι τ δ} {i : ι} {request : Request}

theorem fresh_setRequest (h : Sound s) (hi : request.handler = .new → request.worker = .none) :
    ∀ j, ((s.setRequest i request).request j).handler = .new →
      ((s.setRequest i request).request j).worker = .none := by
  intro j
  by_cases hj : j = i
  · subst hj
    simpa only [State.setRequest, Function.update_self] using hi
  · simpa only [State.setRequest, Function.update_of_ne hj] using h.fresh j

/-- A step of a request that neither begins nor ends an answer run. -/
theorem Sound.setRequest (h : Sound s) (hworker : request.UnderWay ↔ (s.request i).UnderWay)
    (hi : request.handler = .new → request.worker = .none) : Sound (s.setRequest i request) :=
  ⟨h.counts.update_same hworker, fresh_setRequest h hi, h.active_le, h.recorded⟩

theorem Sound.next (hsub : Monotone fun t : τ => t - 60) (h : Sound s) {l : Label ι τ δ}
    (hl : Forward s l) (hnext : next s l = some s') : Sound s' := by
  cases l with
  | acquire i now day =>
    rw [PublicSupport.next] at hnext
    split_ifs at hnext with hnew
    have hidle : ¬(s.request i).UnderWay := by
      rintro (hw | hw) <;> rw [h.fresh i hnew] at hw <;> cases hw
    have hpruned := h.recorded.prune hsub hl.1 hl.2
    unfold SupportAdmission.acquire at hnext
    simp only at hnext
    split_ifs at hnext with hfull
    · cases hnext
      refine ⟨?_, fresh_setRequest h (fun hn => nomatch hn), ?_, hpruned⟩
      · rw [active_prune]
        exact h.counts.update_same (iff_of_false (by rintro (hw | hw) <;> cases hw) hidle)
      · rw [active_prune]
        exact h.active_le
    · cases hnext
      have hactive : ((s.admission.prune now day).count now).active = s.admission.active + 1 :=
        congrArg (· + 1) (active_prune _ _ _)
      refine ⟨?_, fresh_setRequest h (fun hn => nomatch hn), ?_, ?_⟩
      · rw [hactive]
        exact h.counts.update_begin hidle (.inl rfl)
      · have hroom := (not_or.1 hfull).1
        rw [active_prune] at hroom
        rw [hactive]
        omega
      · have hcount := hpruned.count hsub hfull
        rwa [day_prune] at hcount
  | start i =>
    rw [PublicSupport.next] at hnext
    split_ifs at hnext with hcreated
    cases hnext
    refine h.setRequest (iff_of_true (.inr rfl) (.inl hcreated)) fun hn => ?_
    rw [h.fresh i hn] at hcreated
    cases hcreated
  | finish i ok =>
    rw [PublicSupport.next] at hnext
    split_ifs at hnext with hrunning
    cases hnext
    refine ⟨h.counts.update_end (.inr hrunning) (by rintro (hw | hw) <;> cases hw),
      fresh_setRequest h fun hn => ?_, ?_, h.recorded.release⟩
    · rw [h.fresh i hn] at hrunning
      cases hrunning
    · have hle := h.active_le
      exact (sub_le_self _ (by decide)).trans hle
  | deliver i =>
    rw [PublicSupport.next] at hnext
    split at hnext
    · rename_i ok hrequest
      cases hnext
      refine h.setRequest (by rw [hrequest]; rfl) fun hn => ?_
      cases ok <;> cases hn
    · cases hnext
  | timeout i =>
    rw [PublicSupport.next] at hnext
    split_ifs at hnext with hawaiting
    cases hnext
    exact h.setRequest Iff.rfl fun hn => nomatch hn
  | disconnect i =>
    rw [PublicSupport.next] at hnext
    split_ifs at hnext with hopen
    cases hnext
    exact h.setRequest Iff.rfl fun hn => nomatch hn

/-- A request that is turned away. -/
theorem next_refused {now : τ} {day : δ} (hnext : next s (.acquire i now day) = some s')
    (hrefused : (s'.request i).handler = .refused) :
    s'.log = s.log ∧ s'.admission = s.admission.prune now day := by
  rw [next] at hnext
  split_ifs at hnext with hnew
  unfold SupportAdmission.acquire at hnext
  simp only at hnext
  split_ifs at hnext with hfull
  · cases hnext
    exact ⟨rfl, rfl⟩
  · cases hnext
    simp only [State.setRequest, Function.update_self] at hrefused
    cases hrefused

/-- **The limits of public support hold.**  In every run whose clocks do not go back, `active` is
the number of the answer runs under way, of which there are at most two; every minute has at most
30 admissions and every day at most 200.  A refused request leaves `active` alone and counts no
admission; it drops what is a minute old, and begins a new day at zero. -/
theorem support_admission (hsub : Monotone fun t : τ => t - 60) {clock : τ} {day : δ}
    (h : (machine ι τ δ).Run Forward (start ι clock day) s) :
    (∃ running : Finset ι, (∀ i, i ∈ running ↔ (s.request i).UnderWay) ∧
      s.admission.active = running.card ∧ running.card ≤ 2) ∧
    (∀ t, s.log.countP (Within t ·) ≤ 30) ∧
    (∀ d, s.log.countP (·.day = d) ≤ 200) ∧
    ∀ i now day s', next s (.acquire i now day) = some s' →
      (s'.request i).handler = .refused → s'.log = s.log ∧
        s'.admission.active = s.admission.active ∧
        s'.admission.minute = s.admission.minute.dropWhile (· ≤ now - 60) ∧
        s'.admission.dailyCount = if day = s.admission.day then s.admission.dailyCount else 0 := by
  have hsound : Sound s := h.invariant Sound (.start clock day)
    fun s l s' hs hl hnext => hs.next hsub hl hnext
  refine ⟨?_, hsound.recorded.within, hsound.recorded.day_le, fun i now day s' hnext hi => ?_⟩
  · obtain ⟨running, hmem, hcard⟩ := hsound.counts
    have hle := hsound.active_le
    rw [hcard] at hle
    exact ⟨running, hmem, hcard, by exact_mod_cast hle⟩
  · obtain ⟨hlog, hadmission⟩ := next_refused hnext hi
    rw [hadmission]
    exact ⟨hlog, active_prune _ _ _, minute_prune _ _ _, dailyCount_prune _ _ _⟩

end

/-- One of two answer runs ends after its request has timed out. -/
theorem support_admission_after_timeout :
    ∃ s, (machine ℕ ℚ ℕ).Run Forward (start ℕ 0 0) s ∧ (s.request 0).handler = .timedOut ∧
      s.admission.active = 1 ∧
      ∃ running : Finset ℕ, (∀ i, i ∈ running ↔ (s.request i).UnderWay) ∧
        s.admission.active = running.card ∧ running.card ≤ 2 := by
  obtain ⟨s, hs, hp⟩ := (machine ℕ ℚ ℕ).exists_run (fun s l => decide (Forward s l))
    (start ℕ 0 0) [.acquire 0 1 0, .acquire 1 1 0, .start 0, .timeout 0, .finish 0 true]
    (fun s => decide ((s.request 0).handler = .timedOut ∧ s.admission.active = 1))
    (by decide +kernel)
  have hrun := hs.mono fun _ _ => of_decide_eq_true
  obtain ⟨htimeout, hactive⟩ := of_decide_eq_true hp
  have hsub : Monotone fun t : ℚ => t - 60 := fun _ _ hle => sub_le_sub_right hle 60
  exact ⟨s, hrun, htimeout, hactive, (support_admission hsub hrun).1⟩

/-- Two answer runs go on past midnight, and the request that they turn away begins the new day. -/
theorem refused_resets_daily_count :
    ∃ s s', (machine ℕ ℚ ℕ).Run Forward (start ℕ 0 0) s ∧ Forward s (.acquire 2 1 1) ∧
      next s (.acquire 2 1 1) = some s' ∧ (s'.request 2).handler = .refused ∧
      s.admission.dailyCount = 2 ∧ s'.admission.dailyCount = 0 := by
  obtain ⟨s, hs, hp⟩ := (machine ℕ ℚ ℕ).exists_run (fun s l => decide (Forward s l))
    (start ℕ 0 0) [.acquire 0 0 0, .acquire 1 0 0]
    (fun s => decide (Forward s (.acquire 2 1 1)) && decide (s.admission.dailyCount = 2) &&
      (next s (.acquire 2 1 1)).any fun s' : State ℕ ℚ ℕ =>
        decide ((s'.request 2).handler = .refused ∧ s'.admission.dailyCount = 0))
    (by decide +kernel)
  simp only [Bool.and_eq_true, decide_eq_true_eq, Option.any_eq_true] at hp
  obtain ⟨⟨hforward, hcount⟩, s', hnext, hrefused, hzero⟩ := hp
  exact ⟨s, s', hs.mono fun _ _ => of_decide_eq_true, hforward, hnext, hrefused, hcount, hzero⟩

end PublicSupport

end TrackFlow
