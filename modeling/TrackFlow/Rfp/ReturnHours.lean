import Mathlib.Algebra.Order.Ring.Rat
import Mathlib.Data.Bool.AllAny
import Mathlib.Data.List.Infix
import Mathlib.Data.Rat.Defs
import TrackFlow.Python.Finditer

/-!
# Returns in less than 48 hours

`_returns_under_48h` looks for `(\d{1,3})\s*-?\s*hour`, and compares the group with 48 if `return`
stands near the match.  A number may be longer than the group, which holds at most three digits: of
`1,000 hours` and of `1000 hours` it is `000`, of `72.5 hours` it is `5`.

* `returnsUnder48h` : the check.
* `Written`, `written` : a number as it is written, with its thousands and its decimals.
* `HourNumber` : a number directly before `hour`; `exists_hourNumber`, `exists_match` : the matches
  are those of the last digits of such numbers.
* `hours_read_right_iff` : **when the check reads the numbers right.**
-/

namespace TrackFlow

namespace Rfp

open Python

/-- The Unicode data of `\d`, of `int` and of ignoring case. -/
structure Numerals extends Python.Tables where
  /-- The value of a decimal digit. -/
  digitValue : Char → ℕ
  isWord_of_isDecimal : ∀ c, isDecimal c = true → isWord c = true
  isWord_hyphen : isWord '-' = false
  of_same_letter : ∀ x c, x.isAlpha = true → same x c = true → isWord c = true ∧ isDecimal c = false
  eq_of_same_hyphen : ∀ c, same '-' c = true → c = '-'

/-! ## The check -/

/-- `(\d{1,3})` -/
def hoursGroup : Regex := .run .decimal 1 (some 3)

/-- `\s*-?\s*hour` -/
def hoursRest : Regex :=
  .cat [.run .space 0 none, .opt (.one (.chars ['-'])), .run .space 0 none, .lit "hour"]

/-- `_SAME_NEXT_DAY_RE`. -/
def sameNextDay : Pattern :=
  ⟨true, .cat [.boundary,
    .anyOf (.cat [.lit "same", .one (.chars ['-', ' ']), .lit "day"])
      [.cat [.lit "next", .one (.chars ['-', ' ']), .lit "day"],
        .cat [.lit "24", .opt (.one (.chars ['-', ' '])), .lit "h"]],
    .boundary]⟩

section

variable (n : Numerals)

/-- `int` of decimal digits. -/
def intValue (digits : List Char) : ℕ := digits.foldl (fun v c => v * 10 + n.digitValue c) 0

/-- `lowered[max(0, start - 60) : end + 20]`. -/
def window (text : List Char) (start stop : ℕ) : List Char :=
  (text.take (stop + 20)).drop (start - 60)

/-- `"return" in text`. -/
def mentionsReturn (text : List Char) : Bool := decide ("return".toList <:+: text)

/-- `_returns_under_48h`. -/
def returnsUnder48h (lowered : List Char) : Bool :=
  sameNextDay.search n.toTables lowered && mentionsReturn lowered ||
    (finditer n.toTables true hoursGroup hoursRest lowered).any fun m =>
      decide (intValue n m.group < 48) &&
        mentionsReturn (window lowered m.start.done.length m.stop.done.length)

/-! ## Numbers as they are written -/

/-- A written number: the digits before its decimal point, and those behind it. -/
structure Written where
  integer : List Char
  fraction : List Char
  deriving DecidableEq, Repr

/-- The value of a written number. -/
def Written.value (w : Written) : ℚ :=
  intValue n w.integer + (intValue n w.fraction : ℚ) / 10 ^ w.fraction.length

/-- The digits of a whole number, last one first; a comma may stand before every three of them.
`k` digits have been read since the last comma. -/
def thousands (k : ℕ) : List Char → List Char
  | [] => []
  | c :: done =>
    if n.isDecimal c then c :: thousands (k + 1) done
    else if c = ',' ∧ k = 3 ∧ done.head?.any n.isDecimal then thousands 0 done
    else []

/-- The last run of digits of what stands before a position. -/
def lastRun (done : List Char) : List Char := (done.takeWhile n.isDecimal).reverse

/-- The number that ends at a position: all its digits, with its thousands and its decimals. -/
def written (done : List Char) : Written :=
  match done.dropWhile n.isDecimal with
  | '.' :: before =>
    if before.head?.any n.isDecimal then ⟨(thousands n 0 before).reverse, lastRun n done⟩
    else ⟨(thousands n 0 done).reverse, []⟩
  | _ => ⟨(thousands n 0 done).reverse, []⟩

/-- A number directly before `hour`: where it ends, and where `hour` ends. -/
structure HourNumber (text : List Char) where
  mid : Cursor
  stop : Cursor
  mid_text : mid.text = text
  decimal : mid.done.head?.any n.isDecimal = true
  stop_mem : stop ∈ hoursRest.ends n.toTables true mid

end

namespace HourNumber

variable {n : Numerals} {text : List Char} (h : HourNumber n text)

/-- The number as a whole. -/
def value : ℚ := (written n h.mid.done).value n

/-- The number is a plain integer: it has neither separators nor decimals. -/
def Plain : Prop := written n h.mid.done = ⟨lastRun n h.mid.done, []⟩

/-- The last digits of the number, at most three. -/
def lastDigits : List Char := ((h.mid.done.takeWhile n.isDecimal).take 3).reverse

/-- The text around the last digits that the check inspects. -/
def window : List Char :=
  Rfp.window text (h.mid.done.length - h.lastDigits.length) h.stop.done.length

end HourNumber

/-! ## Matches and numbers -/

section

variable {n : Numerals} {text : List Char} {cur mid stop : Cursor} {ds : List Char} {m : Match}

/-- A character that is part of a number's distance to `hour`, or of `hour`. -/
theorem isDecimal_of_isSpace {c : Char} (h : isSpace c = true) : n.isDecimal c = false := by
  refine Bool.eq_false_iff.2 fun hdecimal => ?_
  have hword := n.isWord_of_isDecimal c hdecimal
  rw [n.isWord_of_isSpace c h] at hword
  cases hword

theorem isDecimal_hyphen : n.isDecimal '-' = false :=
  Bool.eq_false_iff.2 fun h => by
    have hword := n.isWord_of_isDecimal '-' h
    rw [n.isWord_hyphen] at hword
    cases hword

/-- White space or the hyphen. -/
def isGap (c : Char) : Bool := isSpace c || c == '-'

theorem isDecimal_of_isGap {c : Char} (h : isGap c = true) : n.isDecimal c = false := by
  rcases Bool.or_eq_true_iff.1 h with h | h
  · exact isDecimal_of_isSpace h
  · rw [beq_iff_eq.1 h]
    exact isDecimal_hyphen

/-- What stands between a number and the end of `hour`. -/
structure Distance (n : Numerals) (gap hour : List Char) : Prop where
  isGap : ∀ c ∈ gap, isGap c = true
  isLetter : ∀ c ∈ hour, n.isWord c = true ∧ n.isDecimal c = false
  length : hour.length = 4

theorem reads_hoursRest (h : stop ∈ hoursRest.ends n.toTables true mid) :
    ∃ gap hour, mid.Reads (gap ++ hour) stop ∧ Distance n gap hour := by
  obtain ⟨a, ha, h⟩ := List.mem_flatMap.1 h
  obtain ⟨b, hb, h⟩ := List.mem_flatMap.1 h
  obtain ⟨c, hc, h⟩ := List.mem_flatMap.1 h
  obtain ⟨d, hd, h⟩ := List.mem_flatMap.1 h
  obtain rfl := List.mem_singleton.1 h
  obtain ⟨front, hfront, hfrontSpace, -⟩ := mem_run.1 ha
  obtain ⟨behind, hbehind, hbehindSpace, -⟩ := mem_run.1 hc
  obtain ⟨hour, hhour, hall⟩ := reads_lit (s := "hour".toList) hd
  have hhyphen : ∃ hyphen, a.Reads hyphen b ∧ ∀ x ∈ hyphen, isGap x = true := by
    rcases List.mem_append.1 hb with hb | hb
    · obtain ⟨hyphen, hreads, haccept, -⟩ := mem_run.1 hb
      refine ⟨hyphen, hreads, fun x hx => Bool.or_eq_true_iff.2 (.inr (beq_iff_eq.2 ?_))⟩
      have hsame : n.same '-' x = true := by simpa [CharClass.accepts] using haccept x hx
      exact n.eq_of_same_hyphen x hsame
    · obtain rfl := List.mem_singleton.1 hb
      exact ⟨[], ⟨rfl, rfl⟩, by simp⟩
  obtain ⟨hyphen, hhyphen, hgap⟩ := hhyphen
  have hspace {cs : List Char} (hcs : ∀ x ∈ cs, CharClass.space.accepts n.toTables true x = true) :
      ∀ x ∈ cs, isGap x = true := fun x hx => Bool.or_eq_true_iff.2 (.inl (hcs x hx))
  refine ⟨front ++ (hyphen ++ behind), hour, ?_, ?_, ?_, hall.length_eq.symm⟩
  · have hreads := ((hfront.append hhyphen).append hbehind).append hhour
    simpa only [List.append_assoc] using hreads
  · simp only [List.mem_append]
    rintro x (hx | hx | hx)
    · exact hspace hfrontSpace x hx
    · exact hgap x hx
    · exact hspace hbehindSpace x hx
  · intro x hx
    obtain ⟨i, hi, rfl⟩ := List.getElem_of_mem hx
    have hget := hall.get (i := i) (by rw [hall.length_eq]; exact hi) hi
    refine n.of_same_letter _ _ ?_ (by simpa [CharClass.accepts] using hget)
    have hletters : ∀ c ∈ "hour".toList, c.isAlpha = true := List.all_eq_true.1 (by decide)
    exact hletters _ (List.getElem_mem _)

/-- No digit follows a number. -/
theorem head?_mid (h : stop ∈ hoursRest.ends n.toTables true mid) {c : Char} {rest : List Char}
    (hrest : mid.rest = c :: rest) : n.isDecimal c = false := by
  obtain ⟨gap, hour, hreads, hdistance⟩ := reads_hoursRest h
  have hne : gap ++ hour ≠ [] := fun hnil => by
    have hlength := hdistance.length
    rw [(List.append_eq_nil_iff.1 hnil).2] at hlength
    cases hlength
  obtain ⟨d, ds, hcons⟩ := List.exists_cons_of_ne_nil hne
  have hc : c ∈ gap ++ hour := by
    have hhead := hreads.1
    rw [hrest, hcons] at hhead
    rw [hcons, (List.cons.inj hhead).1]
    exact List.mem_cons_self
  rcases List.mem_append.1 hc with hc | hc
  · exact isDecimal_of_isGap (hdistance.isGap c hc)
  · exact (hdistance.isLetter c hc).2

/-- There is one way from a number to the end of `hour`. -/
theorem hoursRest_unique {stop' : Cursor} (h : stop ∈ hoursRest.ends n.toTables true mid)
    (h' : stop' ∈ hoursRest.ends n.toTables true mid) : stop = stop' := by
  have hsplit {gap hour : List Char} {stop : Cursor} (hreads : mid.Reads (gap ++ hour) stop)
      (hdistance : Distance n gap hour) : gap = mid.rest.takeWhile isGap := by
    obtain ⟨c, cs, rfl⟩ := List.exists_cons_of_length_pos (by rw [hdistance.length]; decide)
    have hc : isGap c = false := by
      obtain ⟨hword, -⟩ := hdistance.isLetter c List.mem_cons_self
      refine Bool.eq_false_iff.2 fun hgap => ?_
      rcases Bool.or_eq_true_iff.1 hgap with hgap | hgap
      · rw [n.isWord_of_isSpace c hgap] at hword
        cases hword
      · rw [beq_iff_eq.1 hgap, n.isWord_hyphen] at hword
        cases hword
    rw [hreads.1, List.append_assoc, List.takeWhile_append_of_pos hdistance.isGap, List.cons_append,
      List.takeWhile_cons_of_neg (by simp [hc]), List.append_nil]
  obtain ⟨gap, hour, hreads, hdistance⟩ := reads_hoursRest h
  obtain ⟨gap', hour', hreads', hdistance'⟩ := reads_hoursRest h'
  obtain rfl : gap = gap' := (hsplit hreads hdistance).trans (hsplit hreads' hdistance').symm
  have hrest := hreads.1.symm.trans hreads'.1
  rw [List.append_assoc, List.append_assoc] at hrest
  obtain ⟨rfl, hstop⟩ := List.append_inj (List.append_cancel_left hrest)
    (hdistance.length.trans hdistance'.length.symm)
  have hdone := hreads.2.trans hreads'.2.symm
  cases stop
  cases stop'
  cases hstop
  cases hdone
  rfl

/-- A match of the pattern: from `cur`, over the digits, to the end of `hour`. -/
structure Hit (n : Numerals) (cur : Cursor) (ds : List Char) (mid stop : Cursor) : Prop where
  reads : cur.Reads ds mid
  decimal : ∀ c ∈ ds, n.isDecimal c = true
  pos : 1 ≤ ds.length
  le_three : ds.length ≤ 3
  stop_mem : stop ∈ hoursRest.ends n.toTables true mid

theorem hit_of_matchAt (h : matchAt n.toTables true hoursGroup hoursRest cur = some m) :
    m.start = cur ∧ ∃ ds, Hit n cur ds m.mid m.stop := by
  obtain ⟨hstart, hmid, hstop⟩ := of_matchAt h
  obtain ⟨ds, hreads, hdecimal, hlow, hhigh⟩ := mem_run.1 hmid
  exact ⟨hstart, ds, hreads, hdecimal, hlow, hhigh 3 rfl, hstop⟩

theorem Hit.matchAt_ne_none (h : Hit n cur ds mid stop) :
    matchAt n.toTables true hoursGroup hoursRest cur ≠ none := fun hnone =>
  not_mem_of_matchAt hnone
    (mem_run.2 ⟨ds, h.reads, h.decimal, h.pos, fun _ hk => Option.some.inj hk ▸ h.le_three⟩)
    h.stop_mem

/-- The digits before a match are part of the number only if the match has three. -/
def Fresh (n : Numerals) (cur : Cursor) : Prop :=
  ∀ ds mid stop, Hit n cur ds mid stop → cur.done.head?.any n.isDecimal = true → ds.length = 3

/-- A position behind one without a match. -/
theorem fresh_of_matchAt {c : Char} {behind : List Char} (hrest : cur.rest = c :: behind)
    (hnone : matchAt n.toTables true hoursGroup hoursRest cur = none) :
    Fresh n ⟨c :: cur.done, behind⟩ := by
  intro ds mid stop h hc
  by_contra hne
  have hlt : ds.length < 3 := Nat.lt_of_le_of_ne h.le_three hne
  have hdigit : n.isDecimal c = true := by simpa using hc
  -- the match would have begun one digit earlier
  have hearlier : Hit n cur (c :: ds) mid stop :=
    ⟨⟨hrest.trans (congrArg (c :: ·) h.reads.1), by rw [h.reads.2]; simp⟩,
      List.forall_mem_cons.2 ⟨hdigit, h.decimal⟩, by simp, by rw [List.length_cons]; omega,
      h.stop_mem⟩
  exact hearlier.matchAt_ne_none hnone

/-- A position behind a match. -/
theorem fresh_of_stop (h : stop ∈ hoursRest.ends n.toTables true mid) :
    stop.done.head?.any n.isDecimal = false := by
  obtain ⟨gap, hour, hreads, hdistance⟩ := reads_hoursRest h
  obtain ⟨front, c, hconcat⟩ := List.eq_nil_or_concat' hour |>.resolve_left fun hnil => by
    have hlength := hdistance.length
    rw [hnil] at hlength
    cases hlength
  rw [hreads.2, hconcat]
  have hc : n.isDecimal c = false := (hdistance.isLetter c (by simp [hconcat])).2
  simp [hc]

/-- The group of a match holds the last digits of the number. -/
theorem Hit.lastDigits (h : Hit n cur ds mid stop)
    (hfresh : cur.done.head?.any n.isDecimal = true → ds.length = 3) :
    ((mid.done.takeWhile n.isDecimal).take 3).reverse = ds := by
  have hall : ∀ c ∈ ds.reverse, n.isDecimal c = true := fun c hc =>
    h.decimal c (List.mem_reverse.1 hc)
  rw [h.reads.2, List.takeWhile_append_of_pos hall, List.reverse_eq_iff]
  cases hhead : cur.done.head?.any n.isDecimal with
  | true => exact List.take_left' (by rw [List.length_reverse, hfresh hhead])
  | false =>
    have hnil : cur.done.takeWhile n.isDecimal = [] := by
      cases hdone : cur.done with
      | nil => rfl
      | cons c done =>
        rw [hdone] at hhead
        exact List.takeWhile_cons_of_neg (by simpa using hhead)
    rw [hnil, List.append_nil]
    exact List.take_of_length_le (by rw [List.length_reverse]; exact h.le_three)

/-- Every match that is found. -/
theorem hit_of_mem_findFrom {fuel : ℕ} (hfresh : Fresh n cur)
    (h : m ∈ findFrom n.toTables true hoursGroup hoursRest fuel cur) :
    ∃ ds, Hit n m.start ds m.mid m.stop ∧ m.start.text = cur.text ∧
      ((m.mid.done.takeWhile n.isDecimal).take 3).reverse = ds := by
  induction fuel generalizing cur with
  | zero => cases h
  | succ fuel ih =>
    rw [findFrom] at h
    split at h
    · rename_i first hfirst
      obtain ⟨hstart, ds, hhit⟩ := hit_of_matchAt hfirst
      rcases List.mem_cons.1 h with rfl | h
      · refine ⟨ds, hstart ▸ hhit, by rw [hstart], hhit.lastDigits (hfresh _ _ _ hhit)⟩
      · obtain ⟨ds', hhit', htext, hlast⟩ := ih (fun _ _ _ _ hc => by
          rw [fresh_of_stop hhit.stop_mem] at hc
          cases hc) h
        refine ⟨ds', hhit', htext.trans ?_, hlast⟩
        exact (Regex.of_mem_ends hhit.stop_mem).1.trans hhit.reads.text
    · rename_i hnone
      split at h
      · cases h
      · rename_i c behind hrest
        obtain ⟨ds, hhit, htext, hlast⟩ := ih (fresh_of_matchAt hrest hnone) h
        exact ⟨ds, hhit, htext.trans (by simp [Cursor.text, hrest]), hlast⟩

theorem length_takeWhile_append_le {α : Type} {p : α → Bool} (xs : List α) {ys : List α}
    (h : ys.head?.any p = false) : ((xs ++ ys).takeWhile p).length ≤ xs.length := by
  induction xs with
  | nil =>
    cases ys with
    | nil => rfl
    | cons y ys => rw [List.nil_append, List.takeWhile_cons_of_neg (by simpa using h)]
  | cons x xs ih =>
    rw [List.cons_append, List.takeWhile_cons]
    split
    · exact Nat.succ_le_succ ih
    · exact Nat.zero_le _

/-- A number is not cut, and does not end, in what stands before the end of an earlier `hour`. -/
theorem Hit.reads_cases {us : List Char} {mid' stop' : Cursor} (h : Hit n cur ds mid stop)
    (hreads : cur.Reads us mid') (hstop : stop' ∈ hoursRest.ends n.toTables true mid')
    (hdigit : mid'.done.head?.any n.isDecimal = true) :
    mid' = mid ∨ ∃ vs, stop.Reads vs mid' := by
  rcases List.append_eq_append_iff.1 (h.reads.1.symm.trans hreads.1) with
    ⟨vs, rfl, hvs⟩ | ⟨vs, rfl, hvs⟩
  · rcases List.eq_nil_or_concat' vs with rfl | ⟨front, x, rfl⟩
    · left
      rw [List.append_nil] at hreads
      exact hreads.unique h.reads
    · have hhead : mid'.done.head? = some x := by
        rw [hreads.2]
        simp
      have hx : n.isDecimal x = true := by simpa [hhead] using hdigit
      obtain ⟨gap, hour, hgap, hdistance⟩ := reads_hoursRest h.stop_mem
      rcases List.append_eq_append_iff.1 (hgap.1.symm.trans hvs) with
        ⟨ws, hws, hrest⟩ | ⟨ws, hws, -⟩
      · right
        refine ⟨ws, hrest, ?_⟩
        rw [hreads.2, hgap.2, h.reads.2, hws]
        simp
      · -- the number would end in the gap or in `hour`
        have hmem : x ∈ gap ++ hour := by simp [hws]
        rcases List.mem_append.1 hmem with hmem | hmem
        · rw [isDecimal_of_isGap (hdistance.isGap x hmem)] at hx
          cases hx
        · rw [(hdistance.isLetter x hmem).2] at hx
          cases hx
  · cases vs with
    | nil =>
      left
      rw [List.append_nil] at h
      exact hreads.unique h.reads
    | cons x vs =>
      have hx := h.decimal x (by simp)
      rw [head?_mid hstop hvs] at hx
      cases hx

/-- The last digits of a number are read on the way to its end. -/
theorem exists_mem_findFrom {fuel : ℕ} {us : List Char} (hfuel : cur.rest.length < fuel)
    (hreads : cur.Reads us mid) (hstop : stop ∈ hoursRest.ends n.toTables true mid)
    (hdigit : mid.done.head?.any n.isDecimal = true)
    (hus : ((mid.done.takeWhile n.isDecimal).take 3).length ≤ us.length) :
    ∃ m ∈ findFrom n.toTables true hoursGroup hoursRest fuel cur, m.mid = mid ∧ m.stop = stop := by
  induction fuel generalizing cur us with
  | zero => exact absurd hfuel (Nat.not_lt_zero _)
  | succ fuel ih =>
    obtain ⟨d, done, hdone⟩ : ∃ d done, mid.done = d :: done := by
      cases hcons : mid.done with
      | nil => rw [hcons] at hdigit; cases hdigit
      | cons d done => exact ⟨d, done, rfl⟩
    have hd : n.isDecimal d = true := by simpa [hdone] using hdigit
    have hpos : 1 ≤ us.length := by
      refine le_trans ?_ hus
      rw [hdone, List.takeWhile_cons_of_pos hd, List.take_succ_cons]
      simp
    rw [findFrom]
    cases hmatch : matchAt n.toTables true hoursGroup hoursRest cur with
    | some first =>
      obtain ⟨-, ds, hhit⟩ := hit_of_matchAt hmatch
      rcases hhit.reads_cases hreads hstop hdigit with rfl | ⟨vs, hvs⟩
      · exact ⟨first, List.mem_cons_self, rfl, hoursRest_unique hhit.stop_mem hstop⟩
      · have hlength : first.stop.rest.length < fuel := by
          have hle := (Regex.of_mem_ends hhit.stop_mem).2.1
          have hlt := congrArg List.length hhit.reads.1
          have hds := hhit.pos
          rw [List.length_append] at hlt
          omega
        have hlast : ((mid.done.takeWhile n.isDecimal).take 3).length ≤ vs.length := by
          rw [List.length_take, hvs.2]
          refine (Nat.min_le_right _ _).trans ?_
          have hle := length_takeWhile_append_le vs.reverse (fresh_of_stop hhit.stop_mem)
          rwa [List.length_reverse] at hle
        obtain ⟨m, hm, heq⟩ := ih hlength hvs hlast
        exact ⟨m, List.mem_cons_of_mem _ hm, heq⟩
    | none =>
      obtain ⟨c, us, rfl⟩ := List.exists_cons_of_length_pos hpos
      have hrest : cur.rest = c :: (us ++ mid.rest) := hreads.1
      simp only [hrest]
      refine ih ?_ (⟨rfl, ?_⟩ : Cursor.Reads _ us mid) ?_
      · rw [hrest] at hfuel
        simpa using hfuel
      · rw [hreads.2]
        simp
      · by_contra hlt
        -- all that is left to read are the last digits, and they are a match
        have hlast : (mid.done.takeWhile n.isDecimal).take 3 = (c :: us).reverse := by
          refine List.IsPrefix.eq_of_length (List.prefix_of_prefix_length_le
            ((List.take_prefix _ _).trans (List.takeWhile_prefix _))
            ⟨cur.done, hreads.2.symm⟩ (by rw [List.length_reverse]; exact hus)) ?_
          rw [List.length_reverse, List.length_cons] at *
          omega
        have hdecimal : ∀ x ∈ c :: us, n.isDecimal x = true := fun x hx =>
          List.mem_takeWhile_imp (List.mem_of_mem_take (hlast ▸ List.mem_reverse.2 hx))
        have hthree : (c :: us).length ≤ 3 := by
          rw [← List.length_reverse, ← hlast]
          exact List.length_take_le _ _
        exact Hit.matchAt_ne_none ⟨hreads, hdecimal, hpos, hthree, hstop⟩ hmatch

/-- The group of a match is what stands between its start and its end. -/
theorem Hit.group_eq (h : Hit n m.start ds m.mid m.stop) : m.group = ds := by
  rw [Match.group, h.reads.1, List.length_append, Nat.add_sub_cancel]
  exact List.take_left

theorem fresh_start : Fresh n ⟨[], text⟩ := fun _ _ _ _ hc => by cases hc

/-- Where a match starts, in terms of the end of its group. -/
theorem Hit.length_start (h : Hit n m.start ds m.mid m.stop) :
    m.start.done.length = m.mid.done.length - ds.length := by
  rw [h.reads.2, List.length_append, List.length_reverse, Nat.add_sub_cancel_left]

/-- Every match is one of the last digits of a number before `hour`. -/
theorem exists_hourNumber (h : m ∈ finditer n.toTables true hoursGroup hoursRest text) :
    ∃ number : HourNumber n text, m.group = number.lastDigits ∧
      window text m.start.done.length m.stop.done.length = number.window := by
  obtain ⟨ds, hhit, htext, hlast⟩ := hit_of_mem_findFrom fresh_start h
  obtain ⟨c, cs, rfl⟩ := List.exists_cons_of_length_pos hhit.pos
  have hdigit : m.mid.done.head?.any n.isDecimal = true := by
    obtain ⟨front, x, hconcat⟩ := (List.eq_nil_or_concat' (c :: cs)).resolve_left
      (List.cons_ne_nil c cs)
    rw [hhit.reads.2, hconcat]
    simpa using hhit.decimal x (by simp [hconcat])
  have hmid : m.mid.text = text := hhit.reads.text.trans htext
  refine ⟨⟨m.mid, m.stop, hmid, hdigit, hhit.stop_mem⟩, ?_, ?_⟩
  · exact hhit.group_eq.trans hlast.symm
  · rw [HourNumber.window, HourNumber.lastDigits, hlast, hhit.length_start]

/-- Every number before `hour` has a match of its last digits. -/
theorem exists_match (number : HourNumber n text) :
    ∃ m ∈ finditer n.toTables true hoursGroup hoursRest text, m.group = number.lastDigits ∧
      window text m.start.done.length m.stop.done.length = number.window := by
  have hreads : Cursor.Reads ⟨[], text⟩ number.mid.done.reverse number.mid := by
    refine ⟨number.mid_text.symm, ?_⟩
    rw [List.reverse_reverse, List.append_nil]
  have hle : ((number.mid.done.takeWhile n.isDecimal).take 3).length ≤
      number.mid.done.reverse.length := by
    rw [List.length_take, List.length_reverse]
    exact (Nat.min_le_right _ _).trans (List.takeWhile_sublist _).length_le
  obtain ⟨m, hm, hmid, hstop⟩ := exists_mem_findFrom (Nat.lt_succ_self _) hreads number.stop_mem
    number.decimal hle
  obtain ⟨ds, hhit, -, hlast⟩ := hit_of_mem_findFrom fresh_start hm
  rw [hmid] at hlast
  refine ⟨m, hm, hhit.group_eq.trans hlast.symm, ?_⟩
  rw [HourNumber.window, HourNumber.lastDigits, hlast, ← hmid, ← hstop, hhit.length_start]

/-- What the check compares with 48. -/
theorem returnsUnder48h_iff : returnsUnder48h n text = true ↔
    sameNextDay.search n.toTables text = true ∧ mentionsReturn text = true ∨
      ∃ number : HourNumber n text, intValue n number.lastDigits < 48 ∧
        mentionsReturn number.window = true := by
  rw [returnsUnder48h, Bool.or_eq_true, Bool.and_eq_true, List.any_eq_true]
  refine or_congr_right ⟨?_, ?_⟩
  · rintro ⟨m, hm, hp⟩
    rw [Bool.and_eq_true, decide_eq_true_eq] at hp
    obtain ⟨number, hgroup, hwindow⟩ := exists_hourNumber hm
    exact ⟨number, hgroup ▸ hp.1, hwindow ▸ hp.2⟩
  · rintro ⟨number, hlt, hreturn⟩
    obtain ⟨m, hm, hgroup, hwindow⟩ := exists_match number
    refine ⟨m, hm, ?_⟩
    rw [Bool.and_eq_true, decide_eq_true_eq, hgroup, hwindow]
    exact ⟨hlt, hreturn⟩

/-! ## Reading the numbers -/

/-- The last digits are no more than all of them. -/
theorem intValue_drop_le (digits : List Char) (k : ℕ) :
    intValue n (digits.drop k) ≤ intValue n digits := by
  have hmono : ∀ (digits : List Char) (v w : ℕ), v ≤ w →
      digits.foldl (fun v c => v * 10 + n.digitValue c) v ≤
        digits.foldl (fun v c => v * 10 + n.digitValue c) w := by
    intro digits
    induction digits with
    | nil => exact fun v w h => h
    | cons c digits ih =>
      exact fun v w h => ih _ _ (Nat.add_le_add_right (Nat.mul_le_mul_right 10 h) _)
  conv_rhs => rw [← List.take_append_drop k digits, intValue, List.foldl_append]
  exact hmono _ _ _ (Nat.zero_le _)

/-- A plain integer below 48 has last digits below 48. -/
theorem HourNumber.Plain.lastDigits_lt {number : HourNumber n text} (h : number.Plain)
    (hlt : number.value < 48) : intValue n number.lastDigits < 48 := by
  have hvalue : number.value = intValue n (lastRun n number.mid.done) := by
    rw [HourNumber.value, h, Written.value]
    simp [intValue]
  have hrun : intValue n (lastRun n number.mid.done) < 48 := by
    rw [hvalue] at hlt
    exact_mod_cast hlt
  refine lt_of_le_of_lt ?_ hrun
  rw [HourNumber.lastDigits, List.reverse_take]
  exact intValue_drop_le _ _

/-- **When the check reads the numbers right.**  For a text in which all numbers before `hour` are
at least 48 and no same-day wording occurs, it is false, and for one with a plain integer below 48
near `return` it is true, exactly if there is such a wording, or a number below 48, or no number
near `return` whose last digits, at most three, are below 48. -/
theorem hours_read_right_iff (n : Numerals) (text : List Char) :
    (((∀ number : HourNumber n text, 48 ≤ number.value) →
          sameNextDay.search n.toTables text = false → returnsUnder48h n text = false) ∧
        ((∃ number : HourNumber n text, number.Plain ∧ number.value < 48 ∧
          mentionsReturn number.window = true) → returnsUnder48h n text = true)) ↔
      sameNextDay.search n.toTables text = true ∨
        (∃ number : HourNumber n text, number.value < 48) ∨
        ∀ number : HourNumber n text, mentionsReturn number.window = true →
          48 ≤ intValue n number.lastDigits := by
  have hplain : (∃ number : HourNumber n text, number.Plain ∧ number.value < 48 ∧
      mentionsReturn number.window = true) → returnsUnder48h n text = true := by
    rintro ⟨number, hnumber, hlt, hreturn⟩
    exact returnsUnder48h_iff.2 (.inr ⟨number, hnumber.lastDigits_lt hlt, hreturn⟩)
  rw [and_iff_left hplain]
  constructor
  · intro h
    by_contra! hnot
    obtain ⟨hwording, hwhole, number, hreturn, hlast⟩ := hnot
    have hfalse := h hwhole (Bool.eq_false_iff.2 hwording)
    rw [returnsUnder48h_iff.2 (.inr ⟨number, hlast, hreturn⟩)] at hfalse
    cases hfalse
  · intro h hwhole hwording
    refine Bool.eq_false_iff.2 fun htrue => ?_
    rcases h with hsearch | ⟨number, hlt⟩ | hlast
    · rw [hwording] at hsearch
      cases hsearch
    · exact absurd (hwhole number) (not_le.2 hlt)
    · rcases returnsUnder48h_iff.1 htrue with ⟨hsearch, -⟩ | ⟨number, hlt, hreturn⟩
      · rw [hwording] at hsearch
        cases hsearch
      · exact absurd (hlast number hreturn) (not_le.2 hlt)

end

/-! ## A thousand hours -/

theorem toNat_toLower (c : Char) :
    c.toLower.toNat = if 65 ≤ c.toNat ∧ c.toNat ≤ 90 then c.toNat + 32 else c.toNat := by
  have hn : c.toNat = c.val.toNat := rfl
  unfold Char.toLower
  split_ifs with h h' h'
  · change (c.val + ('a'.val - 'A'.val)).toNat = _
    rw [UInt32.toNat_add, ← hn]
    simp only [UInt32.reduceToNat, Char.reduceVal, UInt32.reduceSub]
    omega
  all_goals simp [UInt32.le_iff_toNat_le, ← hn] at h
  · omega
  · omega
  · rfl

/-- ASCII letters are the characters whose lower case is one. -/
theorem isAlpha_iff_toLower (c : Char) :
    c.isAlpha = true ↔ 97 ≤ c.toLower.toNat ∧ c.toLower.toNat ≤ 122 := by
  have hn : c.toNat = c.val.toNat := rfl
  rw [toNat_toLower]
  unfold Char.isAlpha Char.isUpper Char.isLower
  simp only [Bool.or_eq_true, Bool.and_eq_true, decide_eq_true_eq, UInt32.le_iff_toNat_le, GE.ge,
    ← hn, UInt32.reduceToNat, Char.reduceVal]
  split_ifs <;> omega

theorem isWord_ascii_of_isDecimal (c : Char) (h : ascii.isDecimal c = true) :
    ascii.isWord c = true := by
  have hdigit : c.isDigit = true := h
  simp [ascii, Char.isAlphanum, hdigit]

theorem of_same_letter_ascii (x c : Char) (hx : x.isAlpha = true) (h : ascii.same x c = true) :
    ascii.isWord c = true ∧ ascii.isDecimal c = false := by
  have hlower : x.toLower = c.toLower := beq_iff_eq.1 h
  have hc : c.isAlpha = true := (isAlpha_iff_toLower c).2 (hlower ▸ (isAlpha_iff_toLower x).1 hx)
  refine ⟨by simp [ascii, Char.isAlphanum, hc], Bool.eq_false_iff.2 fun hdigit => ?_⟩
  have hn : c.toNat = c.val.toNat := rfl
  have hdigit : c.isDigit = true := hdigit
  simp only [Char.isDigit, Bool.and_eq_true, decide_eq_true_eq, UInt32.le_iff_toNat_le, GE.ge,
    ← hn, UInt32.reduceToNat, Char.reduceVal] at hdigit
  have hbounds := (isAlpha_iff_toLower c).1 hc
  rw [toNat_toLower] at hbounds
  split_ifs at hbounds <;> omega

theorem eq_of_same_hyphen_ascii (c : Char) (h : ascii.same '-' c = true) : c = '-' := by
  have hlower : '-'.toLower = c.toLower := beq_iff_eq.1 h
  have hval := congrArg Char.toNat hlower
  rw [toNat_toLower c] at hval
  have hhyphen : '-'.toLower.toNat = 45 := rfl
  rw [hhyphen] at hval
  split_ifs at hval with hupper
  · omega
  · exact Char.ext (UInt32.toNat_inj.1 hval.symm)

/-- The Unicode data of the ASCII characters. -/
def asciiNumerals : Numerals where
  toTables := ascii
  digitValue c := c.toNat - '0'.toNat
  isWord_of_isDecimal := isWord_ascii_of_isDecimal
  isWord_hyphen := by decide
  of_same_letter := of_same_letter_ascii
  eq_of_same_hyphen := eq_of_same_hyphen_ascii

/-- **A thousand hours are read as none**: the text has one number before `hour`, of 1000, and the
check finds a return in less than 48 hours. -/
theorem hours_misread_thousand :
    ¬∀ (n : Numerals) (text : List Char), (∀ number : HourNumber n text, 48 ≤ number.value) →
      sameNextDay.search n.toTables text = false → returnsUnder48h n text = false := by
  intro hclaim
  have hmid : ∀ mid ∈ Cursor.allFrom [] "return in 1000 hours".toList,
      mid.done.head?.any asciiNumerals.isDecimal = true →
        hoursRest.ends asciiNumerals.toTables true mid ≠ [] →
          48 ≤ (written asciiNumerals mid.done).value asciiNumerals := by decide +kernel
  have hfalse := hclaim asciiNumerals "return in 1000 hours".toList (fun number =>
    hmid _ (Cursor.mem_allFrom_nil.2 number.mid_text) number.decimal
      (List.ne_nil_of_mem number.stop_mem)) (by decide +kernel)
  exact absurd hfalse (by decide +kernel)

end Rfp

end TrackFlow
