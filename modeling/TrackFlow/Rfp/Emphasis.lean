import TrackFlow.Web.Html

/-!
# Emphasis in a proposal draft

`_inline` escapes a text and turns its paired asterisks into tags, with two regular expressions one
after the other.  Neither matches across an asterisk, so a match replaces a stretch of text between
asterisks.

* `inlineHtml` : `_inline`; `plain` : the text without its paired asterisks.
* `Inlined.inlineHtml` : **what holds of escaped characters, and is kept by concatenation and by the
  tags, holds of the two**.
-/

namespace TrackFlow

namespace Rfp

open Html

/-! ## The regular expressions -/

/-- `re.sub`, behind `skip` characters.  `found` is told whether the text begins here; it returns
the length of a match without its first character, and what replaces it. -/
def reSub (found : Bool → List Char → Option (ℕ × List Char)) : Bool → ℕ → List Char → List Char
  | _, _, [] => []
  | _, skip + 1, _ :: text => reSub found false skip text
  | start, 0, c :: text =>
    match found start (c :: text) with
    | some (length, new) => new ++ reSub found false length text
    | none => c :: reSub found false 0 text

/-- `[^*]+` -/
def starless (text : List Char) : List Char := text.takeWhile (· != '*')

/-- `\*\*([^*]+)\*\*` -/
def strongAt (replace : List Char → List Char) : Bool → List Char → Option (ℕ × List Char)
  | _, '*' :: '*' :: text =>
    let group := starless text
    if group ≠ [] ∧ ['*', '*'] <+: text.drop group.length then
      some (group.length + 3, replace group)
    else none
  | _, _ => none

/-- `\*([^*]+)\*(?!\*)`: the group. -/
def emGroup : List Char → Option (List Char)
  | '*' :: text =>
    let group := starless text
    match text.drop group.length with
    | '*' :: behind => if group ≠ [] ∧ behind.head? ≠ some '*' then some group else none
    | _ => none
  | _ => none

/-- `(^|[^*])\*([^*]+)\*(?!\*)` -/
def emAt (replace : List Char → List Char) : Bool → List Char → Option (ℕ × List Char)
  | _, [] => none
  | start, c :: text =>
    if c = '*' then
      -- the empty prefix matches at the beginning only
      if start then (emGroup (c :: text)).map fun group => (group.length + 1, replace group)
      else none
    -- any other character is put back in front of the group
    else (emGroup text).map fun group => (group.length + 2, c :: replace group)

/-- The two substitutions. -/
def substitute (strong em : List Char → List Char) (text : List Char) : List Char :=
  reSub (emAt em) true 0 (reSub (strongAt strong) true 0 text)

/-- `_inline`. -/
def inlineHtml (text : List Char) : List Char :=
  substitute (wrap "strong".toList) (wrap "em".toList) (escape text)

/-- A text without its paired asterisks. -/
def plain (text : List Char) : List Char := substitute id id text

/-! ## Between the asterisks -/

section

variable {found : Bool → List Char → Option (ℕ × List Char)} {start : Bool}
  {replace : List Char → List Char} {run group text rest : List Char}

theorem reSub_skip (front : List Char) :
    reSub found false front.length (front ++ rest) = reSub found false 0 rest := by
  induction front with
  | nil => rfl
  | cons c front ih => exact ih

theorem starless_append (h : '*' ∉ run) : starless (run ++ '*' :: rest) = run := by
  have hall : ∀ c ∈ run, (c != '*') = true := fun c hc => bne_iff_ne.2 (ne_of_mem_of_not_mem hc h)
  rw [starless, List.takeWhile_append_of_pos hall, List.takeWhile_cons_of_neg (by decide),
    List.append_nil]

/-- A text between asterisks, in front of the first one. -/
theorem starless_split (h : text.drop (starless text).length = '*' :: rest) :
    text = starless text ++ '*' :: rest ∧ '*' ∉ starless text := by
  have hprefix : starless text <+: text := List.takeWhile_prefix _
  refine ⟨?_, fun hmem => ?_⟩
  · conv_lhs => rw [← List.take_append_drop (starless text).length text, h,
      ← List.prefix_iff_eq_take.1 hprefix]
  · exact absurd (List.mem_takeWhile_imp hmem) (by decide)

theorem append_star_inj {run' rest' : List Char} (h : '*' ∉ run) (h' : '*' ∉ run')
    (heq : run ++ '*' :: rest = run' ++ '*' :: rest') : run = run' ∧ rest = rest' := by
  have hrun : run = run' := by rw [← starless_append h, heq, starless_append h']
  subst hrun
  exact ⟨rfl, (List.cons.inj (List.append_cancel_left heq)).2⟩

/-! ## One match -/

/-- What stands behind an asterisk that begins a match of the first expression. -/
def StrongHead (text group rest : List Char) : Prop :=
  text = '*' :: (group ++ '*' :: '*' :: rest) ∧ '*' ∉ group ∧ group ≠ []

/-- What stands behind the first asterisk of a match of the second one. -/
def EmHead (text group rest : List Char) : Prop :=
  text = group ++ '*' :: rest ∧ '*' ∉ group ∧ group ≠ [] ∧ rest.head? ≠ some '*'

theorem strongAt_eq_none (h : ∀ group rest, ¬StrongHead text group rest) (start : Bool) :
    strongAt replace start ('*' :: text) = none := by
  rw [← Option.not_isSome_iff_eq_none, Option.isSome_iff_exists]
  rintro ⟨result, h'⟩
  cases text with
  | nil => exact absurd h' nofun
  | cons c text =>
    by_cases hc : c = '*'
    · subst hc
      simp only [strongAt] at h'
      split_ifs at h' with hmatch
      obtain ⟨hne, rest, hrest⟩ := hmatch
      obtain ⟨htext, hstar⟩ := starless_split hrest.symm
      exact h (starless text) rest ⟨congrArg ('*' :: ·) htext, hstar, hne⟩
    · simp [strongAt, hc] at h'

theorem strongAt_match (h : StrongHead text group rest) :
    strongAt replace start ('*' :: text) = some (group.length + 3, replace group) := by
  obtain ⟨rfl, hstar, hne⟩ := h
  simp only [strongAt, starless_append hstar, List.drop_left]
  rw [if_pos ⟨hne, rest, rfl⟩]

theorem emGroup_star_eq_none (h : ∀ group rest, ¬EmHead text group rest) :
    emGroup ('*' :: text) = none := by
  simp only [emGroup]
  split
  · next rest hdrop =>
    obtain ⟨htext, hstar⟩ := starless_split hdrop
    exact if_neg fun hmatch => h (starless text) rest ⟨htext, hstar, hmatch⟩
  · rfl

theorem emGroup_match (h : EmHead text group rest) : emGroup ('*' :: text) = some group := by
  obtain ⟨rfl, hstar, hmatch⟩ := h
  simp only [emGroup, starless_append hstar, List.drop_left]
  rw [if_pos hmatch]

theorem emGroup_eq_none (h : text.head? ≠ some '*') : emGroup text = none := by
  cases text with
  | nil => rfl
  | cons c text =>
    have hc : c ≠ '*' := fun hc => h (congrArg some hc)
    simp [emGroup, hc]

theorem head_ne_star (h : '*' ∉ run) : run.head? ≠ some '*' := fun hhead =>
  h (List.mem_of_head? hhead)

/-! ## A substitution, stretch by stretch -/

theorem strongAt_of_ne {c : Char} (h : c ≠ '*') : strongAt replace start (c :: text) = none := by
  simp [strongAt, h]

theorem reSub_strong_run (replace : List Char → List Char) (start : Bool) (h : '*' ∉ run)
    (rest : List Char) : ∃ start', reSub (strongAt replace) start 0 (run ++ rest) =
      run ++ reSub (strongAt replace) start' 0 rest := by
  induction run generalizing start with
  | nil => exact ⟨start, rfl⟩
  | cons c run ih =>
    rw [List.mem_cons, not_or] at h
    obtain ⟨start', hrun⟩ := ih false h.2
    refine ⟨start', ?_⟩
    rw [List.cons_append, reSub, strongAt_of_ne (Ne.symm h.1)]
    exact congrArg (c :: ·) hrun

theorem reSub_strong_last (h : '*' ∉ run) : reSub (strongAt replace) start 0 run = run := by
  obtain ⟨start', hrun⟩ := reSub_strong_run replace start h []
  rwa [List.append_nil, reSub, List.append_nil] at hrun

theorem reSub_strong_none (h : '*' ∉ run)
    (hnone : ∀ start, strongAt replace start ('*' :: text) = none) :
    reSub (strongAt replace) start 0 (run ++ '*' :: text) =
      run ++ '*' :: reSub (strongAt replace) false 0 text := by
  obtain ⟨start', hrun⟩ := reSub_strong_run replace start h ('*' :: text)
  rw [hrun, reSub, hnone]

theorem reSub_strong_match (h : '*' ∉ run) (hmatch : StrongHead text group rest) :
    reSub (strongAt replace) start 0 (run ++ '*' :: text) =
      run ++ (replace group ++ reSub (strongAt replace) false 0 rest) := by
  obtain ⟨start', hrun⟩ := reSub_strong_run replace start h ('*' :: text)
  have hlength : group.length + 3 = ('*' :: (group ++ ['*', '*'])).length := by simp
  have htext : text = '*' :: (group ++ ['*', '*']) ++ rest := by simp [hmatch.1]
  rw [hrun, reSub, strongAt_match hmatch]
  simp only [htext, hlength, reSub_skip]

theorem reSub_em_last (h : '*' ∉ run) : reSub (emAt replace) start 0 run = run := by
  induction run generalizing start with
  | nil => rfl
  | cons c run ih =>
    rw [List.mem_cons, not_or] at h
    rw [reSub, emAt, if_neg (Ne.symm h.1), emGroup_eq_none (head_ne_star h.2)]
    exact congrArg (c :: ·) (ih h.2)

/-- No match at an asterisk: it is not the first one of a group, or nothing stands in front. -/
theorem reSub_em_none (h : '*' ∉ run)
    (hnone : emGroup ('*' :: text) = none ∨ (start = false ∧ run = [])) :
    reSub (emAt replace) start 0 (run ++ '*' :: text) =
      run ++ '*' :: reSub (emAt replace) false 0 text := by
  induction run generalizing start with
  | nil =>
    have hat : emAt replace start ('*' :: text) = none := by
      rw [emAt, if_pos rfl]
      rcases hnone with hnone | ⟨rfl, -⟩
      · rw [hnone, Option.map_none, ite_self]
      · rfl
    rw [List.nil_append, List.nil_append, reSub, hat]
  | cons c run ih =>
    rw [List.mem_cons, not_or] at h
    have hgroup : emGroup ('*' :: text) = none := hnone.resolve_right (by simp)
    have hat : emGroup (run ++ '*' :: text) = none := by
      cases run with
      | nil => exact hgroup
      | cons d run =>
        have hhead : (d :: run).head? ≠ some '*' := head_ne_star h.2
        exact emGroup_eq_none hhead
    rw [List.cons_append, reSub, emAt, if_neg (Ne.symm h.1), hat]
    exact congrArg (c :: ·) (ih h.2 (.inl hgroup))

/-- A match at an asterisk. -/
theorem reSub_em_match (h : '*' ∉ run) (hfront : start = true ∨ run ≠ [])
    (hmatch : EmHead text group rest) : reSub (emAt replace) start 0 (run ++ '*' :: text) =
      run ++ (replace group ++ reSub (emAt replace) false 0 rest) := by
  have htext : text = (group ++ ['*']) ++ rest := by simp [hmatch.1]
  have hfound := emGroup_match hmatch
  induction run generalizing start with
  | nil =>
    obtain rfl := hfront.resolve_right (not_not_intro rfl)
    have hlength : group.length + 1 = (group ++ ['*']).length := by simp
    rw [List.nil_append, List.nil_append, reSub, emAt, if_pos rfl, if_pos rfl, hfound]
    simp only [Option.map_some, htext, hlength, reSub_skip]
  | cons c run ih =>
    rw [List.mem_cons, not_or] at h
    rw [List.cons_append, reSub, emAt, if_neg (Ne.symm h.1)]
    -- the character before the asterisk belongs to the match
    cases run with
    | nil =>
      have hlength : group.length + 2 = ('*' :: (group ++ ['*'])).length := by simp
      have htext' : '*' :: text = ('*' :: (group ++ ['*'])) ++ rest := by simp [htext]
      rw [List.nil_append, hfound]
      simp only [Option.map_some, htext', hlength, reSub_skip]
      rfl
    | cons d run =>
      have hhead : (d :: run).head? ≠ some '*' := head_ne_star h.2
      have hnone : emGroup (d :: run ++ '*' :: text) = none :=
        emGroup_eq_none hhead
      rw [hnone]
      exact congrArg (c :: ·) (ih h.2 (.inr (List.cons_ne_nil _ _)))

end

/-! ## Two texts with the same asterisks -/

section

variable {R : List Char → List Char → Prop} {s s' c c' text run group rest : List Char}

/-- Two stretches between asterisks. -/
structure Stretch (R : List Char → List Char → Prop) (s c : List Char) : Prop where
  rel : R s c
  star : '*' ∉ s
  star' : '*' ∉ c
  nil_iff : s = [] ↔ c = []

/-- Two texts with the same asterisks, and related stretches between them. -/
inductive Stretches (R : List Char → List Char → Prop) : List Char → List Char → Prop
  | last {s c : List Char} (h : Stretch R s c) : Stretches R s c
  | cons {s c s' c' : List Char} (h : Stretch R s c) (hrest : Stretches R s' c') :
      Stretches R (s ++ '*' :: s') (c ++ '*' :: c')

/-- A relation between marked-up and plain texts that the tags keep. -/
structure Inlined (R : List Char → List Char → Prop) : Prop where
  nil : R [] []
  append : ∀ {s c s' c'}, R s c → R s' c' → R (s ++ s') (c ++ c')
  char : ∀ c, R (escapeChar c) [c]
  strong : ∀ {s c}, R s c → R (wrap "strong".toList s) c
  em : ∀ {s c}, R s c → R (wrap "em".toList s) c

/-- The relation, the other way round. -/
theorem Stretch.swap (h : Stretch R s c) : Stretch (Function.swap R) c s :=
  ⟨h.rel, h.star', h.star, h.nil_iff.symm⟩

theorem Stretches.swap (h : Stretches R s c) : Stretches (Function.swap R) c s := by
  induction h with
  | last h => exact .last h.swap
  | cons h _ ih => exact .cons h.swap ih

/-- The first asterisks stand at the same place. -/
theorem Stretches.split (h : Stretches R (run ++ '*' :: rest) c) (hrun : '*' ∉ run) :
    ∃ run' rest', c = run' ++ '*' :: rest' ∧ Stretch R run run' ∧ Stretches R rest rest' := by
  generalize heq : run ++ '*' :: rest = s at h
  cases h with
  | last h => exact absurd (by rw [← heq]; simp) h.star
  | @cons s c s' c' h hrest =>
    obtain ⟨rfl, rfl⟩ := append_star_inj hrun h.star heq
    exact ⟨c, c', rfl, h, hrest⟩

theorem Stretches.head_iff (h : Stretches R s c) : s.head? = some '*' ↔ c.head? = some '*' := by
  cases h with
  | last h => exact iff_of_false (head_ne_star h.star) (head_ne_star h.star')
  | @cons s c s' c' h hrest =>
    cases s with
    | nil =>
      rw [h.nil_iff.1 rfl]
      exact iff_of_true rfl rfl
    | cons a s =>
      cases c with
      | nil => exact absurd (h.nil_iff.2 rfl) (List.cons_ne_nil _ _)
      | cons b c =>
        have hs : (a :: s).head? ≠ some '*' := head_ne_star h.star
        have hc : (b :: c).head? ≠ some '*' := head_ne_star h.star'
        exact iff_of_false hs hc

/-- A stretch in front. -/
theorem Stretches.append_left (hR : Inlined R) {front front' : List Char}
    (hfront : Stretch R front front') (h : Stretches R s c) :
    Stretches R (front ++ s) (front' ++ c) := by
  have hboth : ∀ {s c}, Stretch R s c → Stretch R (front ++ s) (front' ++ c) := fun h => by
    refine ⟨hR.append hfront.rel h.rel, ?_, ?_, ?_⟩
    · rw [List.mem_append, not_or]
      exact ⟨hfront.star, h.star⟩
    · rw [List.mem_append, not_or]
      exact ⟨hfront.star', h.star'⟩
    · rw [List.append_eq_nil_iff, List.append_eq_nil_iff, hfront.nil_iff, h.nil_iff]
  cases h with
  | last h => exact .last (hboth h)
  | cons h hrest =>
    rw [← List.append_assoc, ← List.append_assoc]
    exact .cons (hboth h) hrest

theorem star_notMem_escapeChar {c : Char} (h : c ≠ '*') : '*' ∉ escapeChar c := by
  unfold escapeChar
  split_ifs with hamp hlt hgt hquote hapostrophe
  · decide
  · decide
  · decide
  · decide
  · decide
  · rw [List.mem_singleton]
    exact h.symm

theorem Inlined.stretch_nil (hR : Inlined R) : Stretch R [] [] :=
  ⟨hR.nil, List.not_mem_nil, List.not_mem_nil, Iff.rfl⟩

/-- Escaping keeps the asterisks. -/
theorem Inlined.escape (hR : Inlined R) (text : List Char) : Stretches R (escape text) text := by
  induction text with
  | nil => exact .last hR.stretch_nil
  | cons c text ih =>
    rw [escape_cons]
    by_cases hc : c = '*'
    · subst hc
      exact .cons hR.stretch_nil ih
    · have hstretch : Stretch R (escapeChar c) [c] :=
        ⟨hR.char c, star_notMem_escapeChar hc, by simpa using Ne.symm hc,
          iff_of_false (escapeChar_ne_nil c) (List.cons_ne_nil _ _)⟩
      exact ih.append_left hR hstretch

/-- A stretch between tags. -/
theorem Stretch.tagged {tag : List Char} (htag : R (wrap tag group) rest) (hname : '*' ∉ tag)
    (h : Stretch R group rest) (hne : group ≠ []) : Stretch R (wrap tag group) (id rest) := by
  refine ⟨htag, ?_, h.star', ?_⟩
  · simp [wrap, openTag, closeTag, hname, h.star]
  · exact iff_of_false (List.cons_ne_nil _ _) (mt h.nil_iff.2 hne)

/-- A match of the first expression is one in both texts. -/
theorem Stretches.strongHead (h : Stretches R s c) (hs : StrongHead s group rest) :
    ∃ group' rest', StrongHead c group' rest' ∧ Stretch R group group' ∧
      Stretches R rest rest' := by
  obtain ⟨rfl, hgroup, hne⟩ := hs
  have hfirst : Stretches R ([] ++ '*' :: (group ++ '*' :: ([] ++ '*' :: rest))) c := h
  -- two asterisks in a row have an empty stretch between them
  obtain ⟨empty, c, rfl, hempty, hsecond⟩ := hfirst.split List.not_mem_nil
  obtain ⟨group', c, rfl, hgroup', hthird⟩ := hsecond.split hgroup
  obtain ⟨empty', rest', rfl, hempty', hrest⟩ := hthird.split List.not_mem_nil
  obtain rfl := hempty.nil_iff.1 rfl
  obtain rfl := hempty'.nil_iff.1 rfl
  exact ⟨group', rest', ⟨rfl, hgroup'.star', mt hgroup'.nil_iff.2 hne⟩, hgroup', hrest⟩

/-- A match of the second one too. -/
theorem Stretches.emHead (h : Stretches R s c) (hs : EmHead s group rest) :
    ∃ group' rest', EmHead c group' rest' ∧ Stretch R group group' ∧ Stretches R rest rest' := by
  obtain ⟨rfl, hgroup, hne, hhead⟩ := hs
  obtain ⟨group', rest', rfl, hgroup', hrest⟩ := h.split hgroup
  exact ⟨group', rest', ⟨rfl, hgroup'.star', mt hgroup'.nil_iff.2 hne, mt hrest.head_iff.2 hhead⟩,
    hgroup', hrest⟩

/-- The first substitution keeps the asterisks that it leaves. -/
theorem Inlined.strongs (hR : Inlined R) {start start' : Bool} (h : Stretches R s c) :
    Stretches R (reSub (strongAt (wrap "strong".toList)) start 0 s)
      (reSub (strongAt id) start' 0 c) := by
  induction hlength : s.length using Nat.strong_induction_on generalizing s c start start' with
  | _ n ih =>
    cases h with
    | last h =>
      rw [reSub_strong_last h.star, reSub_strong_last h.star']
      exact .last h
    | @cons run run' s c h hrest =>
      rw [List.length_append, List.length_cons] at hlength
      by_cases hmatch : ∃ group rest, StrongHead s group rest
      · obtain ⟨group, rest, hmatch⟩ := hmatch
        obtain ⟨group', rest', hmatch', hgroup, hbehind⟩ := hrest.strongHead hmatch
        -- the search goes on behind the match
        have hshort : rest.length < n := by
          have := congrArg List.length hmatch.1
          simp only [List.length_cons, List.length_append] at this
          omega
        rw [reSub_strong_match h.star hmatch, reSub_strong_match h.star' hmatch']
        have htagged := hgroup.tagged (hR.strong hgroup.rel) (by decide) hmatch.2.2
        exact ((ih _ hshort hbehind rfl).append_left hR htagged).append_left hR h
      · -- no match in one text is no match in the other
        have hnone' : ∀ group rest, ¬StrongHead c group rest := fun group' rest' hmatch' => by
          obtain ⟨group, rest, hmatch', -⟩ := hrest.swap.strongHead hmatch'
          exact hmatch ⟨group, rest, hmatch'⟩
        have hnone : ∀ group rest, ¬StrongHead s group rest := fun group rest hhead =>
          hmatch ⟨group, rest, hhead⟩
        rw [reSub_strong_none h.star (strongAt_eq_none hnone),
          reSub_strong_none h.star' (strongAt_eq_none hnone')]
        exact .cons h (ih s.length (by omega) hrest rfl)

/-- The second one leaves related texts. -/
theorem Inlined.ems (hR : Inlined R) {start : Bool} (h : Stretches R s c) :
    R (reSub (emAt (wrap "em".toList)) start 0 s) (reSub (emAt id) start 0 c) := by
  induction hlength : s.length using Nat.strong_induction_on generalizing s c start with
  | _ n ih =>
    cases h with
    | last h =>
      rw [reSub_em_last h.star, reSub_em_last h.star']
      exact h.rel
    | @cons run run' s c h hrest =>
      rw [List.length_append, List.length_cons] at hlength
      -- the expression takes the character before the asterisk along, so there must be one
      by_cases hmatch : (start = true ∨ run ≠ []) ∧ ∃ group rest, EmHead s group rest
      · obtain ⟨hfront, group, rest, hmatch⟩ := hmatch
        obtain ⟨group', rest', hmatch', hgroup, hbehind⟩ := hrest.emHead hmatch
        have hshort : rest.length < n := by
          have := congrArg List.length hmatch.1
          simp only [List.length_cons, List.length_append] at this
          omega
        have hfront' : start = true ∨ run' ≠ [] := hfront.imp_right (mt h.nil_iff.2)
        rw [reSub_em_match h.star hfront hmatch, reSub_em_match h.star' hfront' hmatch']
        exact hR.append h.rel (hR.append (hR.em hgroup.rel) (ih _ hshort hbehind rfl))
      · have hnone : emGroup ('*' :: s) = none ∧ emGroup ('*' :: c) = none ∨
            start = false ∧ run = [] := by
          rcases not_and_or.1 hmatch with hfront | hno
          · rw [not_or, Bool.not_eq_true, not_not] at hfront
            exact .inr hfront
          · refine .inl ⟨emGroup_star_eq_none fun group rest hhead => hno ⟨group, rest, hhead⟩,
              emGroup_star_eq_none fun group' rest' hhead' => ?_⟩
            obtain ⟨group, rest, hhead, -⟩ := hrest.swap.emHead hhead'
            exact hno ⟨group, rest, hhead⟩
        have hnone' : emGroup ('*' :: c) = none ∨ start = false ∧ run' = [] :=
          hnone.imp And.right (And.imp_right h.nil_iff.1)
        rw [reSub_em_none h.star (hnone.imp_left And.left), reSub_em_none h.star' hnone']
        have hstar : R ['*'] ['*'] := hR.char '*'
        exact hR.append h.rel (hR.append hstar (ih s.length (by omega) hrest rfl))

/-- **What is kept by concatenation and by the tags relates the marked-up text and the text without
its paired asterisks.** -/
theorem Inlined.inlineHtml (hR : Inlined R) (text : List Char) :
    R (inlineHtml text) (plain text) :=
  hR.ems (hR.strongs (hR.escape text))

end

/-! ## The characters of the plain text -/

section

variable {found : Bool → List Char → Option (ℕ × List Char)} {start : Bool} {skip : ℕ}
  {text : List Char}

/-- A substitution that adds no character. -/
theorem reSub_subset
    (hfound : ∀ start text result, found start text = some result → result.2 ⊆ text) :
    reSub found start skip text ⊆ text := by
  induction text generalizing start skip with
  | nil => exact List.nil_subset _
  | cons c text ih =>
    cases skip with
    | succ skip => exact List.Subset.trans ih (List.subset_cons_self c text)
    | zero =>
      rw [reSub]
      cases hmatch : found start (c :: text) with
      | none => exact List.cons_subset_cons c ih
      | some result =>
        exact List.append_subset.2
          ⟨hfound _ _ _ hmatch, List.Subset.trans ih (List.subset_cons_self c text)⟩

theorem starless_subset (text : List Char) : starless text ⊆ text :=
  (List.takeWhile_prefix _).subset

theorem strongAt_subset (start : Bool) (text : List Char) (result : ℕ × List Char)
    (h : strongAt id start text = some result) : result.2 ⊆ text := by
  unfold strongAt at h
  split at h
  · next text =>
    simp only at h
    split_ifs at h
    obtain rfl := Option.some.inj h
    exact List.Subset.trans (starless_subset text) (by simp)
  · exact absurd h nofun

theorem emGroup_subset {group : List Char} (h : emGroup text = some group) : group ⊆ text := by
  unfold emGroup at h
  split at h
  · next text =>
    simp only at h
    split at h
    · split_ifs at h
      obtain rfl := Option.some.inj h
      exact List.Subset.trans (starless_subset text) (List.subset_cons_self _ _)
    · exact absurd h nofun
  · exact absurd h nofun

theorem emAt_subset (start : Bool) (text : List Char) (result : ℕ × List Char)
    (h : emAt id start text = some result) : result.2 ⊆ text := by
  cases text with
  | nil => exact absurd h nofun
  | cons c text =>
    rw [emAt] at h
    split_ifs at h
    · obtain ⟨group, hgroup, rfl⟩ := Option.map_eq_some_iff.1 h
      exact emGroup_subset hgroup
    · obtain ⟨group, hgroup, rfl⟩ := Option.map_eq_some_iff.1 h
      exact List.cons_subset_cons c (emGroup_subset hgroup)

/-- The plain text has no other characters. -/
theorem plain_subset (text : List Char) : plain text ⊆ text :=
  List.Subset.trans (reSub_subset emAt_subset) (reSub_subset strongAt_subset)

end

end Rfp

end TrackFlow
