import TrackFlow.Agents.AnswerDecoder
import TrackFlow.Json.Grammar

/-!
# The streamed answer and the parsed one

The decoder of streamed answers reads the first member of the text, at any depth, whose key is
written `answer` (or ends in an escaped quote and `answer`) and whose value is a string, and it
reads every escape of it on its own.  `json.loads` reads the member of the outermost object.

* `firstAnswer` : the member the decoder reads.
* `search_literal`, `opens_member` : where the pattern of the decoder matches in a JSON text.
* `found_text` : **the decoder finds the first answer of a value**, by induction on its syntax.
* `literal_body`, `decodeCompletePrefix_body` : the decoder reads a string to its closing quote.
* `emitted_text` : what is streamed of a document.
* `emitted_eq_answer_iff` : **when the streamed answer is the parsed one.**
* `nested_answer_is_streamed`, `surrogate_pair_is_split` : two documents where they differ.
-/

namespace TrackFlow

namespace Agents

open Python Json.Grammar

/-! ## The member that is read -/

/-- The key is written `answer`, or its text ends in an escaped quote and `answer`. -/
def keyed (key : Literal) : Bool :=
  key.body == answerName || decide (quote :: answerName <:+ key.body)

/-- The literal of a value that is a string. -/
def asString : Element → Option Literal
  | .string l => some l
  | _ => none

mutual

/-- The literal of the first member, in the order of the text and at any depth, whose key is
`keyed` and whose value is a string. -/
def firstAnswer : Element → Option Literal
  | .constant _ => none
  | .number _ => none
  | .string _ => none
  | .emptyArray _ => none
  | .array _ first _ rest => (firstAnswer first).or (firstAnswerItems rest)
  | .emptyObject _ => none
  | .object _ first _ rest => (firstAnswerMember first).or (firstAnswerMembers rest)

def firstAnswerItems : Items → Option Literal
  | .close => none
  | .more _ item _ rest => (firstAnswer item).or (firstAnswerItems rest)

def firstAnswerMember : Member → Option Literal
  | .mk key _ _ value => (if keyed key then asString value else none).or (firstAnswer value)

def firstAnswerMembers : Members → Option Literal
  | .close => none
  | .more _ member _ rest => (firstAnswerMember member).or (firstAnswerMembers rest)

end

/-! ## Where the pattern matches -/

variable {text rest behind k : Str} {c : CodePoint}

theorem matchStart_of_ne_quote (h : c ≠ quote) : matchStart (c :: rest) = none := by
  cases hm : matchStart (c :: rest) with
  | none => rfl
  | some behind =>
    obtain ⟨blank, blank', heq, -, -⟩ := matchStart_eq_some_iff.1 hm
    exact absurd (List.cons.inj heq).1 h

/-- Characters that are no quotes are passed over. -/
theorem search_append_of_no_quote {front : Str} (h : ∀ c ∈ front, c ≠ quote) (k : Str) :
    search (front ++ k) = search k := by
  induction front with
  | nil => rfl
  | cons c front ih =>
    rw [List.cons_append, search_cons_of_none (matchStart_of_ne_quote (h c List.mem_cons_self))]
    exact ih fun x hx => h x (List.mem_cons_of_mem c hx)

/-- Every quote stands behind a backslash. -/
def Guarded (text : Str) : Prop :=
  ∀ front back, text = front ++ quote :: back → front.getLast? = some backslash

theorem guarded_cons (hc : c ≠ quote) (h : Guarded text) : Guarded (c :: text) := by
  intro front back heq
  cases front with
  | nil => exact absurd (List.cons.inj heq).1 hc
  | cons x front =>
    have := h front back (List.cons.inj heq).2
    rw [List.getLast?_cons, this]
    rfl

theorem guarded_escape (c : CodePoint) (h : Guarded text) :
    Guarded (backslash :: c :: text) := by
  intro front back heq
  match front, heq with
  | [], heq => exact absurd (List.cons.inj heq).1 (by decide)
  | [x], heq => rw [List.getLast?_singleton, ← (List.cons.inj heq).1]
  | x :: y :: front, heq =>
    have := h front back (List.cons.inj (List.cons.inj heq).2).2
    rw [List.getLast?_cons, List.getLast?_cons, this]
    rfl

theorem hexDigit_ne_quote (x : HexDigit) : (x : CodePoint) ≠ quote := by
  intro h
  have := x.2
  rw [h] at this
  exact absurd this (by decide)

theorem body_cons (p : Piece) (l : Literal) :
    Literal.body (p :: l) = p.text ++ Literal.body l := List.flatMap_cons

/-- The body of a string has quotes behind backslashes only. -/
theorem guarded_body (l : Literal) : Guarded l.body := by
  induction l with
  | nil =>
    intro front back heq
    simp [Literal.body] at heq
  | cons p l ih =>
    rw [body_cons]
    cases p with
    | plain c h => exact guarded_cons h.2.1 ih
    | short e => exact guarded_escape e.letter ih
    | hex x y z w =>
      have hw := guarded_cons (hexDigit_ne_quote w) ih
      have hz := guarded_cons (hexDigit_ne_quote z) hw
      have hy := guarded_cons (hexDigit_ne_quote y) hz
      exact guarded_escape (ofChar 'u') (guarded_cons (hexDigit_ne_quote x) hy)

/-- The pattern matches at a quote if the body up to the closing quote is `answer`. -/
theorem matchStart_body {b : Str} (hb : Guarded b) (k : Str) :
    matchStart (quote :: (b ++ quote :: k)) = if b = answerName then opens k else none := by
  split
  · rename_i hname
    subst hname
    have : after (quote :: answerName ++ [quote]) (quote :: (answerName ++ quote :: k)) = some k :=
      after_eq_some_iff.2 (by simp)
    rw [matchStart, this, Option.bind_some]
  · rename_i hname
    have : after (quote :: answerName ++ [quote]) (quote :: (b ++ quote :: k)) = none := by
      refine Option.eq_none_iff_forall_ne_some.2 fun rest hrest => ?_
      have heq := after_eq_some_iff.1 hrest
      simp only [List.cons_append, List.append_assoc, List.cons.injEq, true_and,
        List.nil_append] at heq
      rcases List.append_eq_append_iff.1 heq with ⟨cut, hcut, hcut'⟩ | ⟨cut, hcut, hcut'⟩
      · cases cut with
        | nil => exact hname (by rw [hcut, List.append_nil])
        | cons x cut =>
          -- `answer` would hold a quote
          rw [← (List.cons.inj hcut').1] at hcut
          have : quote ∈ answerName := by
            rw [hcut]
            simp
          exact absurd this (by decide)
      · cases cut with
        | nil => exact hname (by rw [hcut, List.append_nil])
        | cons x cut =>
          -- the quote behind `answer` would stand within the body
          rw [← (List.cons.inj hcut').1] at hcut
          exact absurd (hb _ _ hcut) (by decide)
    rw [matchStart, this, Option.bind_none]

/-- The letter behind a string's closing quote starts no `answer`. -/
def Apart (k : Str) : Prop := k.head? ≠ some (ofChar 'a')

theorem matchStart_of_apart (h : Apart k) : matchStart (quote :: k) = none := by
  cases hm : matchStart (quote :: k) with
  | none => rfl
  | some behind =>
    obtain ⟨blank, blank', heq, -, -⟩ := matchStart_eq_some_iff.1 hm
    refine absurd ?_ h
    rw [(List.cons.inj heq).2]
    rfl

/-- The search in `b`, the rest of a string, and behind the closing quote. -/
def ReadsTo (k b : Str) : Prop :=
  search (b ++ quote :: k) =
    if quote :: answerName <:+ b then (opens k).or (search k) else search k

theorem readsTo_nil (h : Apart k) : ReadsTo k [] := by
  have : ¬ quote :: answerName <:+ [] := by decide
  rw [ReadsTo, if_neg this]
  exact search_cons_of_none (matchStart_of_apart h)

theorem readsTo_cons {b : Str} (hc : c ≠ quote) (h : ReadsTo k b) : ReadsTo k (c :: b) := by
  have hsuffix : quote :: answerName <:+ c :: b ↔ quote :: answerName <:+ b := by
    rw [List.suffix_cons_iff, or_iff_right]
    exact fun heq => hc (List.cons.inj heq).1.symm
  rw [ReadsTo, List.cons_append, search_cons_of_none (matchStart_of_ne_quote hc), h]
  simp only [hsuffix]

theorem readsTo_quote {b : Str} (hb : Guarded b) (h : ReadsTo k b) : ReadsTo k (quote :: b) := by
  rw [ReadsTo, List.cons_append]
  have hm := matchStart_body hb k
  by_cases hname : b = answerName
  · -- this quote and the name are the end of the string
    subst hname
    have hno : ¬ quote :: answerName <:+ answerName := by decide
    rw [if_pos List.suffix_rfl]
    rw [if_pos rfl] at hm
    cases hopens : opens k with
    | none =>
      rw [search_cons_of_none (hm.trans hopens), h, if_neg hno, Option.none_or]
    | some behind => rw [search_cons_of_some (hm.trans hopens), Option.some_or]
  · rw [if_neg hname] at hm
    have hsuffix : quote :: answerName <:+ quote :: b ↔ quote :: answerName <:+ b := by
      rw [List.suffix_cons_iff, or_iff_right]
      exact fun heq => hname (List.cons.inj heq).2.symm
    rw [search_cons_of_none hm, h]
    simp only [hsuffix]

/-- The search in the body of a string, by induction on its pieces. -/
theorem readsTo_body (l : Literal) (h : Apart k) : ReadsTo k (Literal.body l) := by
  have hbackslash : backslash ≠ quote := by decide
  induction l with
  | nil => exact readsTo_nil h
  | cons p l ih =>
    rw [body_cons]
    cases p with
    | plain c hc => exact readsTo_cons hc.2.1 ih
    | short e =>
      refine readsTo_cons hbackslash ?_
      by_cases hquote : e.letter = quote
      · rw [hquote]
        exact readsTo_quote (guarded_body l) ih
      · exact readsTo_cons hquote ih
    | hex x y z w =>
      have hw := readsTo_cons (hexDigit_ne_quote w) ih
      have hz := readsTo_cons (hexDigit_ne_quote z) hw
      have hy := readsTo_cons (hexDigit_ne_quote y) hz
      exact readsTo_cons hbackslash
        (readsTo_cons (by decide) (readsTo_cons (hexDigit_ne_quote x) hy))

/-- **Where the pattern matches at a string**: if the string is a `keyed` key and the text behind it
opens a string value. -/
theorem search_literal (l : Literal) (h : Apart k) :
    search (Literal.text l ++ k) =
      if keyed l then (opens k).or (search k) else search k := by
  have htext : Literal.text l ++ k = quote :: (Literal.body l ++ quote :: k) := by
    simp [Literal.text, quote]
  have hm := matchStart_body (guarded_body l) k
  have hbody := readsTo_body l h
  have hkeyed : keyed l = true ↔
      Literal.body l = answerName ∨ quote :: answerName <:+ Literal.body l := by
    simp [keyed]
  rw [htext]
  by_cases hname : Literal.body l = answerName
  · have hno : ¬ quote :: answerName <:+ answerName := by decide
    rw [if_pos (hkeyed.2 (.inl hname))]
    rw [if_pos hname] at hm
    rw [ReadsTo, hname, if_neg hno, ← hname] at hbody
    cases hopens : opens k with
    | none => rw [search_cons_of_none (hm.trans hopens), hbody, Option.none_or]
    | some behind => rw [search_cons_of_some (hm.trans hopens), Option.some_or]
  · rw [if_neg hname] at hm
    rw [search_cons_of_none hm, hbody]
    simp only [hkeyed, hname, false_or]

/-! ## Between strings -/

/-- Text behind a value: neither a colon and a string nor the letter `a`. -/
def Quiet (k : Str) : Prop := opens k = none ∧ Apart k

theorem isSpace_of_isBlank (h : isBlank c = true) : c.isSpace = true := by
  simp only [isBlank, Bool.or_eq_true, beq_iff_eq] at h
  obtain ((rfl | rfl) | rfl) | rfl := h <;> decide

theorem opens_blank (b : Blank) (k : Str) : opens (b.text ++ k) = opens k := by
  have : (b.text ++ k).dropWhile CodePoint.isSpace = k.dropWhile CodePoint.isSpace :=
    List.dropWhile_append_of_pos fun x hx => isSpace_of_isBlank (b.all_isBlank x hx)
  rw [opens, this, opens]

theorem opens_cons (hs : c.isSpace = false) (hc : c ≠ colon) : opens (c :: rest) = none := by
  have hdrop : (c :: rest).dropWhile CodePoint.isSpace = c :: rest :=
    List.dropWhile_cons_of_neg (by simp [hs])
  have hafter : after [colon] (c :: rest) = none := by
    refine Option.eq_none_iff_forall_ne_some.2 fun behind h => ?_
    exact hc (List.cons.inj (after_eq_some_iff.1 h)).1
  rw [opens, hdrop, hafter, Option.bind_none]

theorem ne_quote_of_isBlank (h : isBlank c = true) : c ≠ quote := by
  rintro rfl
  exact absurd h (by decide)

theorem search_blank (b : Blank) (k : Str) : search (b.text ++ k) = search k :=
  search_append_of_no_quote (fun x hx => ne_quote_of_isBlank (b.all_isBlank x hx)) k

theorem search_cons_of_ne (h : c ≠ quote) : search (c :: k) = search k :=
  search_cons_of_none (matchStart_of_ne_quote h)

theorem apart_cons (h : c ≠ ofChar 'a') : Apart (c :: rest) := by
  intro hhead
  exact h (Option.some.inj hhead)

theorem apart_blank (b : Blank) (h : Apart k) : Apart (b.text ++ k) := by
  obtain ⟨text, hall⟩ := b
  cases text with
  | nil => exact h
  | cons c rest =>
    refine apart_cons ?_
    rintro rfl
    exact absurd (hall _ List.mem_cons_self) (by decide)

theorem quiet_nil : Quiet [] := ⟨rfl, by simp [Apart]⟩

theorem quiet_cons (hs : c.isSpace = false) (hc : c ≠ colon) (ha : c ≠ ofChar 'a') :
    Quiet (c :: rest) := ⟨opens_cons hs hc, apart_cons ha⟩

theorem quiet_blank (b : Blank) (h : Quiet k) : Quiet (b.text ++ k) :=
  ⟨(opens_blank b k).trans h.1, apart_blank b h.2⟩

theorem quiet_items (rest : Items) (k : Str) : Quiet (rest.text ++ k) := by
  cases rest with
  | close => exact quiet_cons (by decide) (by decide) (by decide)
  | more => exact quiet_cons (by decide) (by decide) (by decide)

theorem quiet_members (rest : Members) (k : Str) : Quiet (rest.text ++ k) := by
  cases rest with
  | close => exact quiet_cons (by decide) (by decide) (by decide)
  | more => exact quiet_cons (by decide) (by decide) (by decide)

/-! ## Values that are no strings -/

/-- A character of a number or a constant. -/
def Bare (c : CodePoint) : Prop := c ≠ quote ∧ c.isSpace = false

instance (c : CodePoint) : Decidable (Bare c) := inferInstanceAs (Decidable (_ ∧ _))

theorem bare_digit : ∀ d, Bare (digit d) := by decide

theorem bare_of_isDigit {c : Char} (h : c.isDigit = true) : Bare (ofChar c) := by
  have hrange : 48 ≤ c.toNat ∧ c.toNat ≤ 57 := by
    simpa [Char.isDigit, UInt32.le_iff_toNat_le] using h
  refine ⟨?_, ?_⟩
  · intro heq
    have := (ofChar_inj.1 heq)
    subst this
    exact absurd hrange (by decide)
  · simp only [CodePoint.isSpace_ofChar, Python.isSpace, Bool.or_eq_false_iff,
      Bool.and_eq_false_iff, decide_eq_false_iff_not, beq_eq_false_iff_ne]
    omega

theorem bare_numeral (n : Numeral) : ∀ x ∈ n.text, Bare x := by
  have hfraction : ∀ x ∈ n.fractionText, Bare x := by
    unfold Numeral.fractionText
    split
    · simp
    · intro x hx
      rcases List.mem_cons.1 hx with rfl | hx
      · decide
      · obtain ⟨d, -, rfl⟩ := List.mem_map.1 hx
        exact bare_digit d
  have hexponent : ∀ x ∈ n.exponentText, Bare x := by
    unfold Numeral.exponentText
    split
    · simp
    · rename_i upper sign first others _
      intro x hx
      rcases List.mem_cons.1 hx with rfl | hx
      · cases upper <;> decide
      rcases List.mem_append.1 hx with hx | hx
      · obtain ⟨minus, -, rfl⟩ := Option.map_eq_some_iff.1 (Option.mem_toList.1 hx)
        cases minus <;> decide
      · obtain ⟨d, -, rfl⟩ := List.mem_map.1 hx
        exact bare_digit d
  intro x hx
  rcases List.mem_append.1 hx with hx | hx
  · split at hx
    · rw [List.mem_singleton.1 hx]
      decide
    · cases hx
  rcases List.mem_append.1 hx with hx | hx
  · obtain ⟨d, hd, rfl⟩ := List.mem_map.1 hx
    exact bare_of_isDigit (Nat.isDigit_of_mem_toDigits (by decide) le_rfl hd)
  rcases List.mem_append.1 hx with hx | hx
  · exact hfraction x hx
  · exact hexponent x hx

theorem bare_constant (n : Constant) : ∀ x ∈ n.text, Bare x := by
  have hall : n.text.all (fun x => decide (Bare x)) = true := by cases n <;> rfl
  exact fun x hx => of_decide_eq_true (List.all_eq_true.1 hall x hx)

/-- A value that is no string starts with neither white space nor a quote. -/
theorem text_of_asString_eq_none {e : Element} (h : asString e = none) :
    ∃ c rest, e.text = c :: rest ∧ Bare c := by
  cases e with
  | constant n =>
    cases htext : n.text with
    | nil => cases n <;> exact absurd htext (by decide)
    | cons c rest => exact ⟨c, rest, htext, bare_constant n c (by simp [htext])⟩
  | number n =>
    cases htext : n.text with
    | nil => simp [Numeral.text, Nat.toDigits_ne_nil] at htext
    | cons c rest => exact ⟨c, rest, htext, bare_numeral n c (by simp [htext])⟩
  | string l => cases h
  | emptyArray b => exact ⟨_, _, rfl, by decide⟩
  | array b first b' rest => exact ⟨_, _, rfl, by decide⟩
  | emptyObject b => exact ⟨_, _, rfl, by decide⟩
  | object b first b' rest => exact ⟨_, _, rfl, by decide⟩

/-- Behind a key the pattern goes on to match if the value is a string. -/
theorem opens_member (b b' : Blank) (value : Element) (k : Str) :
    opens (b.text ++ ofChar ':' :: (b'.text ++ (value.text ++ k))) =
      (asString value).map fun l => Literal.body l ++ quote :: k := by
  have hcolon : colon.isSpace = false := by decide
  have hdrop : (colon :: (b'.text ++ (value.text ++ k))).dropWhile CodePoint.isSpace =
      colon :: (b'.text ++ (value.text ++ k)) :=
    List.dropWhile_cons_of_neg (by simp [hcolon])
  have hafter : after [colon] (colon :: (b'.text ++ (value.text ++ k))) =
      some (b'.text ++ (value.text ++ k)) := after_eq_some_iff.2 rfl
  have hblank : (b'.text ++ (value.text ++ k)).dropWhile CodePoint.isSpace =
      (value.text ++ k).dropWhile CodePoint.isSpace :=
    List.dropWhile_append_of_pos fun x hx => isSpace_of_isBlank (b'.all_isBlank x hx)
  rw [opens_blank, opens]
  change (after [colon] ((colon :: (b'.text ++ (value.text ++ k))).dropWhile _)).bind _ = _
  rw [hdrop, hafter, Option.bind_some, hblank]
  cases hstring : asString value with
  | some l =>
    obtain ⟨rfl⟩ : value = .string l := by
      cases value <;> cases hstring
      rfl
    have hquote : quote.isSpace = false := by decide
    have htext : (Element.string l).text ++ k = quote :: (Literal.body l ++ quote :: k) := by
      simp [Element.text, Literal.text, quote]
    rw [htext, List.dropWhile_cons_of_neg (by simp [hquote])]
    exact after_eq_some_iff.2 rfl
  | none =>
    obtain ⟨c, rest, htext, hq, hs⟩ := text_of_asString_eq_none hstring
    rw [htext, List.cons_append, List.dropWhile_cons_of_neg (by simp [hs])]
    refine Option.eq_none_iff_forall_ne_some.2 fun behind h => ?_
    exact hq (List.cons.inj (after_eq_some_iff.1 h)).1

/-! ## Reading a string -/

theorem quoteIsEscaped_append (encoded : Str) (c : CodePoint) :
    quoteIsEscaped (encoded ++ [c]) = (c == backslash && !quoteIsEscaped encoded) := by
  unfold quoteIsEscaped
  rw [List.reverse_append, List.reverse_singleton, List.singleton_append, List.takeWhile_cons]
  by_cases hc : c = backslash
  · simp only [hc, beq_self_eq_true, if_true, List.length_cons, Bool.true_and]
    generalize (List.takeWhile (· == backslash) encoded.reverse).length = n
    rcases Nat.mod_two_eq_zero_or_one n with hn | hn <;> simp [Nat.add_mod, hn]
  · simp [hc]

namespace AnswerDecoder

variable {d : AnswerDecoder}

theorem scan_cons (h : c ≠ quote ∨ quoteIsEscaped d.encoded = true) :
    scan (c :: rest) d =
      scan rest { d with encoded := d.encoded ++ [c], cursor := d.cursor + 1 } := by
  rw [scan_step, if_neg]
  rintro ⟨hc, hescaped⟩
  rcases h with h | h
  · exact h hc
  · rw [hescaped] at h
    cases h

/-- The scan of a string: an even number of backslashes stands before each of its pieces, so that
it ends at the closing quote. -/
theorem encoded_scan_body (l : Literal) (hd : quoteIsEscaped d.encoded = false) :
    (scan (Literal.body l ++ quote :: k) d).encoded = d.encoded ++ Literal.body l := by
  have hbackslash : backslash ≠ quote := by decide
  induction l generalizing d with
  | nil =>
    rw [Literal.body, List.flatMap_nil, List.nil_append, scan_step, if_pos ⟨rfl, hd⟩,
      List.append_nil]
  | cons p l ih =>
    rw [body_cons, List.append_assoc]
    cases p with
    | plain c hc =>
      have hc' : (c == backslash) = false := beq_eq_false_iff_ne.2 hc.2.2
      rw [Piece.text, List.singleton_append, scan_cons (.inl hc.2.1),
        ih (by rw [quoteIsEscaped_append, hc', Bool.false_and])]
      simp
    | short e =>
      have hodd : quoteIsEscaped (d.encoded ++ [backslash]) = true := by
        rw [quoteIsEscaped_append, hd]
        rfl
      simp only [Piece.text, List.cons_append, List.nil_append]
      rw [scan_cons (c := ofChar '\\') (.inl hbackslash), scan_cons (.inr hodd),
        ih (by
          change quoteIsEscaped (d.encoded ++ [backslash] ++ [e.letter]) = false
          rw [quoteIsEscaped_append, hodd, Bool.not_true, Bool.and_false])]
      simp
    | hex x y z w =>
      have hw : ((w : CodePoint) == backslash) = false := by
        refine beq_eq_false_iff_ne.2 fun h => ?_
        have := w.2
        rw [h] at this
        exact absurd this (by decide)
      simp only [Piece.text, List.cons_append, List.nil_append]
      rw [scan_cons (c := ofChar '\\') (.inl hbackslash),
        scan_cons (c := ofChar 'u') (.inl (by decide)),
        scan_cons (.inl (hexDigit_ne_quote x)), scan_cons (.inl (hexDigit_ne_quote y)),
        scan_cons (.inl (hexDigit_ne_quote z)), scan_cons (.inl (hexDigit_ne_quote w)),
        ih (by rw [quoteIsEscaped_append, hw, Bool.false_and])]
      simp

end AnswerDecoder

open AnswerDecoder

/-- **The decoder reads a string to its closing quote.** -/
theorem literal_body (l : Literal) (k : Str) :
    literal (Literal.body l ++ quote :: k) = Literal.body l :=
  encoded_scan_body l rfl

theorem escapes_lookup : ∀ e : Escape,
    e.letter ≠ ofChar 'u' ∧ escapes.lookup e.letter = some e.char := by
  intro e
  cases e <;> decide

/-- **Every piece of a string is decoded on its own.** -/
theorem decodeCompletePrefix_body (l : Literal) :
    decodeCompletePrefix (Literal.body l) = l.map Piece.char := by
  induction l with
  | nil => rfl
  | cons p l ih =>
    rw [body_cons, List.map_cons, ← ih]
    cases p with
    | plain c hc => exact decodeCompletePrefix_cons hc.2.2
    | short e =>
      obtain ⟨hu, hlookup⟩ := escapes_lookup e
      exact decodeCompletePrefix_escape hu hlookup
    | hex x y z w => exact decodeCompletePrefix_hex (by simp [x.2, y.2, z.2, w.2])

/-! ## The first answer of a value -/

/-- What the decoder reads of a text: the literal behind the leftmost match. -/
def found (text : Str) : Option Str := (search text).map literal

theorem answerText_eq_found (text : Str) :
    answerText text = ((found text).map decodeCompletePrefix).getD [] := by
  unfold answerText found
  cases search text <;> rfl

theorem found_congr (h : search text = search rest) : found text = found rest :=
  congrArg (Option.map literal) h

theorem found_literal (l : Literal) (h : Apart k) :
    found (Literal.text l ++ k) =
      if keyed l then ((opens k).map literal).or (found k) else found k := by
  rw [found, search_literal l h]
  split
  · rw [Option.map_or]
    rfl
  · rfl

/-- Behind an opening bracket, brace or comma. -/
theorem found_open (hc : c ≠ quote) (b : Blank) (k : Str) :
    found (c :: (b.text ++ k)) = found k :=
  found_congr ((search_cons_of_ne hc).trans (search_blank b k))

mutual

/-- **The decoder finds the first answer of a value**, whatever stands behind it. -/
theorem found_text (k : Str) : ∀ e : Element, Quiet k →
    found (e.text ++ k) = ((firstAnswer e).map Literal.body).or (found k)
  | .constant n, _ => by
    rw [firstAnswer]
    exact found_congr (search_append_of_no_quote (fun x hx => (bare_constant n x hx).1) k)
  | .number n, _ => by
    rw [firstAnswer]
    exact found_congr (search_append_of_no_quote (fun x hx => (bare_numeral n x hx).1) k)
  | .string l, hk => by
    rw [firstAnswer, Element.text, found_literal l hk.2, hk.1]
    simp
  | .emptyArray b, _ => by
    rw [firstAnswer, Element.text, List.cons_append, List.append_assoc,
      found_open (by decide)]
    exact found_congr (search_cons_of_ne (by decide))
  | .array b first b' rest, _ => by
    rw [firstAnswer, Element.text, List.cons_append, List.append_assoc,
      found_open (by decide), List.append_assoc, List.append_assoc,
      found_text _ first (quiet_blank b' (quiet_items rest k)),
      found_congr (search_blank b' _), found_items k rest, Option.map_or, Option.or_assoc]
  | .emptyObject b, _ => by
    rw [firstAnswer, Element.text, List.cons_append, List.append_assoc,
      found_open (by decide)]
    exact found_congr (search_cons_of_ne (by decide))
  | .object b first b' rest, _ => by
    rw [firstAnswer, Element.text, List.cons_append, List.append_assoc,
      found_open (by decide), List.append_assoc, List.append_assoc,
      found_member _ first (quiet_blank b' (quiet_members rest k)),
      found_congr (search_blank b' _), found_members k rest, Option.map_or, Option.or_assoc]

theorem found_items (k : Str) : ∀ rest : Items,
    found (rest.text ++ k) = ((firstAnswerItems rest).map Literal.body).or (found k)
  | .close => by
    rw [firstAnswerItems]
    exact found_congr (search_cons_of_ne (by decide))
  | .more b item b' rest => by
    rw [firstAnswerItems, Items.text, List.cons_append, List.append_assoc,
      found_open (by decide), List.append_assoc, List.append_assoc,
      found_text _ item (quiet_blank b' (quiet_items rest k)),
      found_congr (search_blank b' _), found_items k rest, Option.map_or, Option.or_assoc]

theorem found_member (k : Str) : ∀ m : Member, Quiet k →
    found (m.text ++ k) = ((firstAnswerMember m).map Literal.body).or (found k)
  | .mk key b b' value, hk => by
    have hapart : Apart (b.text ++ ofChar ':' :: (b'.text ++ (value.text ++ k))) :=
      apart_blank b (apart_cons (by decide))
    have hvalue : found (b.text ++ ofChar ':' :: (b'.text ++ (value.text ++ k))) =
        ((firstAnswer value).map Literal.body).or (found k) := by
      rw [found_congr (search_blank b _), found_open (by decide), found_text k value hk]
    have hopens : (opens (b.text ++ ofChar ':' :: (b'.text ++ (value.text ++ k)))).map literal =
        (asString value).map Literal.body := by
      rw [opens_member, Option.map_map]
      congr 1
      funext l
      exact literal_body l k
    rw [firstAnswerMember, Member.text, List.append_assoc, List.append_assoc, List.cons_append,
      List.append_assoc, found_literal key hapart, hvalue, hopens]
    split
    · rw [Option.map_or, Option.or_assoc]
    · rw [Option.none_or]

theorem found_members (k : Str) : ∀ rest : Members,
    found (rest.text ++ k) = ((firstAnswerMembers rest).map Literal.body).or (found k)
  | .close => by
    rw [firstAnswerMembers]
    exact found_congr (search_cons_of_ne (by decide))
  | .more b member b' rest => by
    rw [firstAnswerMembers, Members.text, List.cons_append, List.append_assoc,
      found_open (by decide), List.append_assoc, List.append_assoc,
      found_member _ member (quiet_blank b' (quiet_members rest k)),
      found_congr (search_blank b' _), found_members k rest, Option.map_or, Option.or_assoc]

end

/-! ## The streamed answer -/

/-- What is read of a string piece by piece. -/
def spelled (l : Literal) : Str := l.map Piece.char

/-- **What is streamed of a document**: the first answer in the order of the text, read piece by
piece, however the text is cut into chunks. -/
theorem emitted_text {d : Document} {chunks : List Str} (h : chunks.flatten = d.text) :
    emitted chunks = ((firstAnswer d.element).map spelled).getD [] := by
  have hquiet : Quiet d.behind.text := by
    rw [← List.append_nil d.behind.text]
    exact quiet_blank d.behind quiet_nil
  have hbehind : found d.behind.text = none := by
    have := search_blank d.behind []
    rw [List.append_nil] at this
    exact found_congr this
  have hfound : found d.text = (firstAnswer d.element).map Literal.body := by
    rw [Document.text, found_congr (search_blank d.before _), found_text _ d.element hquiet,
      hbehind, Option.or_none]
  rw [emitted_eq, h, answerText_eq_found, hfound, Option.map_map]
  congr 2
  funext l
  exact decodeCompletePrefix_body l

/-- The answer of the final parse: the payload's member `answer`, if the payload is a dictionary and
the member a string. -/
def parsedAnswer (payload : Value) : Option Str :=
  match payload with
  | .dict items =>
    match items.lookup answerName with
    | some (.str a) => some a
    | _ => none
  | _ => none

/-- **When the streamed answer is the parsed one.**  A document is an object with a string `a` as
its member `answer`.  Whatever the chunks, what is streamed is `a` if and only if the first member
of the text, at any depth, whose key is written `answer` (or ends in an escaped quote and `answer`)
and whose value is a string spells `a` with each of its escapes read on its own, or there is no such
member and `a` is empty. -/
theorem emitted_eq_answer_iff (d : Document) (chunks : List Str) (hchunks : chunks.flatten = d.text)
    (a : Str) (_hanswer : parsedAnswer d.loads = some a) :
    emitted chunks = a ↔
      (∃ l, firstAnswer d.element = some l ∧ spelled l = a) ∨
        firstAnswer d.element = none ∧ a = [] := by
  rw [emitted_text hchunks]
  cases firstAnswer d.element with
  | none => simp [eq_comm]
  | some l => simp

/-- The string of a text without quotes, backslashes and control characters. -/
def verbatim (s : String) : Literal :=
  (ofString s).filterMap fun c =>
    if h : 32 ≤ c.val ∧ c ≠ ofChar '"' ∧ c ≠ ofChar '\\' then some (.plain c h) else none

/-- A member without white space. -/
def memberOf (key : String) (value : Element) : Member := .mk (verbatim key) .empty .empty value

/-- `{"answer":"a","memory_candidate":null}`. -/
def plainAnswer : Document :=
  ⟨.empty, .object .empty (memberOf "answer" (.string (verbatim "a"))) .empty
    (.more .empty (memberOf "memory_candidate" (.constant .null)) .empty .close), .empty⟩

theorem emitted_plainAnswer :
    emitted [ofString "\x7b\"answer\":\"a", ofString "\",\"memory_candidate\":null\x7d"] =
      ofString "a" :=
  (emitted_eq_answer_iff plainAnswer _ (by decide) _ (by decide)).2
    (.inl ⟨verbatim "a", rfl, by decide⟩)

/-- `{"memory_candidate":{"answer":"b"},"answer":"a"}`. -/
def nestedAnswer : Document :=
  ⟨.empty, .object .empty
    (memberOf "memory_candidate"
      (.object .empty (memberOf "answer" (.string (verbatim "b"))) .empty .close)) .empty
    (.more .empty (memberOf "answer" (.string (verbatim "a"))) .empty .close), .empty⟩

/-- The answer of a nested object is streamed in place of the answer. -/
theorem nested_answer_is_streamed :
    ¬ ∀ (d : Document) (chunks : List Str) (a : Str), chunks.flatten = d.text →
      parsedAnswer d.loads = some a → emitted chunks = a := by
  intro h
  have htext : [ofString "\x7b\"memory_candidate\":\x7b\"answer\":\"b\"\x7d,",
      ofString "\"answer\":\"a\"\x7d"].flatten = nestedAnswer.text := by decide
  have hanswer := h nestedAnswer _ (ofString "a") htext (by decide)
  rw [emitted_text htext] at hanswer
  exact absurd hanswer (by decide)

/-- `{"answer":"\ud83d\ude00"}`. -/
def pairAnswer : Document :=
  let digit (c : Char) (h : (ofChar c).isHex = true) : HexDigit := ⟨ofChar c, h⟩
  ⟨.empty, .object .empty (.mk (verbatim "answer") .empty .empty (.string
    [.hex (digit 'd' rfl) (digit '8' rfl) (digit '3' rfl) (digit 'd' rfl),
      .hex (digit 'd' rfl) (digit 'e' rfl) (digit '0' rfl) (digit '0' rfl)])) .empty .close,
    .empty⟩

/-- A code point that is spelled by two escapes is streamed as two lone surrogates. -/
theorem surrogate_pair_is_split :
    parsedAnswer pairAnswer.loads = some [0x1f600] ∧
      emitted [pairAnswer.text] = [0xd83d, 0xde00] := by
  refine ⟨by decide, ?_⟩
  rw [emitted_text (d := pairAnswer) (by simp)]
  decide

end Agents

end TrackFlow
