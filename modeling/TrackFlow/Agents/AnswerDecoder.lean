import TrackFlow.Python.CodePoint

/-!
# The decoder of streamed answers

The provider streams a JSON object; `_AnswerDeltaDecoder` passes the decoded text of its member
`answer` on while the object is still arriving.  The model follows the class: the text received so
far, the position of the scan, the characters of the literal and the length that was passed on.

* `search` : what stands behind the leftmost match of `"answer"\s*:\s*"`.
* `search_append` : **a match stays the leftmost match when more text arrives.**
* `decodeCompletePrefix_append` : more characters only add to what is decoded.
* `AnswerDecoder.Fed` : the decoder's state told by the text received so far, whatever the chunks.
* `emitted_eq` : **what the decoder emits is a function of the text.**
* `emitted_of_flatten_eq` : two partitions of a text into chunks emit the same text.
-/

namespace TrackFlow

namespace Agents

open Python

/-- The code point `"`. -/
def quote : CodePoint := ofChar '"'

/-- The code point `\`. -/
def backslash : CodePoint := ofChar '\\'

/-- The code point `:`. -/
def colon : CodePoint := ofChar ':'

/-- The letters `answer`. -/
def answerName : Str := ofString "answer"

/-- What stands behind `front` in a text that starts with it. -/
def after (front text : Str) : Option Str :=
  if front <+: text then some (text.drop front.length) else none

/-- A match of `\s*:\s*"` at the start of a text: what stands behind it. -/
def opens (text : Str) : Option Str :=
  (after [colon] (text.dropWhile CodePoint.isSpace)).bind fun rest =>
    after [quote] (rest.dropWhile CodePoint.isSpace)

/-- A match of `"answer"\s*:\s*"` at the start of a text: what stands behind it. -/
def matchStart (text : Str) : Option Str := (after (quote :: answerName ++ [quote]) text).bind opens

/-- `_START.search`: what stands behind the leftmost match. -/
def search : Str → Option Str
  | [] => none
  | c :: rest =>
    match matchStart (c :: rest) with
    | some behind => some behind
    | none => search rest

/-- `_quote_is_escaped`: the number of backslashes at the end is odd. -/
def quoteIsEscaped (encoded : Str) : Bool :=
  (encoded.reverse.takeWhile (· == backslash)).length % 2 == 1

/-- The escapes of one character. -/
def escapes : List (CodePoint × CodePoint) :=
  [(quote, quote), (backslash, backslash), (ofChar '/', ofChar '/'), (ofChar 'b', ofChar '\x08'),
    (ofChar 'f', ofChar '\x0c'), (ofChar 'n', ofChar '\n'), (ofChar 'r', ofChar '\r'),
    (ofChar 't', ofChar '\t')]

/-- `_decode_complete_prefix`: it stops before an escape that is cut off or is none. -/
def decodeCompletePrefix : Str → Str
  | [] => []
  | c :: rest =>
    if c = backslash then
      match rest with
      | [] => []
      | escape :: rest =>
        if escape = ofChar 'u' then
          match rest with
          | a :: b :: c :: d :: rest =>
            if [a, b, c, d].all CodePoint.isHex then chrHex a b c d :: decodeCompletePrefix rest
            else []
          | _ => []
        else
          match escapes.lookup escape with
          | some replacement => replacement :: decodeCompletePrefix rest
          | none => []
    else c :: decodeCompletePrefix rest

/-- `_AnswerDeltaDecoder`. -/
structure AnswerDecoder where
  /-- `_source` -/
  source : Str
  /-- `_cursor` -/
  cursor : ℕ
  /-- `_started` -/
  started : Bool
  /-- `_encoded` -/
  encoded : Str
  /-- `_decoded_length` -/
  decodedLength : ℕ
  /-- `_finished` -/
  finished : Bool

namespace AnswerDecoder

/-- `__init__` -/
def init : AnswerDecoder := ⟨[], 0, false, [], 0, false⟩

/-- The start of the answer is looked for until it is found. -/
def locate (d : AnswerDecoder) : Option AnswerDecoder :=
  if d.started then some d
  else (search d.source).map fun behind =>
    { d with started := true, cursor := d.source.length - behind.length }

/-- The loop of `feed` over the characters from the cursor on. -/
def scan : Str → AnswerDecoder → AnswerDecoder
  | [], d => d
  | c :: rest, d =>
    if c = quote ∧ quoteIsEscaped d.encoded = false then { d with finished := true }
    else scan rest { d with encoded := d.encoded ++ [c], cursor := d.cursor + 1 }

/-- `feed`: the text that is passed on, and the decoder behind it. -/
def feed (d : AnswerDecoder) (delta : Str) : Str × AnswerDecoder :=
  if d.finished || delta.isEmpty then ([], d)
  else
    let d := { d with source := d.source ++ delta }
    match d.locate with
    | none => ([], d)
    | some d =>
      let d := scan (d.source.drop d.cursor) d
      let decoded := decodeCompletePrefix d.encoded
      (decoded.drop d.decodedLength, { d with decodedLength := decoded.length })

/-- The texts passed on for one chunk after another, as one text. -/
def feedAll : AnswerDecoder → List Str → Str
  | _, [] => []
  | d, chunk :: chunks => (d.feed chunk).1 ++ feedAll (d.feed chunk).2 chunks

end AnswerDecoder

/-- What a new decoder emits for the chunks. -/
def emitted (chunks : List Str) : Str := AnswerDecoder.init.feedAll chunks

/-! ## The search -/

variable {text rest behind more : Str} {c : CodePoint}

theorem after_eq_some_iff {front : Str} : after front text = some rest ↔ text = front ++ rest := by
  unfold after
  constructor
  · intro h
    split at h
    · rename_i hp
      obtain ⟨tail, rfl⟩ := hp
      simpa using h
    · cases h
  · rintro rfl
    simp

/-- What a match of `\s*:\s*"` looks like. -/
theorem opens_eq_some_iff : opens text = some behind ↔
    ∃ blank blank' : Str, text = blank ++ colon :: (blank' ++ quote :: behind) ∧
      (∀ x ∈ blank, x.isSpace = true) ∧ ∀ x ∈ blank', x.isSpace = true := by
  have hcolon : colon.isSpace = false := by decide
  have hquote : quote.isSpace = false := by decide
  constructor
  · intro h
    obtain ⟨rest, hrest, hbehind⟩ := Option.bind_eq_some_iff.1 h
    refine ⟨text.takeWhile CodePoint.isSpace, rest.takeWhile CodePoint.isSpace, ?_,
      fun x hx => List.mem_takeWhile_imp hx, fun x hx => List.mem_takeWhile_imp hx⟩
    have h1 := after_eq_some_iff.1 hrest
    have h2 := after_eq_some_iff.1 hbehind
    have h3 := (List.takeWhile_append_dropWhile (p := CodePoint.isSpace) (l := text)).symm
    have h4 := (List.takeWhile_append_dropWhile (p := CodePoint.isSpace) (l := rest)).symm
    rw [h2, List.singleton_append] at h4
    rw [h1, List.singleton_append] at h3
    rw [← h4]
    exact h3
  · rintro ⟨blank, blank', rfl, hb, hb'⟩
    have h1 : (blank ++ colon :: (blank' ++ quote :: behind)).dropWhile CodePoint.isSpace =
        colon :: (blank' ++ quote :: behind) := by
      rw [List.dropWhile_append_of_pos hb, List.dropWhile_cons_of_neg (by simp [hcolon])]
    have h2 : (blank' ++ quote :: behind).dropWhile CodePoint.isSpace = quote :: behind := by
      rw [List.dropWhile_append_of_pos hb', List.dropWhile_cons_of_neg (by simp [hquote])]
    simp only [opens, h1]
    have h3 : after [colon] (colon :: (blank' ++ quote :: behind)) =
        some (blank' ++ quote :: behind) := after_eq_some_iff.2 rfl
    rw [h3, Option.bind_some, h2]
    exact after_eq_some_iff.2 rfl

/-- What a match of `"answer"\s*:\s*"` looks like: it holds three quotes, the last one at its
end. -/
theorem matchStart_eq_some_iff : matchStart text = some behind ↔
    ∃ blank blank' : Str,
      text = quote :: answerName ++ quote :: (blank ++ colon :: (blank' ++ quote :: behind)) ∧
      (∀ x ∈ blank, x.isSpace = true) ∧ ∀ x ∈ blank', x.isSpace = true := by
  constructor
  · intro h
    obtain ⟨rest, hrest, hopens⟩ := Option.bind_eq_some_iff.1 h
    obtain ⟨blank, blank', hb, hs, hs'⟩ := opens_eq_some_iff.1 hopens
    refine ⟨blank, blank', ?_, hs, hs'⟩
    rw [after_eq_some_iff.1 hrest, hb]
    simp
  · rintro ⟨blank, blank', rfl, hs, hs'⟩
    refine Option.bind_eq_some_iff.2 ⟨blank ++ colon :: (blank' ++ quote :: behind), ?_, ?_⟩
    · exact after_eq_some_iff.2 (by simp)
    · exact opens_eq_some_iff.2 ⟨blank, blank', rfl, hs, hs'⟩

theorem matchStart_append (h : matchStart text = some behind) (more : Str) :
    matchStart (text ++ more) = some (behind ++ more) := by
  obtain ⟨blank, blank', rfl, hs, hs'⟩ := matchStart_eq_some_iff.1 h
  exact matchStart_eq_some_iff.2 ⟨blank, blank', by simp, hs, hs'⟩

theorem count_quote_blank {blank : Str} (h : ∀ x ∈ blank, x.isSpace = true) :
    blank.count quote = 0 := by
  refine List.count_eq_zero.2 fun hq => ?_
  have := h quote hq
  exact absurd this (by decide)

theorem three_le_count_of_matchStart (h : matchStart text = some behind) :
    3 ≤ text.count quote := by
  obtain ⟨blank, blank', rfl, -, -⟩ := matchStart_eq_some_iff.1 h
  simp only [List.cons_append, List.count_cons, List.count_append, beq_self_eq_true]
  simp
  omega

/-- Before its last quote, a match holds two. -/
theorem count_matchStart_front {blank blank' : Str} (hs : ∀ x ∈ blank, x.isSpace = true)
    (hs' : ∀ x ∈ blank', x.isSpace = true) :
    (quote :: answerName ++ quote :: (blank ++ colon :: blank')).count quote = 2 := by
  have hname : answerName.count quote = 0 := by decide
  have hcolon : (colon == quote) = false := by decide
  simp [List.count_cons, count_quote_blank hs, count_quote_blank hs', hname, hcolon]

/-- A match that needs more than the text has begins with the whole text, which then lacks the last
one of the three quotes. -/
theorem count_le_two_of_matchStart_append (hnone : matchStart text = none)
    (h : matchStart (text ++ more) = some behind) : text.count quote ≤ 2 := by
  obtain ⟨blank, blank', heq, hs, hs'⟩ := matchStart_eq_some_iff.1 h
  have hfront := count_matchStart_front hs hs'
  have heq' : text ++ more =
      (quote :: answerName ++ quote :: (blank ++ colon :: blank')) ++ quote :: behind := by
    rw [heq]
    simp
  rcases List.append_eq_append_iff.1 heq' with ⟨cut, hcut, -⟩ | ⟨cut, hcut, hcut'⟩
  · -- the text ends before the last quote
    rw [hcut, List.count_append] at hfront
    omega
  · cases cut with
    | nil =>
      rw [List.append_nil] at hcut
      rw [hcut, hfront]
    | cons x cut =>
      -- the match lies within the text
      obtain ⟨rfl, rfl⟩ := List.cons.inj hcut'
      have : matchStart text = some cut :=
        matchStart_eq_some_iff.2 ⟨blank, blank', by rw [hcut]; simp, hs, hs'⟩
      rw [hnone] at this
      cases this

theorem search_cons_of_none (h : matchStart (c :: rest) = none) :
    search (c :: rest) = search rest := by
  rw [search, h]

theorem search_cons_of_some (h : matchStart (c :: rest) = some behind) :
    search (c :: rest) = some behind := by
  rw [search, h]

theorem three_le_count_of_search (h : search text = some behind) : 3 ≤ text.count quote := by
  induction text with
  | nil => cases h
  | cons c rest ih =>
    cases hm : matchStart (c :: rest) with
    | some b => exact three_le_count_of_matchStart hm
    | none =>
      rw [search_cons_of_none hm] at h
      exact (ih h).trans (List.count_le_count_cons)

/-- What stands behind the match is the end of the text. -/
theorem search_suffix (h : search text = some behind) : behind <:+ text := by
  induction text with
  | nil => cases h
  | cons c rest ih =>
    cases hm : matchStart (c :: rest) with
    | some b =>
      rw [search_cons_of_some hm, Option.some.injEq] at h
      obtain ⟨blank, blank', heq, -, -⟩ := matchStart_eq_some_iff.1 hm
      refine ⟨quote :: answerName ++ quote :: (blank ++ colon :: (blank' ++ [quote])), ?_⟩
      rw [heq, h]
      simp
    | none =>
      rw [search_cons_of_none hm] at h
      exact (ih h).trans (List.suffix_cons c rest)

/-- **A match stays the leftmost match when more text arrives**: a match that begins before it and
ends in the new text would hold all the old text but its own last quote, and so less than the three
quotes the old match has. -/
theorem search_append (h : search text = some behind) (more : Str) :
    search (text ++ more) = some (behind ++ more) := by
  induction text with
  | nil => cases h
  | cons c rest ih =>
    cases hm : matchStart (c :: rest) with
    | some b =>
      rw [search_cons_of_some hm, Option.some.injEq] at h
      subst h
      exact search_cons_of_some (matchStart_append hm more)
    | none =>
      have hthree := three_le_count_of_search h
      rw [search_cons_of_none hm] at h
      rw [List.cons_append, search_cons_of_none _, ih h]
      cases hmore : matchStart (c :: (rest ++ more)) with
      | none => rfl
      | some b =>
        have := count_le_two_of_matchStart_append hm hmore
        omega

/-! ## Decoding -/

/-- One round of the loop. -/
theorem decodeCompletePrefix_step (c : CodePoint) (rest : Str) :
    decodeCompletePrefix (c :: rest) =
      if c = backslash then
        match rest with
        | [] => []
        | escape :: rest =>
          if escape = ofChar 'u' then
            match rest with
            | a :: b :: c :: d :: rest =>
              if [a, b, c, d].all CodePoint.isHex then chrHex a b c d :: decodeCompletePrefix rest
              else []
            | _ => []
          else
            match escapes.lookup escape with
            | some replacement => replacement :: decodeCompletePrefix rest
            | none => []
      else c :: decodeCompletePrefix rest := by
  rw [decodeCompletePrefix.eq_def]
  rfl

theorem decodeCompletePrefix_cons (h : c ≠ backslash) :
    decodeCompletePrefix (c :: text) = c :: decodeCompletePrefix text := by
  simp only [decodeCompletePrefix_step, h, if_false]

/-- Reading one more complete unit. -/
theorem decodeCompletePrefix_escape {escape replacement : CodePoint} (hu : escape ≠ ofChar 'u')
    (h : escapes.lookup escape = some replacement) :
    decodeCompletePrefix (backslash :: escape :: text) =
      replacement :: decodeCompletePrefix text := by
  simp only [decodeCompletePrefix_step, if_true, hu, if_false, h]

theorem decodeCompletePrefix_hex {x y z w : CodePoint}
    (h : [x, y, z, w].all CodePoint.isHex = true) :
    decodeCompletePrefix (backslash :: ofChar 'u' :: x :: y :: z :: w :: text) =
      chrHex x y z w :: decodeCompletePrefix text := by
  simp only [decodeCompletePrefix_step, if_true, h]

/-- More characters only add to what is decoded: a cut-off escape is held back whole. -/
theorem decodeCompletePrefix_append (text more : Str) :
    decodeCompletePrefix text <+: decodeCompletePrefix (text ++ more) := by
  fun_induction decodeCompletePrefix text with
  | case1 => exact List.nil_prefix
  | case2 => exact List.nil_prefix
  | case3 x y z w rest hall ih =>
    simp only [List.cons_append]
    rw [decodeCompletePrefix_hex hall]
    exact List.prefix_cons_inj _ |>.2 ih
  | case4 => exact List.nil_prefix
  | case5 => exact List.nil_prefix
  | case6 escape rest hu replacement hl ih =>
    simp only [List.cons_append]
    rw [decodeCompletePrefix_escape hu hl]
    exact List.prefix_cons_inj _ |>.2 ih
  | case7 => exact List.nil_prefix
  | case8 c rest hc ih =>
    rw [List.cons_append, decodeCompletePrefix_cons hc]
    exact List.prefix_cons_inj _ |>.2 ih

/-! ## The scan -/

namespace AnswerDecoder

variable {d d' : AnswerDecoder}

theorem scan_step (c : CodePoint) (rest : Str) (d : AnswerDecoder) :
    scan (c :: rest) d =
      if c = quote ∧ quoteIsEscaped d.encoded = false then { d with finished := true }
      else scan rest { d with encoded := d.encoded ++ [c], cursor := d.cursor + 1 } := rfl

/-- What the closing quote and the other characters leave alone, the loop leaves alone. -/
theorem scan_keeps {α : Type*} (f : AnswerDecoder → α)
    (hfinished : ∀ d, f { d with finished := true } = f d)
    (hencoded : ∀ d encoded cursor, f { d with encoded := encoded, cursor := cursor } = f d)
    (text : Str) (d : AnswerDecoder) : f (scan text d) = f d := by
  induction text generalizing d with
  | nil => rfl
  | cons c rest ih =>
    rw [scan_step]
    split
    · exact hfinished d
    · exact (ih _).trans (hencoded d _ _)

@[simp] theorem scan_source (text : Str) (d : AnswerDecoder) :
    (scan text d).source = d.source :=
  scan_keeps source (fun _ => rfl) (fun _ _ _ => rfl) text d

@[simp] theorem scan_started (text : Str) (d : AnswerDecoder) :
    (scan text d).started = d.started :=
  scan_keeps started (fun _ => rfl) (fun _ _ _ => rfl) text d

@[simp] theorem scan_decodedLength (text : Str) (d : AnswerDecoder) :
    (scan text d).decodedLength = d.decodedLength :=
  scan_keeps decodedLength (fun _ => rfl) (fun _ _ _ => rfl) text d

/-- The literal and its end depend on the characters of the literal so far only. -/
theorem scan_congr (text : Str) (he : d.encoded = d'.encoded) (hf : d.finished = d'.finished) :
    (scan text d).encoded = (scan text d').encoded ∧
      (scan text d).finished = (scan text d').finished := by
  induction text generalizing d d' with
  | nil => exact ⟨he, hf⟩
  | cons c rest ih =>
    simp only [scan_step, he]
    split
    · simp
    · exact ih rfl hf

/-- A literal that has not ended holds all the characters. -/
theorem scan_of_unfinished (hd : (scan text d).finished = false) :
    (scan text d).encoded = d.encoded ++ text ∧
      (scan text d).cursor = d.cursor + text.length := by
  induction text generalizing d with
  | nil => simp [scan]
  | cons c rest ih =>
    rw [scan_step] at hd ⊢
    split at hd
    · cases hd
    · rename_i hc
      rw [if_neg hc]
      have := ih hd
      simp only [List.append_assoc, List.singleton_append, List.length_cons] at this ⊢
      exact ⟨this.1, by omega⟩

theorem scan_prefix (text : Str) (d : AnswerDecoder) : d.encoded <+: (scan text d).encoded := by
  induction text generalizing d with
  | nil => exact List.prefix_rfl
  | cons c rest ih =>
    rw [scan_step]
    split
    · exact List.prefix_rfl
    · exact (List.prefix_append d.encoded [c]).trans (ih { d with encoded := _, cursor := _ })

theorem scan_append (hd : (scan text d).finished = false) (more : Str) :
    scan (text ++ more) d = scan more (scan text d) := by
  induction text generalizing d with
  | nil => rfl
  | cons c rest ih =>
    rw [scan_step] at hd
    rw [List.cons_append, scan_step, scan_step]
    split at hd
    · cases hd
    · rename_i hc
      rw [if_neg hc, if_neg hc]
      exact ih hd

theorem scan_append_of_finished (hd : d.finished = false) (h : (scan text d).finished = true)
    (more : Str) : scan (text ++ more) d = scan text d := by
  induction text generalizing d with
  | nil => exact absurd (hd.symm.trans h) Bool.false_ne_true
  | cons c rest ih =>
    rw [scan_step] at h
    rw [List.cons_append, scan_step, scan_step]
    split at h
    · rename_i hc
      rw [if_pos hc, if_pos hc]
    · rename_i hc
      rw [if_neg hc, if_neg hc]
      exact ih hd h

end AnswerDecoder

open AnswerDecoder

/-- The characters of a literal up to its closing quote. -/
def literal (text : Str) : Str := (scan text init).encoded

/-- The literal has a closing quote. -/
def closed (text : Str) : Bool := (scan text init).finished

/-- The text a decoder emits in all for a text: the decoded literal behind the leftmost match. -/
def answerText (text : Str) : Str :=
  match search text with
  | none => []
  | some behind => decodeCompletePrefix (literal behind)

/-! ## The state by the text received so far -/

/-- The decoder's state after the chunks of a text. -/
structure AnswerDecoder.Fed (text : Str) (d : AnswerDecoder) : Prop where
  waiting : search text = none → d = { init with source := text }
  started : ∀ behind, search text = some behind → d.started = true
  encoded : ∀ behind, search text = some behind → d.encoded = literal behind
  finished : ∀ behind, search text = some behind → d.finished = closed behind
  decodedLength : ∀ behind, search text = some behind →
    d.decodedLength = (decodeCompletePrefix (literal behind)).length
  unfinished : ∀ behind, search text = some behind → closed behind = false →
    d.source = text ∧ d.cursor = text.length

theorem AnswerDecoder.fed_init : Fed [] init where
  waiting _ := rfl
  started _ h := by cases h
  encoded _ h := by cases h
  finished _ h := by cases h
  decodedLength _ h := by cases h
  unfinished _ h := by cases h

theorem literal_append_of_closed (h : closed behind = true) (more : Str) :
    literal (behind ++ more) = literal behind ∧ closed (behind ++ more) = true := by
  have := scan_append_of_finished (d := init) rfl h more
  exact ⟨congrArg encoded this, (congrArg finished this).trans h⟩

/-- The literal behind a decoder's cursor continues the one it has read. -/
theorem scan_of_encoded {d : AnswerDecoder} (h : closed behind = false)
    (he : d.encoded = literal behind) (hf : d.finished = false) (more : Str) :
    (scan more d).encoded = literal (behind ++ more) ∧
      (scan more d).finished = closed (behind ++ more) := by
  have hcongr := scan_congr (d := d) more he (hf.trans h.symm)
  rw [← scan_append h] at hcongr
  exact hcongr

theorem literal_prefix (behind more : Str) : literal behind <+: literal (behind ++ more) := by
  cases h : closed behind with
  | true =>
    have hbody := (literal_append_of_closed h more).1
    simp only [hbody, List.prefix_rfl]
  | false =>
    have := congrArg encoded (scan_append h more)
    rw [literal, literal, this]
    exact scan_prefix more _

theorem answerText_of_none (h : search text = none) : answerText text = [] := by
  rw [answerText, h]

theorem answerText_of_some (h : search text = some behind) :
    answerText text = decodeCompletePrefix (literal behind) := by
  rw [answerText, h]

/-- The state of a decoder that has just scanned a text to its end. -/
theorem AnswerDecoder.fed_scan {d : AnswerDecoder} (h : search text = some behind)
    (hstarted : d.started = true) (hsource : d.source = text)
    (hcursor : d.cursor + rest.length = text.length)
    (hencoded : (scan rest d).encoded = literal behind)
    (hfinished : (scan rest d).finished = closed behind) :
    Fed text { scan rest d with
      decodedLength := (decodeCompletePrefix (scan rest d).encoded).length } := by
  have hsome {b : Str} (hb : search text = some b) : b = behind :=
    Option.some.inj (hb.symm.trans h)
  refine ⟨fun hnone => ?_, fun b hb => ?_, fun b hb => ?_, fun b hb => ?_, fun b hb => ?_,
    fun b hb hc => ?_⟩
  · rw [hnone] at h
    cases h
  · simpa using hstarted
  · rw [hsome hb]
    exact hencoded
  · rw [hsome hb]
    exact hfinished
  · rw [hsome hb, hencoded]
  · rw [hsome hb] at hc
    refine ⟨by simpa using hsource, ?_⟩
    exact (scan_of_unfinished (hfinished.trans hc)).2.trans hcursor

/-- A chunk while the answer has not started. -/
theorem AnswerDecoder.feed_of_locate_none {d : AnswerDecoder} {delta : Str}
    (hf : d.finished = false) (hdelta : delta ≠ [])
    (h : ({ d with source := d.source ++ delta } : AnswerDecoder).locate = none) :
    d.feed delta = ([], { d with source := d.source ++ delta }) := by
  have hempty : delta.isEmpty = false := by simpa using hdelta
  rw [AnswerDecoder.feed, if_neg (by simp [hf, hempty])]
  simp only [h]

/-- A chunk of an answer that has started. -/
theorem AnswerDecoder.feed_of_locate {d d' : AnswerDecoder} {delta : Str}
    (hf : d.finished = false) (hdelta : delta ≠ [])
    (h : ({ d with source := d.source ++ delta } : AnswerDecoder).locate = some d')
    (hrest : d'.source.drop d'.cursor = rest) :
    d.feed delta =
      ((decodeCompletePrefix (scan rest d').encoded).drop d'.decodedLength,
        { scan rest d' with
          decodedLength := (decodeCompletePrefix (scan rest d').encoded).length }) := by
  have hempty : delta.isEmpty = false := by simpa using hdelta
  rw [AnswerDecoder.feed, if_neg (by simp [hf, hempty])]
  simp only [h, hrest, scan_decodedLength]

/-- A chunk before the answer has started: it goes on waiting, or the literal starts here. -/
theorem AnswerDecoder.Fed.feed_waiting {d : AnswerDecoder} {delta : Str} (h : Fed text d)
    (hdelta : delta ≠ []) (hsearch : search text = none) :
    Fed (text ++ delta) (d.feed delta).2 ∧ (d.feed delta).1 = answerText (text ++ delta) := by
  obtain rfl := h.waiting hsearch
  cases hmore : search (text ++ delta) with
  | none =>
    rw [feed_of_locate_none rfl hdelta (by simp [locate, init, hmore])]
    refine ⟨⟨fun _ => rfl, ?_, ?_, ?_, ?_, ?_⟩, (answerText_of_none hmore).symm⟩ <;>
      (intro b hb; rw [hmore] at hb; cases hb)
  | some behind =>
    obtain ⟨front, hfront⟩ := search_suffix hmore
    have hcursor : (text ++ delta).length - behind.length = front.length := by
      rw [← hfront, List.length_append, Nat.add_sub_cancel]
    have hlocate : ({ init with source := text ++ delta } : AnswerDecoder).locate =
        some ⟨text ++ delta, front.length, true, [], 0, false⟩ := by
      simp [locate, init, hmore, ← hcursor]
    have hdrop : (text ++ delta).drop front.length = behind := by
      rw [← hfront, List.drop_left]
    have hlength : front.length + behind.length = (text ++ delta).length := by
      rw [← hfront, List.length_append]
    rw [feed_of_locate rfl hdelta hlocate hdrop]
    obtain ⟨hencoded, hfinished⟩ := @scan_congr
      ⟨text ++ delta, front.length, true, [], 0, false⟩ init behind rfl rfl
    refine ⟨fed_scan hmore rfl rfl hlength hencoded hfinished, ?_⟩
    rw [answerText_of_some hmore, hencoded, literal, List.drop_zero]

/-- A chunk behind the closing quote changes nothing. -/
theorem AnswerDecoder.Fed.feed_closed {d : AnswerDecoder} {delta : Str} (h : Fed text d)
    (hsearch : search text = some behind) (hclosed : closed behind = true) :
    Fed (text ++ delta) (d.feed delta).2 ∧
      answerText text ++ (d.feed delta).1 = answerText (text ++ delta) := by
  have hmore := search_append hsearch delta
  obtain ⟨hl, hc⟩ := literal_append_of_closed hclosed delta
  have hf : d.finished = true := (h.finished behind hsearch).trans hclosed
  have hsome {b : Str} (hb : search (text ++ delta) = some b) : b = behind ++ delta :=
    Option.some.inj (hb.symm.trans hmore)
  rw [answerText_of_some hsearch, answerText_of_some hmore, AnswerDecoder.feed, hf, Bool.true_or,
    if_pos rfl, hl, List.append_nil]
  refine ⟨⟨fun hnone => ?_, fun b hb => ?_, fun b hb => ?_, fun b hb => ?_, fun b hb => ?_,
    fun b hb hb' => ?_⟩, rfl⟩
  · rw [hmore] at hnone
    cases hnone
  · exact h.started behind hsearch
  · rw [hsome hb, hl]
    exact h.encoded behind hsearch
  · rw [hsome hb, hc, hf]
  · rw [hsome hb, hl]
    exact h.decodedLength behind hsearch
  · rw [hsome hb, hc] at hb'
    cases hb'

/-- A chunk inside the literal: it is scanned from the cursor on, and what it adds to the decoded
text is emitted. -/
theorem AnswerDecoder.Fed.feed_open {d : AnswerDecoder} {delta : Str} (h : Fed text d)
    (hdelta : delta ≠ []) (hsearch : search text = some behind) (hclosed : closed behind = false) :
    Fed (text ++ delta) (d.feed delta).2 ∧
      answerText text ++ (d.feed delta).1 = answerText (text ++ delta) := by
  have hmore := search_append hsearch delta
  have hf : d.finished = false := (h.finished behind hsearch).trans hclosed
  obtain ⟨hsource, hcursor⟩ := h.unfinished behind hsearch hclosed
  have hlocate : ({ d with source := d.source ++ delta } : AnswerDecoder).locate =
      some { d with source := d.source ++ delta } := by
    rw [locate, if_pos (h.started behind hsearch)]
  have hdrop : (d.source ++ delta).drop d.cursor = delta := by
    rw [hsource, hcursor, List.drop_left]
  obtain ⟨hencoded, hfinished⟩ := @scan_of_encoded _ { d with source := d.source ++ delta }
    hclosed (h.encoded behind hsearch) hf delta
  rw [answerText_of_some hsearch, answerText_of_some hmore,
    feed_of_locate hf hdelta hlocate hdrop]
  refine ⟨fed_scan hmore (h.started behind hsearch) (congrArg (· ++ delta) hsource) ?_
    hencoded hfinished, ?_⟩
  · simp only [hcursor, List.length_append]
  · obtain ⟨added, hadded⟩ := literal_prefix behind delta
    obtain ⟨new, hnew⟩ := decodeCompletePrefix_append (literal behind) added
    rw [hadded] at hnew
    rw [hencoded, h.decodedLength behind hsearch, ← hnew, List.drop_left]

/-- One chunk: the decoder's state follows the text, and what it emits is what the new text adds to
the decoded answer. -/
theorem AnswerDecoder.Fed.feed {d : AnswerDecoder} (h : Fed text d) (delta : Str) :
    Fed (text ++ delta) (d.feed delta).2 ∧
      answerText text ++ (d.feed delta).1 = answerText (text ++ delta) := by
  by_cases hdelta : delta = []
  · subst hdelta
    simpa [AnswerDecoder.feed] using h
  cases hsearch : search text with
  | none =>
    rw [answerText_of_none hsearch, List.nil_append]
    exact h.feed_waiting hdelta hsearch
  | some behind =>
    cases hclosed : closed behind with
    | true => exact h.feed_closed hsearch hclosed
    | false => exact h.feed_open hdelta hsearch hclosed

/-- All chunks: by induction on the chunks, with the text received before. -/
theorem AnswerDecoder.Fed.feedAll {d : AnswerDecoder} (h : Fed text d) (chunks : List Str) :
    answerText text ++ d.feedAll chunks = answerText (text ++ chunks.flatten) := by
  induction chunks generalizing text d with
  | nil => simp [AnswerDecoder.feedAll]
  | cons chunk chunks ih =>
    obtain ⟨hfed, hout⟩ := h.feed chunk
    rw [AnswerDecoder.feedAll, ← List.append_assoc, hout, ih hfed, List.flatten_cons,
      List.append_assoc]

/-- **What a decoder emits is a function of the text**: the decoded literal behind the leftmost
match, however the text is cut into chunks. -/
theorem emitted_eq (chunks : List Str) : emitted chunks = answerText chunks.flatten := by
  have := fed_init.feedAll chunks
  rwa [List.nil_append, answerText_of_none rfl, List.nil_append] at this

/-- **Decoding does not depend on the chunks**: two partitions of a text, be it a JSON text or not,
emit the same text. -/
theorem emitted_of_flatten_eq (chunks chunks' : List Str) (h : chunks.flatten = chunks'.flatten) :
    emitted chunks = emitted chunks' := by
  rw [emitted_eq, emitted_eq, h]

/-- A key, an escape and the hexadecimal digits of another one cut by the ends of chunks. -/
theorem emitted_cut_escapes :
    emitted (["\x7b\"ans", "wer\" ", ": \"a\\", "\"b\\u00", "e9\\", "\\\"\x7d"].map ofString) =
      emitted (["\x7b\"answer\" : \"a\\\"b\\u00e9\\\\\"\x7d"].map ofString) :=
  emitted_of_flatten_eq _ _ (by decide)

end Agents

end TrackFlow
