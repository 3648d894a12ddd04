import Mathlib.Data.List.Infix
import Mathlib.Data.List.Nodup
import Mathlib.Tactic.Tauto
import TrackFlow.Python.Regex

/-!
# The output guardrail, streamed and final

`validate_output` checks the answer of a turn, stripped of white space at its ends.  While the
answer is streamed, `guarded_token_callback` checks what has been streamed so far, at every delta.

* `validateOutput` : the rules; `boundaryRule` : those whose pattern tests for a word boundary
  behind its last character.
* `guardedStream` : the streamed answer; `finalAnswer` : the answer of the graph.
* `Agrees` : both block the answer, or neither does and what was streamed is the answer.
* `streaming_guardrail_agrees_iff` : **when they agree.**
* `streaming_guardrail_blocks_upset` : an answer that is blocked in the middle of a word.
-/

namespace TrackFlow

namespace Agents

open Python Python.Regex

/-! ## The patterns -/

/-- A run of the characters of a string. -/
def runOf (cs : String) (low : ℕ) (high : Option ℕ) : Regex := run (.chars cs.toList) low high

/-- `[a-z]` -/
def lowercase : String := "abcdefghijklmnopqrstuvwxyz"

/-- `[0-9]` -/
def digits : String := "0123456789"

/-- `\s*` -/
def spaces : Regex := run .space 0 none

/-- `\s+` -/
def someSpace : Regex := run .space 1 none

/-- `_SECRET_OUTPUT`: `(?i)(bearer\s+[a-z0-9._-]+|sk-[a-z0-9_-]{10,}|client[_ -]?secret|
private[_ -]?key|password\s*[:=])`. -/
def secretOutput : Pattern where
  ignoreCase := true
  regex := anyOf (cat [lit "bearer", someSpace, runOf (lowercase ++ digits ++ "._-") 1 none])
    [cat [lit "sk-", runOf (lowercase ++ digits ++ "_-") 10 none],
      cat [lit "client", opt (runOf "_ -" 1 (some 1)), lit "secret"],
      cat [lit "private", opt (runOf "_ -" 1 (some 1)), lit "key"],
      cat [lit "password", spaces, runOf ":=" 1 (some 1)]]

/-- `_ADDRESS_OUTPUT`: `(?i)\b\d{1,6}\s+[a-z0-9 .'-]{2,45}\s(?:street|st|road|rd|avenue|ave|
boulevard|blvd|lane|ln|calle|camino)\b`. -/
def addressOutput : Pattern where
  ignoreCase := true
  regex := cat [boundary, run .decimal 1 (some 6), someSpace,
    runOf (lowercase ++ digits ++ " .'-") 2 (some 45), one .space,
    anyOf (lit "street") (["st", "road", "rd", "avenue", "ave", "boulevard", "blvd", "lane", "ln",
      "calle", "camino"].map lit), boundary]

/-- `\d+(?:[.,]\d+)?` -/
def amount : Regex :=
  cat [run .decimal 1 none, opt (cat [runOf ".," 1 (some 1), run .decimal 1 none])]

/-- `_MONEY`: `(?:(?:usd|eur|\$|€)\s*\d+(?:[.,]\d+)?|\d+(?:[.,]\d+)?\s*(?:usd|eur))`. -/
def money : Regex :=
  alt (cat [anyOf (lit "usd") [lit "eur", lit "$", lit "€"], spaces, amount])
    (cat [amount, spaces, anyOf (lit "usd") [lit "eur"]])

/-- `_INTERNAL_COST`: `(?:negotiat\w*|internal|wholesale|buy[- ]rate|our\s+cost|cost\s+price|
margin|carrier\s+(?:rate|price|cost)|rate\s+(?:with|from)\s+(?:the\s+)?carrier)`. -/
def internalCost : Regex :=
  anyOf (cat [lit "negotiat", run .word 0 none])
    [lit "internal", lit "wholesale", cat [lit "buy", runOf "- " 1 (some 1), lit "rate"],
      cat [lit "our", someSpace, lit "cost"], cat [lit "cost", someSpace, lit "price"],
      lit "margin",
      cat [lit "carrier", someSpace, anyOf (lit "rate") [lit "price", lit "cost"]],
      cat [lit "rate", someSpace, anyOf (lit "with") [lit "from"], someSpace,
        opt (cat [lit "the", someSpace]), lit "carrier"]]

/-- `_CARRIER_NAMES`: `(?:ups|fedex|dhl|usps|mrw|seur|correos|gls)`. -/
def carrierNames : Regex :=
  anyOf (lit "ups") (["fedex", "dhl", "usps", "mrw", "seur", "correos", "gls"].map lit)

/-- `.{0,60}?` -/
def nearby : Regex := run .any 0 (some 60)

/-- `_RATE_OUTPUT`: an amount near a carrier's name, or near the words of an internal cost. -/
def rateOutput : Pattern where
  ignoreCase := true
  regex := anyOf (cat [carrierNames, boundary, nearby, money])
    [cat [money, nearby, boundary, carrierNames], cat [internalCost, boundary, nearby, money],
      cat [money, nearby, boundary, internalCost]]

/-- `\b(…)\b` -/
def words (r : Regex) (rs : List Regex) : Regex := cat [boundary, anyOf r rs, boundary]

/-- `_PROMPT_OUTPUT`. -/
def promptOutput : Pattern where
  ignoreCase := true
  regex := words (lit "system prompt")
    [lit "developer message", lit "hidden instruction", lit "authority hierarchy"]

/-- `(?i)\b(exact warehouse|warehouse route|internal route)\b` -/
def warehouseDetail : Pattern where
  ignoreCase := true
  regex := words (lit "exact warehouse") [lit "warehouse route", lit "internal route"]

/-- `_US_TERMS`. -/
def usTerms : Pattern where
  ignoreCase := true
  regex := words (lit "united states")
    [lit "los angeles", lit "california", lit "ups", lit "fedex"]

/-- `_ES_TERMS`. -/
def esTerms : Pattern where
  ignoreCase := true
  regex := words (lit "spain")
    [lit "zaragoza", cat [lit "arag", runOf "oó" 1 (some 1), lit "n"], lit "madrid", lit "mrw",
      lit "seur"]

/-- `_POLICY_WORDS`, which heeds case. -/
def policyWords : Pattern where
  ignoreCase := false
  regex := words (lit "policy") (["return", "sla", "delivery", "coverage", "carrier", "shipping",
    "warehouse"].map lit)

/-- `\b\d+\b|\b(?:must|always|never)\b`, which heeds case. -/
def claimWords : Pattern where
  ignoreCase := false
  regex := alt (cat [boundary, run .decimal 1 none, boundary])
    (words (lit "must") [lit "always", lit "never"])

/-! ## The rules -/

/-- What `validate_output` is told besides the answer. -/
structure OutputContext where
  jurisdiction : Option String
  authoritativeStatus : Option String
  hasGroundedEvidence : Bool

/-- `str.casefold`. -/
def casefold (t : Tables) (text : List Char) : List Char := text.flatMap t.casefold

/-- The statuses a ticket can have, as an answer states them. -/
def ticketStatuses : List String :=
  ["open", "in progress", "resolved", "discarded", "closed", "pending"]

/-- `stated`. -/
def statedStatuses (t : Tables) (answer : List Char) : List (List Char) :=
  (ticketStatuses.map String.toList).filter fun status => status <:+: casefold t answer

/-- `authoritative_status.replace("_", " ").casefold()`. -/
def expectedStatus (t : Tables) (status : String) : List Char :=
  casefold t (status.toList.map fun c => if c = '_' then ' ' else c)

/-- The answer states a status that is not the authoritative one. -/
def ungroundedStatus (t : Tables) (ctx : OutputContext) (answer : List Char) : Bool :=
  match ctx.authoritativeStatus with
  | none => false
  | some status =>
    status != "" && statedStatuses t answer != [] &&
      statedStatuses t answer != [expectedStatus t status]

/-- The answer names the other jurisdiction. -/
def crossJurisdiction (t : Tables) (ctx : OutputContext) (answer : List Char) : Bool :=
  ctx.jurisdiction == some "US" && esTerms.search t answer ||
    ctx.jurisdiction == some "ES" && usTerms.search t answer

/-- The answer states a policy without evidence. -/
def unsupportedPolicy (t : Tables) (ctx : OutputContext) (answer : List Char) : Bool :=
  !ctx.hasGroundedEvidence && policyWords.search t answer && claimWords.search t answer

/-- `validate_output`: the rule that blocks the answer. -/
def validateOutput (t : Tables) (ctx : OutputContext) (answer : List Char) : Option String :=
  if blank answer then some "empty_output"
  else if secretOutput.search t answer || promptOutput.search t answer then
    some "sensitive_output"
  else if addressOutput.search t answer then some "address_output"
  else if rateOutput.search t answer then some "carrier_rate_output"
  else if warehouseDetail.search t answer then some "warehouse_detail_output"
  else if crossJurisdiction t ctx answer then some "cross_jurisdiction_output"
  else if unsupportedPolicy t ctx answer then some "unsupported_policy_claim"
  else if ungroundedStatus t ctx answer then some "ungrounded_ticket_status"
  else none

/-- The rules whose pattern tests for a word boundary behind its last character. -/
def boundaryRule (t : Tables) (ctx : OutputContext) (text : List Char) : Bool :=
  promptOutput.search t text || addressOutput.search t text || warehouseDetail.search t text ||
    crossJurisdiction t ctx text || unsupportedPolicy t ctx text

/-! ## The two paths -/

/-- What the client sees of a streamed answer. -/
structure Streamed where
  /-- The rule that stopped the stream. -/
  blocked : Option String
  /-- The deltas that were passed on. -/
  emitted : List (List Char)
  deriving DecidableEq, Repr

/-- The loop of `generate_answer` over the deltas, with `guarded_token_callback`; `streamed` is
what has been passed to it. -/
def guardedStream (t : Tables) (ctx : OutputContext) (streamed : List Char) :
    List (List Char) → Streamed
  | [] => ⟨none, []⟩
  | delta :: deltas =>
    -- an empty delta is not passed on
    if delta = [] then guardedStream t ctx streamed deltas
    else
      match validateOutput t ctx (streamed ++ delta) with
      | some rule => ⟨some rule, []⟩
      | none =>
        let rest := guardedStream t ctx (streamed ++ delta) deltas
        { rest with emitted := delta :: rest.emitted }

/-- The answer of `generate_answer`, which the output node checks.  `generate_answer` refuses a
blank answer; the node then checks the empty text. -/
def finalAnswer (deltas : List (List Char)) : List Char := strip deltas.flatten

/-- Both paths block the answer, or neither does and what was streamed is the answer. -/
def Agrees (t : Tables) (ctx : OutputContext) (deltas : List (List Char)) : Prop :=
  ((guardedStream t ctx [] deltas).blocked.isSome ↔
    (validateOutput t ctx (finalAnswer deltas)).isSome) ∧
  ((guardedStream t ctx [] deltas).blocked = none →
    validateOutput t ctx (finalAnswer deltas) = none →
    (guardedStream t ctx [] deltas).emitted.flatten = finalAnswer deltas)

/-! ## What the rules see of a part of a text -/

section

variable {t : Tables} {ctx : OutputContext} {text before behind streamed : List Char}

theorem isSome_ite {c : Prop} [Decidable c] {rule : String} {rest : Option String} :
    (if c then some rule else rest).isSome = true ↔ c ∨ rest.isSome = true := by
  split_ifs with h
  · exact ⟨fun _ => .inl h, fun _ => rfl⟩
  · exact ⟨.inr, fun hr => hr.resolve_left h⟩

/-- An answer is blocked if one of the rules applies. -/
theorem validateOutput_isSome_iff :
    (validateOutput t ctx text).isSome = true ↔
      blank text = true ∨ secretOutput.search t text = true ∨ rateOutput.search t text = true ∨
        boundaryRule t ctx text = true ∨ ungroundedStatus t ctx text = true := by
  simp only [validateOutput, boundaryRule, isSome_ite, Bool.or_eq_true, Option.isSome_none,
    Bool.false_eq_true, or_false]
  generalize blank text = b₁, secretOutput.search t text = b₂, promptOutput.search t text = b₃,
    addressOutput.search t text = b₄, rateOutput.search t text = b₅,
    warehouseDetail.search t text = b₆, crossJurisdiction t ctx text = b₇,
    unsupportedPolicy t ctx text = b₈, ungroundedStatus t ctx text = b₉
  tauto

/-- The words of a rule stay found, unless the text is cut inside a word. -/
theorem boundaryRule_shift (h : boundaryRule t ctx text = true)
    (hbefore : before.getLast?.any t.isWord = false) (hcut : splitsWord t text behind = false) :
    boundaryRule t ctx (before ++ text ++ behind) = true := by
  have keep : ∀ p : Pattern, p.search t text = true →
      p.search t (before ++ text ++ behind) = true :=
    fun p hp => Pattern.search_shift hp hbefore (.inr hcut)
  simp only [boundaryRule, crossJurisdiction, unsupportedPolicy, Bool.or_eq_true,
    Bool.and_eq_true] at h ⊢
  rcases h with (((h | h) | h) | (⟨hj, h⟩ | ⟨hj, h⟩)) | ⟨⟨hg, h⟩, h'⟩
  · exact .inl (.inl (.inl (.inl (keep _ h))))
  · exact .inl (.inl (.inl (.inr (keep _ h))))
  · exact .inl (.inl (.inr (keep _ h)))
  · exact .inl (.inr (.inl ⟨hj, keep _ h⟩))
  · exact .inl (.inr (.inr ⟨hj, keep _ h⟩))
  · exact .inr ⟨⟨hg, keep _ h⟩, keep _ h'⟩

/-- A status that a part of the text states is stated by the text. -/
theorem mem_statedStatuses_append {status : List Char} (h : status ∈ statedStatuses t text) :
    status ∈ statedStatuses t (before ++ text ++ behind) := by
  obtain ⟨hstatus, hinfix⟩ := List.mem_filter.1 h
  refine List.mem_filter.2 ⟨hstatus, decide_eq_true ((of_decide_eq_true hinfix).trans ?_)⟩
  rw [casefold, casefold, List.flatMap_append, List.flatMap_append]
  exact List.infix_append _ _ _

/-- Each status is listed once. -/
theorem nodup_statedStatuses (t : Tables) (answer : List Char) :
    (statedStatuses t answer).Nodup := List.Nodup.filter _ (by decide)

/-- A status that is not the authoritative one stays stated. -/
theorem ungroundedStatus_append (h : ungroundedStatus t ctx text = true) :
    ungroundedStatus t ctx (before ++ text ++ behind) = true := by
  unfold ungroundedStatus at h ⊢
  cases hstatus : ctx.authoritativeStatus with
  | none => rw [hstatus] at h; exact h
  | some status =>
    simp only [hstatus, Bool.and_eq_true, bne_iff_ne] at h ⊢
    obtain ⟨⟨hempty, hstated⟩, hexpected⟩ := h
    -- some stated status is another one, as each is listed once
    obtain ⟨other, hother, hne⟩ : ∃ other ∈ statedStatuses t text,
        other ≠ expectedStatus t status := by
      by_contra! hall
      refine hexpected ?_
      have hrep := List.eq_replicate_of_mem hall
      have hnodup := nodup_statedStatuses t text
      rw [hrep, List.nodup_replicate] at hnodup
      have hpos := List.length_pos_of_ne_nil hstated
      rw [hrep, show (statedStatuses t text).length = 1 by omega]
      rfl
    have hmem : other ∈ statedStatuses t (before ++ text ++ behind) :=
      mem_statedStatuses_append hother
    refine ⟨⟨hempty, List.ne_nil_of_mem hmem⟩, fun hone => hne ?_⟩
    rw [hone] at hmem
    exact List.mem_singleton.1 hmem

/-- A part that is blocked blocks the text, unless it is blank, or it is cut inside a word and
blocked by the words of a rule. -/
theorem validateOutput_shift (h : (validateOutput t ctx text).isSome = true)
    (hblank : blank text = false) (hbefore : before.getLast?.any t.isWord = false)
    (hcut : ¬(splitsWord t text behind = true ∧ boundaryRule t ctx text = true)) :
    (validateOutput t ctx (before ++ text ++ behind)).isSome = true := by
  rw [validateOutput_isSome_iff] at h ⊢
  rcases h with h | h | h | h | h
  · rw [hblank] at h
    cases h
  · exact .inr (.inl (Pattern.search_shift h hbefore (.inl (by decide))))
  · exact .inr (.inr (.inl (Pattern.search_shift h hbefore (.inl (by decide)))))
  · refine .inr (.inr (.inr (.inl (boundaryRule_shift h hbefore ?_))))
    exact Bool.eq_false_iff.2 fun hsplit => hcut ⟨hsplit, h⟩
  · exact .inr (.inr (.inr (.inr (ungroundedStatus_append h))))

/-- An answer that is blocked is blocked with white space around it. -/
theorem validateOutput_of_strip (h : (validateOutput t ctx (strip text)).isSome = true) :
    (validateOutput t ctx text).isSome = true := by
  cases hblank : blank (strip text) with
  | true =>
    -- nothing but white space
    obtain ⟨before, behind, htext, hbefore, hbehind⟩ := exists_eq_strip text
    refine validateOutput_isSome_iff.2 (.inl ?_)
    rw [htext, blank_append, blank_append, hblank, blank, blank, List.all_eq_true.2 hbefore,
      List.all_eq_true.2 hbehind]
    rfl
  | false =>
    obtain ⟨before, behind, htext, hbefore, hbehind⟩ := exists_eq_strip text
    rw [htext]
    refine validateOutput_shift h hblank ?_ fun hcut => ?_
    · cases hlast : before.getLast? with
      | none => rfl
      | some c => exact t.isWord_of_isSpace c (hbefore c (List.mem_of_getLast? hlast))
    · obtain ⟨-, hhead⟩ := Bool.and_eq_true_iff.1 hcut.1
      obtain ⟨c, hc, hword⟩ := (Option.any_eq_true _ _).1 hhead
      rw [t.isWord_of_isSpace c (hbehind c (List.mem_of_head? hc))] at hword
      cases hword

/-! ## The stream -/

/-- The stream is stopped if what has been streamed is blocked at some delta. -/
theorem guardedStream_blocked_iff {deltas : List (List Char)}
    (hstreamed : streamed ≠ [] → validateOutput t ctx streamed = none) :
    (guardedStream t ctx streamed deltas).blocked.isSome = true ↔
      ∃ front behind, deltas = front ++ behind ∧ streamed ++ front.flatten ≠ [] ∧
        (validateOutput t ctx (streamed ++ front.flatten)).isSome = true := by
  induction deltas generalizing streamed with
  | nil =>
    refine ⟨nofun, ?_⟩
    rintro ⟨front, behind, hnil, hne, hsome⟩
    obtain ⟨rfl, -⟩ := List.append_eq_nil_iff.1 hnil.symm
    rw [List.flatten_nil, List.append_nil] at hne hsome
    rw [hstreamed hne] at hsome
    cases hsome
  | cons delta deltas ih =>
    have hcons : (∃ front behind, delta :: deltas = front ++ behind ∧
          streamed ++ front.flatten ≠ [] ∧
          (validateOutput t ctx (streamed ++ front.flatten)).isSome = true) ↔
        ∃ front behind, deltas = front ++ behind ∧ streamed ++ delta ++ front.flatten ≠ [] ∧
          (validateOutput t ctx (streamed ++ delta ++ front.flatten)).isSome = true := by
      constructor
      · rintro ⟨front, behind, heq, hne, hsome⟩
        cases front with
        | nil =>
          rw [List.flatten_nil, List.append_nil] at hne hsome
          rw [hstreamed hne] at hsome
          cases hsome
        | cons d front =>
          obtain ⟨rfl, rfl⟩ := List.cons.inj heq
          rw [List.flatten_cons, ← List.append_assoc] at hne hsome
          exact ⟨front, behind, rfl, hne, hsome⟩
      · rintro ⟨front, behind, rfl, hne, hsome⟩
        refine ⟨delta :: front, behind, rfl, ?_, ?_⟩ <;>
          rwa [List.flatten_cons, ← List.append_assoc]
    rw [hcons, guardedStream]
    split_ifs with hdelta
    · subst hdelta
      rw [List.append_nil]
      exact ih hstreamed
    · cases hvalid : validateOutput t ctx (streamed ++ delta) with
      | some rule =>
        refine ⟨fun _ => ⟨[], deltas, rfl, ?_, ?_⟩, fun _ => rfl⟩
        · rw [List.flatten_nil, List.append_nil]
          exact fun hnil => hdelta (List.append_eq_nil_iff.1 hnil).2
        · rw [List.flatten_nil, List.append_nil, hvalid]
          rfl
      | none => exact ih fun _ => hvalid

/-- A stream that is not stopped passes everything on. -/
theorem flatten_emitted {deltas : List (List Char)}
    (h : (guardedStream t ctx streamed deltas).blocked = none) :
    (guardedStream t ctx streamed deltas).emitted.flatten = deltas.flatten := by
  induction deltas generalizing streamed with
  | nil => rfl
  | cons delta deltas ih =>
    rw [guardedStream] at h ⊢
    split_ifs at h ⊢ with hdelta
    · rw [ih h, hdelta]
      rfl
    · cases hvalid : validateOutput t ctx (streamed ++ delta) with
      | some rule => rw [hvalid] at h; cases h
      | none =>
        rw [hvalid] at h
        show (delta :: (guardedStream t ctx (streamed ++ delta) deltas).emitted).flatten = _
        rw [List.flatten_cons, ih h]
        rfl

end

/-- A cut of the text into deltas that does no harm: what stands before it is not blank, and, if the
cut is inside a word, holds no words of a rule. -/
def HarmlessCut (t : Tables) (ctx : OutputContext) (front behind : List Char) : Prop :=
  blank front = false ∧ ¬(splitsWord t front behind = true ∧ boundaryRule t ctx front = true)

/-- **When the streaming guardrail agrees with the final one.**  The answer is not empty, and
either the final guardrail blocks it, or it has no white space at its ends and none of the cuts
between its deltas does harm. -/
theorem streaming_guardrail_agrees_iff (t : Tables) (ctx : OutputContext)
    (deltas : List (List Char)) :
    Agrees t ctx deltas ↔ deltas.flatten ≠ [] ∧
      ((validateOutput t ctx (finalAnswer deltas)).isSome = true ∨
        finalAnswer deltas = deltas.flatten ∧
          ∀ front behind, deltas = front ++ behind → front.flatten ≠ [] → behind.flatten ≠ [] →
            HarmlessCut t ctx front.flatten behind.flatten) := by
  have hstream : (guardedStream t ctx [] deltas).blocked.isSome = true ↔
      ∃ front behind, deltas = front ++ behind ∧ front.flatten ≠ [] ∧
        (validateOutput t ctx front.flatten).isSome = true :=
    guardedStream_blocked_iff fun h => (h rfl).elim
  constructor
  · rintro ⟨hblocked, hemitted⟩
    refine ⟨fun hnil => ?_, or_iff_not_imp_left.2 fun hfinal => ?_⟩
    · -- no delta is checked, and the empty answer is blocked
      have hfinal : (validateOutput t ctx (finalAnswer deltas)).isSome = true := by
        rw [finalAnswer, hnil]
        rfl
      obtain ⟨front, behind, rfl, hne, -⟩ := hstream.1 (hblocked.2 hfinal)
      rw [List.flatten_append] at hnil
      exact hne (List.append_eq_nil_iff.1 hnil).1
    · have hpass : ¬(guardedStream t ctx [] deltas).blocked.isSome = true :=
        fun h => hfinal (hblocked.1 h)
      refine ⟨?_, fun front behind hcut hfront _ => ?_⟩
      · rw [← hemitted (Option.not_isSome_iff_eq_none.1 hpass)
          (Option.not_isSome_iff_eq_none.1 hfinal)]
        exact flatten_emitted (Option.not_isSome_iff_eq_none.1 hpass)
      · have hvalid : ¬(validateOutput t ctx front.flatten).isSome = true :=
          fun h => hpass (hstream.2 ⟨front, behind, hcut, hfront, h⟩)
        rw [validateOutput_isSome_iff] at hvalid
        push Not at hvalid
        exact ⟨Bool.eq_false_iff.2 hvalid.1, fun h => hvalid.2.2.2.1 h.2⟩
  · rintro ⟨hne, hfinal | ⟨hstrip, hcuts⟩⟩
    · -- the whole text is blocked at the last delta
      have htext : (validateOutput t ctx deltas.flatten).isSome = true :=
        validateOutput_of_strip hfinal
      refine ⟨⟨fun _ => hfinal, fun _ => hstream.2 ⟨deltas, [], ?_, hne, htext⟩⟩,
        fun _ hnone => ?_⟩
      · rw [List.append_nil]
      · rw [hnone] at hfinal
        cases hfinal
    · have hblocked : (guardedStream t ctx [] deltas).blocked.isSome = true ↔
          (validateOutput t ctx (finalAnswer deltas)).isSome = true := by
        rw [hstream, hstrip]
        refine ⟨?_, fun htext => ⟨deltas, [], (List.append_nil _).symm, hne, htext⟩⟩
        rintro ⟨front, behind, hcut, hfront, hvalid⟩
        rw [hcut, List.flatten_append]
        by_cases hbehind : behind.flatten = []
        · rw [hbehind, List.append_nil]
          exact hvalid
        · obtain ⟨hblank, hsplit⟩ := hcuts front behind hcut hfront hbehind
          have hstart : ([] : List Char).getLast?.any t.isWord = false := rfl
          have hshift := validateOutput_shift hvalid hblank hstart hsplit
          rwa [List.nil_append] at hshift
      exact ⟨hblocked, fun hpass _ => by rw [hstrip]; exact flatten_emitted hpass⟩

/-! ## A concrete answer -/

/-- **A passed answer is blocked in the middle of a word.**  "ups" is the name of a carrier of the
other jurisdiction until the rest of "upset" arrives. -/
theorem streaming_guardrail_blocks_upset :
    ¬∀ (t : Tables) (ctx : OutputContext) (deltas : List (List Char)), Agrees t ctx deltas := by
  intro hclaim
  have h := (hclaim ascii ⟨some "ES", none, true⟩ ["The ups".toList, "et box.".toList]).1
  exact absurd h (by decide)

end Agents

end TrackFlow
