import TrackFlow.Agents.Guardrails
import TrackFlow.Agents.Tracing

/-!
# The input guardrail

`validate_input` checks the question of a turn and `evidence_is_safe` what is to be put before the
generation model, both on a normalized text.

* `Normalizer` : the Unicode data of the normalization.
* `normalizeUntrusted` : the text that the rules see.
* `validateInput`, `evidenceIsSafe`, `validateTicketArgument` : the checks.
* `validateInput_cases` : a question that is not admitted has a fixed answer.
-/

namespace TrackFlow

namespace Agents

open Python Python.Regex

/-- The Unicode data of the patterns, and `unicodedata.normalize("NFKC", …)`. -/
structure Normalizer extends Tables where
  nfkc : List Char → List Char

/-! ## Fixed answers -/

/-- `SAFE_REDIRECT`. -/
def safeRedirect : String :=
  "I can help with TrackFlow shipment incidents, returns, delivery policies, and carrier " ++
    "operations. I can't act as a general-purpose personal assistant."

/-- `JURISDICTION_REQUIRED`. -/
def jurisdictionRequired : String :=
  "I can't select a country policy until an administrator assigns your United States or Spain " ++
    "policy jurisdiction."

/-- `UNSUPPORTED_TRACKING`. -/
def unsupportedTracking : String :=
  "TrackFlow shipment tracking is not available through this agent yet because no authoritative " ++
    "shipment-ownership source is connected. I can help with an incident ticket you are " ++
    "authorized to access."

/-- `SECURITY_REFUSAL`. -/
def securityRefusal : String :=
  "I can't change or reveal the agent's instructions, authority, or credentials."

/-- `OUTPUT_FALLBACK`. -/
def outputFallback : String :=
  "I couldn't return that answer safely. Please use the relevant TrackFlow operations screen."

/-- The answers that are not the generation model's. -/
def fixedAnswers : List String :=
  [safeRedirect, jurisdictionRequired, unsupportedTracking, securityRefusal, outputFallback]

/-! ## The normalized text -/

/-- `_ZERO_WIDTH`. -/
def isZeroWidth (c : Char) : Bool :=
  let n := c.toNat
  (0x200B ≤ n && n ≤ 0x200F) || n == 0x2060 || n == 0xFEFF

/-- `_HOMOGLYPHS`. -/
def homoglyph (c : Char) : Char :=
  match c with
  | '\u0430' => 'a'
  | '\u0435' => 'e'
  | '\u0456' => 'i'
  | '\u043e' => 'o'
  | '\u0440' => 'p'
  | '\u0441' => 'c'
  | '\u0445' => 'x'
  | c => c

/-- `_SPACES.sub(" ", …)`; `inSpace` if the character before was white space. -/
def collapseSpaces (inSpace : Bool) : List Char → List Char
  | [] => []
  | c :: rest =>
    if isSpace c then
      if inSpace then collapseSpaces true rest else ' ' :: collapseSpaces true rest
    else c :: collapseSpaces false rest

/-- `normalize_untrusted`. -/
def normalizeUntrusted (t : Normalizer) (text : List Char) : List Char :=
  let visible := ((t.nfkc text).filter fun c => !isZeroWidth c).map homoglyph
  casefold t.toTables (strip (collapseSpaces false visible))

/-! ## The rules -/

/-- `_COMPACT_INJECTION_RULES`. -/
def compactInjectionRules : List (String × String) :=
  [("instruction_override", "ignorepreviousinstructions"),
    ("instruction_override", "ignoreallrules"),
    ("prompt_extraction", "revealsystemprompt"),
    ("prompt_extraction", "printhiddenprompt"),
    ("authority_bypass", "bypassauthorization"),
    ("admin_impersonation", "iamadministrator")]

/-- `.{0,high}` -/
def upTo (high : ℕ) : Regex := run .any 0 (some high)

/-- `(?:an?\s+)?` -/
def article : Regex := opt (cat [lit "a", opt (lit "n"), someSpace])

/-- `_INJECTION_RULES`, which heed case. -/
def injectionRules : List (String × Regex) :=
  [("instruction_override",
      cat [words (lit "ignore") [lit "disregard", lit "forget", lit "override"], upTo 50,
        words (lit "instruction")
          [cat [lit "rule", opt (lit "s")], lit "policy", lit "prompt"]]),
    ("role_replacement",
      words (lit "you are now")
        [lit "developer mode", cat [lit "no rule", opt (lit "s")],
          cat [anyOf (lit "act as") [lit "pretend to be"], someSpace, article,
            anyOf (lit "admin") [lit "administrator", lit "developer", lit "system",
              lit "unrestricted assistant"]]]),
    ("prompt_extraction",
      cat [words (lit "reveal") [lit "show", lit "print", lit "repeat", lit "extract"], upTo 45,
        boundary, anyOf (lit "system") [lit "developer", lit "hidden"], someSpace,
        anyOf (lit "prompt") [lit "instruction"]]),
    ("authority_bypass",
      cat [words (lit "bypass") [lit "disable", lit "evade"], upTo 40, boundary,
        anyOf (lit "auth") [lit "authorization", lit "guardrail", lit "scope",
          lit "permission"]]),
    ("admin_impersonation",
      cat [boundary, anyOf (lit "i am") [lit "i'm", lit "as"], someSpace, article,
        anyOf (lit "admin") [lit "administrator", lit "owner", lit "developer"], boundary]),
    ("evidence_instruction",
      cat [words (lit "treat") [lit "use"], upTo 30,
        words (lit "document") [lit "tool", lit "result", lit "retrieval"], upTo 30,
        words (lit "instruction") [lit "system"]])]

/-- `_PERSONAL_USE`. -/
def personalUse : Regex :=
  cat [words (lit "write") (["compose", "solve", "code", "program", "debug", "counsel", "therapy",
      "therapist"].map lit), upTo 55,
    words (lit "essay") (["homework", "poem", "love letter", "university", "project",
      "relationship", "personal", "python", "javascript"].map lit)]

/-- `_TRACKING`. -/
def tracking : Regex :=
  cat [boundary, anyOf (lit "order") [lit "shipment", lit "tracking"], spaces,
    opt (anyOf (lit "number") [lit "#", lit "id"]), spaces,
    runOf (lowercase ++ digits ++ "-") 3 none, boundary]

/-- `(?i)apply\s+spain|spain.+benefit` -/
def applySpain : Regex :=
  alt (cat [lit "apply", someSpace, lit "spain"])
    (cat [lit "spain", run .any 1 none, lit "benefit"])

/-- `(?i)apply\s+(us|united states)|united states.+benefit` -/
def applyUnitedStates : Regex :=
  alt (cat [lit "apply", someSpace, anyOf (lit "us") [lit "united states"]])
    (cat [lit "united states", run .any 1 none, lit "benefit"])

/-- `pattern.search(normalized)`. -/
def finds (t : Normalizer) (ignoreCase : Bool) (regex : Regex) (text : List Char) : Bool :=
  Pattern.search t.toTables ⟨ignoreCase, regex⟩ text

/-- `re.sub(r"[^a-z0-9]+", "", …)`. -/
def compact (text : List Char) : List Char :=
  text.filter fun c => (lowercase ++ digits).toList.contains c

/-! ## The checks -/

/-- `InputDecision.action`. -/
inductive InputAction
  | allow
  | reject
  | redirect
  | clarify
  deriving DecidableEq, Repr

/-- The value of an action. -/
def InputAction.value : InputAction → String
  | .allow => "allow"
  | .reject => "reject"
  | .redirect => "redirect"
  | .clarify => "clarify"

/-- `InputDecision`. -/
structure InputDecision where
  action : InputAction
  answer : Option String
  event : Option GuardrailEvent
  deriving DecidableEq, Repr

/-- A decision against a question, with its event; `elapsed` is how long a check took. -/
def InputDecision.against (elapsed : String → ℕ) (action : InputAction) (answer ruleId category
    outcome : String) : InputDecision :=
  ⟨action, some answer, some ⟨"input", ruleId, category, outcome, elapsed ruleId⟩⟩

/-- `validate_input`. -/
def validateInput (t : Normalizer) (elapsed : String → ℕ) (question : String)
    (jurisdiction : Option String) : InputDecision :=
  let normalized := normalizeUntrusted t question.toList
  let refusal (ruleId : String) : InputDecision :=
    .against elapsed .reject securityRefusal ruleId "security" "blocked"
  match compactInjectionRules.find? fun rule => decide (rule.2.toList <:+: compact normalized) with
  | some rule => refusal rule.1
  | none =>
    match injectionRules.find? fun rule => finds t false rule.2 normalized with
    | some rule => refusal rule.1
    | none =>
      if finds t false personalUse normalized then
        .against elapsed .redirect safeRedirect "personal_chatbot" "content" "redirected"
      else if finds t false tracking normalized ∧ ¬"ticket".toList <:+: normalized then
        .against elapsed .reject unsupportedTracking "shipment_source_unavailable" "structural"
          "blocked"
      else if jurisdiction = none ∧ policyWords.search t.toTables normalized then
        .against elapsed .clarify jurisdictionRequired "jurisdiction_missing" "security"
          "clarification"
      else if jurisdiction = some "US" ∧ finds t true applySpain normalized then
        refusal "jurisdiction_override"
      else if jurisdiction = some "ES" ∧ finds t true applyUnitedStates normalized then
        refusal "jurisdiction_override"
      else ⟨.allow, none, none⟩

/-- `evidence_is_safe`. -/
def evidenceIsSafe (t : Normalizer) (text : String) : Bool :=
  !injectionRules.any fun rule => finds t false rule.2 (normalizeUntrusted t text.toList)

/-- `validate_ticket_argument`. -/
def validateTicketArgument (ticketId : Option ℤ) : Bool := ticketId.any fun id => decide (0 < id)

section

variable {t : Normalizer} {elapsed : String → ℕ} {question : String} {jurisdiction : Option String}

theorem against_spec {action : InputAction} {answer ruleId category outcome : String}
    (haction : action ≠ .allow) (hanswer : answer ∈ fixedAnswers) :
    (InputDecision.against elapsed action answer ruleId category outcome).action ≠ .allow ∧
      ∃ text ∈ fixedAnswers,
        (InputDecision.against elapsed action answer ruleId category outcome).answer = some text :=
  ⟨haction, answer, hanswer, rfl⟩

/-- A question that is not admitted has a fixed answer, and one that is admitted is no injection. -/
theorem validateInput_cases :
    (validateInput t elapsed question jurisdiction = ⟨.allow, none, none⟩ ∧
        evidenceIsSafe t question = true) ∨
      (validateInput t elapsed question jurisdiction).action ≠ .allow ∧
        ∃ text ∈ fixedAnswers,
          (validateInput t elapsed question jurisdiction).answer = some text := by
  unfold validateInput
  dsimp only
  split
  · exact .inr (against_spec (by decide) (by simp [fixedAnswers]))
  · split
    · exact .inr (against_spec (by decide) (by simp [fixedAnswers]))
    · rename_i hnone
      split_ifs
      · exact .inr (against_spec (by decide) (by simp [fixedAnswers]))
      · exact .inr (against_spec (by decide) (by simp [fixedAnswers]))
      · exact .inr (against_spec (by decide) (by simp [fixedAnswers]))
      · exact .inr (against_spec (by decide) (by simp [fixedAnswers]))
      · exact .inr (against_spec (by decide) (by simp [fixedAnswers]))
      · refine .inl ⟨rfl, ?_⟩
        rw [evidenceIsSafe, Bool.not_eq_true', List.any_eq_false]
        exact List.find?_eq_none.1 hnone

end

end Agents

end TrackFlow
