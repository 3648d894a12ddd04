import Mathlib.Algebra.Order.Field.Rat
import Mathlib.Data.Int.Log
import Mathlib.Data.Rat.Floor
import Mathlib.Tactic.IntervalCases
import Mathlib.Tactic.NormNum
import Mathlib.Tactic.Positivity

/-!
# Numbers in JSON texts

A number of a JSON text is read as the double that is nearest to its decimal value, ties to even.

* `nearest` : the nearest double; `Number` : what a number is read as.
* `nearest_natCast` : **a natural number up to `2 ^ 53` is a double.**
* `NumberLiteral` : the numbers of the JSON grammar; `parseNumber` reads one.
* `parseNumber_text` : **reading a literal.**
* `Double`, `FloatRepr` : finite doubles, and a way to print them that reads back.
-/

namespace TrackFlow

namespace Json

/-! ## Doubles -/

/-- Rounding to a natural number, ties to even. -/
def roundHalfEven (x : ℚ) : ℕ :=
  let n := ⌊x⌋₊
  if x - n < 1 / 2 ∨ x - n = 1 / 2 ∧ n % 2 = 0 then n else n + 1

/-- The exponent of the last bit of a double near `q`. -/
def exponent (q : ℚ) : ℤ := max (-1074) (Int.log 2 q - 52)

/-- The double nearest to `q`, if it is finite. -/
def nearest (q : ℚ) : Option ℚ :=
  let r := (roundHalfEven (q / 2 ^ exponent q) : ℚ) * 2 ^ exponent q
  if r < 2 ^ 1024 then some r else none

theorem roundHalfEven_natCast (n : ℕ) : roundHalfEven n = n := by
  have hsub : (n : ℚ) - n < 1 / 2 := by
    rw [sub_self]
    norm_num
  unfold roundHalfEven
  simp only [Nat.floor_natCast]
  exact if_pos (.inl hsub)

/-- A multiple of its last bit is a double. -/
theorem nearest_of_eq_mul {q : ℚ} {n : ℕ} (h : q = n * 2 ^ exponent q) (hq : q < 2 ^ 1024) :
    nearest q = some q := by
  have hpos : (0 : ℚ) < 2 ^ exponent q := zpow_pos (by norm_num) _
  have hdiv : q / 2 ^ exponent q = n := (div_eq_iff hpos.ne').2 h
  unfold nearest
  simp only [hdiv, roundHalfEven_natCast, ← h]
  exact if_pos hq

/-- **A natural number up to `2 ^ 53` is a double.** -/
theorem nearest_natCast {n : ℕ} (h : n ≤ 2 ^ 53) : nearest n = some (n : ℚ) := by
  have hlt : (n : ℚ) < 2 ^ 1024 := by
    have : (n : ℚ) ≤ 2 ^ 53 := by exact_mod_cast h
    exact this.trans_lt (pow_lt_pow_right₀ (by norm_num) (by norm_num))
  have hlog : Int.log 2 (n : ℚ) = Nat.log 2 n := Int.log_natCast 2 n
  have hexp : exponent n = (Nat.log 2 n : ℤ) - 52 := by
    unfold exponent
    rw [hlog]
    omega
  rcases h.lt_or_eq with h | rfl
  · -- the last bit is at most one
    have hle : Nat.log 2 n ≤ 52 := by
      rcases Nat.eq_zero_or_pos n with rfl | hpos
      · simp
      · exact Nat.lt_succ_iff.1 ((Nat.log_lt_iff_lt_pow (by norm_num) hpos.ne').2 h)
    refine nearest_of_eq_mul (n := n * 2 ^ (52 - Nat.log 2 n)) ?_ hlt
    have hsplit : (2 : ℚ) ^ (52 - Nat.log 2 n) * 2 ^ ((Nat.log 2 n : ℤ) - 52) = 1 := by
      rw [← zpow_natCast, ← zpow_add₀ (by norm_num), Nat.cast_sub hle]
      norm_num
    rw [hexp, Nat.cast_mul, Nat.cast_pow, Nat.cast_ofNat, mul_assoc, hsplit, mul_one]
  · have hexp' : exponent ((2 ^ 53 : ℕ) : ℚ) = 1 := by
      rw [hexp, Nat.log_pow (by norm_num)]
      norm_num
    refine nearest_of_eq_mul (n := 2 ^ 52) ?_ hlt
    rw [hexp']
    norm_num

/-- The least natural number that is no double. -/
theorem nearest_two_pow_53_add_one : nearest ((2 ^ 53 + 1 : ℕ) : ℚ) = some ((2 ^ 53 : ℕ) : ℚ) := by
  have hlog : Nat.log 2 (2 ^ 53 + 1) = 53 :=
    Nat.log_eq_of_pow_le_of_lt_pow (by norm_num) (by norm_num)
  have hexp : exponent ((2 ^ 53 + 1 : ℕ) : ℚ) = 1 := by
    unfold exponent
    rw [Int.log_natCast, hlog]
    norm_num
  have hfloor : ⌊((2 ^ 53 + 1 : ℕ) : ℚ) / 2 ^ (1 : ℤ)⌋₊ = 2 ^ 52 :=
    (Nat.floor_eq_iff (by positivity)).2 (by norm_num)
  have hround : roundHalfEven (((2 ^ 53 + 1 : ℕ) : ℚ) / 2 ^ (1 : ℤ)) = 2 ^ 52 := by
    unfold roundHalfEven
    simp only [hfloor]
    norm_num
  have hvalue : ((2 ^ 52 : ℕ) : ℚ) * 2 ^ (1 : ℤ) = ((2 ^ 53 : ℕ) : ℚ) := by norm_num
  have hlt : ((2 ^ 53 : ℕ) : ℚ) < 2 ^ 1024 := by
    rw [Nat.cast_pow]
    exact pow_lt_pow_right₀ (by norm_num) (by norm_num)
  unfold nearest
  simp only [hexp, hround, hvalue]
  exact if_pos hlt

/-- A double is a multiple of the least one. -/
theorem exists_eq_mul_of_nearest {q r : ℚ} (h : nearest q = some r) :
    ∃ n : ℕ, r * 2 ^ 1074 = n := by
  unfold nearest at h
  simp only [Option.ite_none_right_eq_some, Option.some.injEq] at h
  obtain ⟨-, rfl⟩ := h
  have hexp : 0 ≤ exponent q + 1074 := by
    unfold exponent
    omega
  obtain ⟨k, hk⟩ := Int.eq_ofNat_of_zero_le hexp
  refine ⟨roundHalfEven (q / 2 ^ exponent q) * 2 ^ k, ?_⟩
  have hpow : (2 : ℚ) ^ exponent q * 2 ^ 1074 = 2 ^ k := by
    rw [← zpow_natCast, ← zpow_natCast, ← zpow_add₀ (by norm_num)]
    exact congrArg _ hk
  rw [mul_assoc, hpow]
  push_cast
  rfl

/-- What a number of a JSON text is read as. -/
inductive Number
  | finite (negative : Bool) (magnitude : ℚ)
  | infinite (negative : Bool)
  deriving DecidableEq

/-- The number of a sign and an exact magnitude. -/
def Number.ofRat (negative : Bool) (q : ℚ) : Number :=
  match nearest q with
  | some r => .finite negative r
  | none => .infinite negative

/-- The double nearest to an integer. -/
def Number.ofInt (n : ℤ) : Number := .ofRat (decide (n < 0)) n.natAbs

/-- An integer as a number without rounding. -/
def Number.exactInt (n : ℤ) : Number := .finite (decide (n < 0)) n.natAbs

theorem Number.ofInt_eq_exactInt {n : ℤ} (h : n.natAbs ≤ 2 ^ 53) : ofInt n = exactInt n := by
  rw [ofInt, ofRat, nearest_natCast h]
  rfl

/-! ## Literals -/

/-- The exponent of a literal, with its sign as it is written and its digits. -/
structure Exponent where
  sign : Option Bool
  first : Fin 10
  others : List (Fin 10)

/-- A number of the JSON grammar; a literal without fraction has no point. -/
structure NumberLiteral where
  negative : Bool
  whole : ℕ
  fraction : List (Fin 10)
  exponent : Option Exponent

/-- A digit. -/
def digit (d : Fin 10) : Char := Nat.digitChar d

/-- The sign of an exponent; `true` is a minus. -/
def signText : Option Bool → List Char
  | none => []
  | some true => ['-']
  | some false => ['+']

def Exponent.text (e : Exponent) : List Char :=
  'e' :: (signText e.sign ++ (e.first :: e.others).map digit)

/-- The value of an exponent. -/
def Exponent.value (e : Exponent) : ℤ :=
  let n : ℤ := Nat.ofDigitChars 10 ((e.first :: e.others).map digit) 0
  if e.sign = some true then -n else n

namespace NumberLiteral

def fractionText (l : NumberLiteral) : List Char :=
  if l.fraction = [] then [] else '.' :: l.fraction.map digit

def exponentText (l : NumberLiteral) : List Char := (l.exponent.map Exponent.text).getD []

def text (l : NumberLiteral) : List Char :=
  (if l.negative then ['-'] else []) ++
    (Nat.toDigits 10 l.whole ++ (l.fractionText ++ l.exponentText))

end NumberLiteral

/-- The number of a sign, the digits of the whole and of the fraction, and an exponent. -/
def decimalNumber (negative : Bool) (whole fraction : List Char) (exponent : ℤ) : Number :=
  .ofRat negative ((Nat.ofDigitChars 10 (whole ++ fraction) 0 : ℚ) *
    10 ^ (exponent - fraction.length))

/-- What a literal is read as. -/
def NumberLiteral.number (l : NumberLiteral) : Number :=
  decimalNumber l.negative (Nat.toDigits 10 l.whole) (l.fraction.map digit)
    ((l.exponent.map Exponent.value).getD 0)

/-- The literal of an integer. -/
def NumberLiteral.ofInt (n : ℤ) : NumberLiteral := ⟨decide (n < 0), n.natAbs, [], none⟩

/-! ## Reading a number -/

/-- The digits at the start of a text, and the rest. -/
def takeDigits (text : List Char) : List Char × List Char :=
  (text.takeWhile Char.isDigit, text.dropWhile Char.isDigit)

/-- The whole part: a zero, or digits that do not start with one. -/
def parseWhole : List Char → Option (List Char × List Char)
  | '0' :: rest => some (['0'], rest)
  | text => if (takeDigits text).1 = [] then none else some (takeDigits text)

/-- The fraction, if there is one. -/
def parseFraction : List Char → Option (List Char × List Char)
  | '.' :: rest => if (takeDigits rest).1 = [] then none else some (takeDigits rest)
  | text => some ([], text)

/-- The sign of an exponent. -/
def parseSign : List Char → Bool × List Char
  | '-' :: rest => (true, rest)
  | '+' :: rest => (false, rest)
  | text => (false, text)

/-- The exponent of a sign and the digits behind it. -/
def signedExponent (negative : Bool) (taken : List Char × List Char) : Option (ℤ × List Char) :=
  if taken.1 = [] then none
  else
    let n : ℤ := Nat.ofDigitChars 10 taken.1 0
    some (if negative then -n else n, taken.2)

/-- The exponent, if there is one. -/
def parseExponent : List Char → Option (ℤ × List Char)
  | c :: rest =>
    if c = 'e' ∨ c = 'E' then signedExponent (parseSign rest).1 (takeDigits (parseSign rest).2)
    else some (0, c :: rest)
  | [] => some (0, [])

/-- The sign of a number. -/
def parseMinus : List Char → Bool × List Char
  | '-' :: rest => (true, rest)
  | text => (false, text)

/-- A number at the start of a text, as `JSON.parse` reads it, and the rest. -/
def parseNumber (text : List Char) : Option (Number × List Char) := do
  let (whole, rest) ← parseWhole (parseMinus text).2
  let (fraction, rest) ← parseFraction rest
  let (exponent, rest) ← parseExponent rest
  some (decimalNumber (parseMinus text).1 whole fraction exponent, rest)

/-! ## Reading a literal -/

section

variable {rest : List Char}

/-- What can stand behind a value: nothing, or the end or the next part of what it is in. -/
def Delimited (rest : List Char) : Prop := ∀ c ∈ rest.head?, c = ',' ∨ c = ']' ∨ c = '}'

/-- The next character is no digit. -/
def NoDigit (rest : List Char) : Prop := ∀ c ∈ rest.head?, c.isDigit = false

theorem noDigit_cons {c : Char} (h : c.isDigit = false) : NoDigit (c :: rest) := by
  rintro d hd
  cases hd
  exact h

theorem Delimited.noDigit (h : Delimited rest) : NoDigit rest := by
  intro c hc
  rcases h c hc with rfl | rfl | rfl <;> rfl

theorem isDigit_digit : ∀ d : Fin 10, (digit d).isDigit = true := by decide

/-- A run of digits is taken as a whole. -/
theorem takeDigits_append {ds : List Char} (hds : ∀ d ∈ ds, d.isDigit = true)
    (hrest : NoDigit rest) : takeDigits (ds ++ rest) = (ds, rest) := by
  have htake : rest.takeWhile Char.isDigit = [] := by
    cases rest with
    | nil => rfl
    | cons c rest => rw [List.takeWhile_cons, hrest c rfl]; rfl
  have hdrop : rest.dropWhile Char.isDigit = rest := by
    cases rest with
    | nil => rfl
    | cons c rest => rw [List.dropWhile_cons, hrest c rfl]; rfl
  rw [takeDigits, List.takeWhile_append_of_pos hds, List.dropWhile_append_of_pos hds, htake, hdrop,
    List.append_nil]

theorem isDigit_of_mem_map_digit {ds : List (Fin 10)} {c : Char} (h : c ∈ ds.map digit) :
    c.isDigit = true := by
  obtain ⟨d, -, rfl⟩ := List.mem_map.1 h
  exact isDigit_digit d

/-- A positive number starts with no zero. -/
theorem head_toDigits {n : ℕ} (h : n ≠ 0) :
    ∃ c cs, Nat.toDigits 10 n = c :: cs ∧ c ≠ '0' := by
  induction n using Nat.strong_induction_on with
  | h n ih =>
    by_cases hlt : n < 10
    · refine ⟨n.digitChar, [], Nat.toDigits_of_lt_base hlt, ?_⟩
      interval_cases n <;> first | exact (h rfl).elim | decide
    · obtain ⟨c, cs, hcs, hc⟩ := ih (n / 10) (by omega) (by omega)
      rw [Nat.toDigits_of_base_le (by norm_num) (by omega), hcs]
      exact ⟨c, _, rfl, hc⟩

theorem parseWhole_toDigits (n : ℕ) (hrest : NoDigit rest) :
    parseWhole (Nat.toDigits 10 n ++ rest) = some (Nat.toDigits 10 n, rest) := by
  by_cases hn : n = 0
  · subst hn
    rfl
  · obtain ⟨c, cs, hcs, hc⟩ := head_toDigits hn
    have htake : takeDigits (Nat.toDigits 10 n ++ rest) = (Nat.toDigits 10 n, rest) :=
      takeDigits_append (fun d hd => Nat.isDigit_of_mem_toDigits (by norm_num) (by norm_num) hd)
        hrest
    rw [hcs] at htake ⊢
    unfold parseWhole
    split
    · rename_i heq
      exact (hc (List.cons.inj heq).1).elim
    · rw [htake]
      exact if_neg (List.cons_ne_nil c cs)

theorem parseFraction_text (l : NumberLiteral) (hrest : NoDigit rest)
    (hpoint : ∀ c ∈ rest.head?, c ≠ '.') :
    parseFraction (l.fractionText ++ rest) = some (l.fraction.map digit, rest) := by
  unfold NumberLiteral.fractionText
  split_ifs with hnil
  · rw [hnil]
    unfold parseFraction
    split
    · rename_i heq
      rw [List.nil_append] at heq
      rw [heq] at hpoint
      exact (hpoint '.' rfl rfl).elim
    · rfl
  · have htake : takeDigits (l.fraction.map digit ++ rest) = (l.fraction.map digit, rest) :=
      takeDigits_append (fun _ => isDigit_of_mem_map_digit) hrest
    rw [List.cons_append, parseFraction, htake]
    exact if_neg fun h => hnil (List.map_eq_nil_iff.1 h)

theorem digit_ne_sign : ∀ d : Fin 10, digit d ≠ '-' ∧ digit d ≠ '+' := by decide

theorem parseSign_signText (sign : Option Bool) (d : Fin 10) (rest : List Char) :
    parseSign (signText sign ++ digit d :: rest) =
      (decide (sign = some true), digit d :: rest) := by
  rcases sign with _ | _ | _
  · -- a digit is no sign
    unfold parseSign
    split
    · rename_i heq
      exact ((digit_ne_sign d).1 (List.cons.inj heq).1).elim
    · rename_i heq
      exact ((digit_ne_sign d).2 (List.cons.inj heq).1).elim
    · rfl
  · rfl
  · rfl

theorem parseExponent_text (l : NumberLiteral) (hrest : Delimited rest) :
    parseExponent (l.exponentText ++ rest) =
      some ((l.exponent.map Exponent.value).getD 0, rest) := by
  unfold NumberLiteral.exponentText
  cases l.exponent with
  | none =>
    show parseExponent rest = some (0, rest)
    cases rest with
    | nil => rfl
    | cons c rest =>
      rw [parseExponent]
      refine if_neg ?_
      rcases hrest c rfl with rfl | rfl | rfl <;> decide
  | some e =>
    have htake : takeDigits ((e.first :: e.others).map digit ++ rest) =
        ((e.first :: e.others).map digit, rest) :=
      takeDigits_append (fun _ => isDigit_of_mem_map_digit) hrest.noDigit
    have hsign := parseSign_signText e.sign e.first (e.others.map digit ++ rest)
    show parseExponent ('e' :: (signText e.sign ++ (e.first :: e.others).map digit) ++ rest) = _
    rw [List.cons_append, parseExponent, if_pos (.inl rfl), List.append_assoc]
    rw [List.map_cons, List.cons_append] at htake ⊢
    rw [hsign, htake, signedExponent, if_neg (List.cons_ne_nil _ _)]
    simp only [decide_eq_true_eq]
    rfl

/-- The rest of a literal starts with no digit, wherever it is cut. -/
theorem noDigit_exponentText (l : NumberLiteral) (hrest : Delimited rest) :
    NoDigit (l.exponentText ++ rest) := by
  unfold NumberLiteral.exponentText
  cases l.exponent with
  | none => exact hrest.noDigit
  | some e => exact noDigit_cons rfl

theorem noDigit_fractionText (l : NumberLiteral) (hrest : Delimited rest) :
    NoDigit (l.fractionText ++ (l.exponentText ++ rest)) := by
  unfold NumberLiteral.fractionText
  split_ifs
  · exact noDigit_exponentText l hrest
  · exact noDigit_cons rfl

theorem exponentText_ne_point (l : NumberLiteral) (hrest : Delimited rest) :
    ∀ c ∈ (l.exponentText ++ rest).head?, c ≠ '.' := by
  unfold NumberLiteral.exponentText
  cases l.exponent with
  | none =>
    intro c hc
    rcases hrest c hc with rfl | rfl | rfl <;> decide
  | some e =>
    intro c hc
    cases hc
    decide

/-- The first character of a number. -/
theorem head_text (l : NumberLiteral) :
    ∃ c cs, l.text = c :: cs ∧ (c = '-' ∨ c.isDigit = true) := by
  unfold NumberLiteral.text
  cases l.negative with
  | true => exact ⟨'-', _, rfl, .inl rfl⟩
  | false =>
    obtain ⟨c, cs, hcs⟩ := List.exists_cons_of_ne_nil (Nat.toDigits_ne_nil (n := l.whole) (b := 10))
    refine ⟨c, _, by rw [hcs]; rfl, .inr ?_⟩
    exact Nat.isDigit_of_mem_toDigits (by norm_num) (by norm_num) (hcs ▸ List.mem_cons_self)

/-- **Reading a literal.**  A literal that ends where the value ends is read as its number. -/
theorem parseNumber_text (l : NumberLiteral) (hrest : Delimited rest) :
    parseNumber (l.text ++ rest) = some (l.number, rest) := by
  have hminus : parseMinus (l.text ++ rest) = (l.negative,
      Nat.toDigits 10 l.whole ++ (l.fractionText ++ (l.exponentText ++ rest))) := by
    unfold NumberLiteral.text
    cases l.negative with
    | true => simp [parseMinus]
    | false =>
      obtain ⟨c, cs, hcs⟩ :=
        List.exists_cons_of_ne_nil (Nat.toDigits_ne_nil (n := l.whole) (b := 10))
      have hc : c.isDigit = true :=
        Nat.isDigit_of_mem_toDigits (by norm_num) (by norm_num) (hcs ▸ List.mem_cons_self)
      rw [hcs]
      unfold parseMinus
      split
      · rename_i heq
        rw [(List.cons.inj heq).1] at hc
        cases hc
      · simp
  unfold parseNumber
  rw [hminus]
  simp only [parseWhole_toDigits _ (noDigit_fractionText l hrest),
    parseFraction_text l (noDigit_exponentText l hrest) (exponentText_ne_point l hrest),
    parseExponent_text l hrest, Option.bind_eq_bind, Option.bind_some]
  rfl

end

/-! ## Printing numbers -/

/-- The number of a literal without fraction. -/
theorem number_of_fraction_nil {l : NumberLiteral} (h : l.fraction = []) :
    l.number = .ofRat l.negative (l.whole * 10 ^ ((l.exponent.map Exponent.value).getD 0)) := by
  unfold NumberLiteral.number decimalNumber
  rw [h, List.map_nil, List.append_nil, Nat.ofDigitChars_toDigits (by norm_num) (by norm_num),
    List.length_nil, Nat.cast_zero, sub_zero]

/-- An integer is read as the double nearest to it. -/
theorem number_ofInt (n : ℤ) : (NumberLiteral.ofInt n).number = .ofInt n := by
  rw [number_of_fraction_nil rfl]
  show Number.ofRat _ ((n.natAbs : ℚ) * 10 ^ (0 : ℤ)) = _
  rw [zpow_zero, mul_one]
  rfl

/-- A finite double. -/
structure Double where
  negative : Bool
  magnitude : ℚ
  nearest_eq : nearest magnitude = some magnitude

/-- A double as a number. -/
def Double.number (x : Double) : Number := .finite x.negative x.magnitude

/-- A way to print finite doubles as literals that read back. -/
structure FloatRepr where
  literal : Double → NumberLiteral
  reads_back : ∀ x, (literal x).number = x.number

/-- Every double has a literal: its multiple of `10 ^ (-1074)`. -/
def exactRepr : FloatRepr where
  literal x := ⟨x.negative, ⌊x.magnitude * 10 ^ 1074⌋₊, [], some ⟨some true, 1, [0, 7, 4]⟩⟩
  reads_back x := by
    obtain ⟨n, hn⟩ := exists_eq_mul_of_nearest x.nearest_eq
    have hten : (10 : ℚ) ^ 1074 = 2 ^ 1074 * 5 ^ 1074 := by
      rw [← mul_pow]
      norm_num
    have hwhole : x.magnitude * 10 ^ 1074 = ((n * 5 ^ 1074 : ℕ) : ℚ) := by
      rw [hten, ← mul_assoc, hn, Nat.cast_mul, Nat.cast_pow, Nat.cast_ofNat]
    have hexp : Exponent.value ⟨some true, 1, [0, 7, 4]⟩ = -(1074 : ℕ) := by decide
    rw [number_of_fraction_nil rfl]
    show Number.ofRat x.negative ((⌊x.magnitude * 10 ^ 1074⌋₊ : ℚ) *
      10 ^ Exponent.value ⟨some true, 1, [0, 7, 4]⟩) = _
    rw [hwhole, Nat.floor_natCast, ← hwhole, hexp, zpow_neg, zpow_natCast,
      mul_inv_cancel_right₀ (pow_ne_zero _ (by norm_num)), Number.ofRat, x.nearest_eq]
    rfl

end Json

end TrackFlow
