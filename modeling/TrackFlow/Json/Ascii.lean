import Mathlib.Data.Bool.AllAny
import Mathlib.Data.List.Sort
import TrackFlow.Json.Value
import TrackFlow.Python.CodePoint

/-!
# `json.load` and the ASCII `json.dumps`

The values that `json.load` returns, among them strings with surrogates and the numbers that are
none, and the texts that `json.dumps` prints with `ensure_ascii` and `sort_keys`.  Such a text is
used as a fingerprint: two values are taken for the same if their texts are.

* `Value` : a value; `Value.get`, `Value.truthy`, `Value.eq` : `dict.get`, `bool`, `==`.
* `dumps` : `json.dumps` with `ensure_ascii`; `sortKeys` : what `sort_keys` does.
* `utf16` : the UTF-16 code units of the strings; all that a text says of a string.
* `dumps_append_inj` : no text is the beginning of another one.
* `utf16_eq_of_dumps_eq` : **a text determines its value**, but for the code units of the strings.
* `sortKeys_eq_of_dumps_eq` : of values without surrogates it determines all but the order of keys.
-/

namespace TrackFlow

namespace Json

namespace Ascii

open Python

/-! ## Values -/

/-- A float. -/
inductive Float
  | finite (x : Double)
  | infinity (negative : Bool)
  | nan

/-- A value that `json.load` returns. -/
inductive Value
  | none
  | bool (b : Bool)
  | int (n : ℤ)
  | float (x : Float)
  | str (s : Str)
  | list (items : List Value)
  | dict (items : List (Str × Value))

/-- The items of a dictionary; its keys are distinct. -/
abbrev Dict := List (Str × Value)

/-- `dict.get`. -/
def Dict.get (items : Dict) (key : String) : Value :=
  ((items.find? fun item => item.1 = ofString key).map Prod.snd).getD .none

namespace Value

/-- `isinstance(value, bool)`. -/
def isBool : Value → Bool
  | bool _ => true
  | _ => false

/-- `value == text`. -/
def isStr (v : Value) (text : Str) : Bool :=
  match v with
  | str s => s = text
  | _ => false

/-- `value is b`. -/
def isIdentical (v : Value) (b : Bool) : Bool :=
  match v with
  | bool b' => b' = b
  | _ => false

/-- `bool(value)`. -/
def truthy : Value → Bool
  | none => false
  | bool b => b
  | int n => n ≠ 0
  | float (.finite x) => x.magnitude ≠ 0
  | float _ => true
  | str s => s ≠ []
  | list items => items ≠ []
  | dict items => items ≠ []

/-- What a number is compared by; `bool` is a kind of `int`. -/
inductive Quantity
  | finite (q : ℚ)
  | infinity (negative : Bool)
  | nan
  deriving DecidableEq, Repr

def quantity : Value → Option Quantity
  | bool b => some (.finite (if b then 1 else 0))
  | int n => some (.finite n)
  | float (.finite x) => some (.finite (if x.negative then -x.magnitude else x.magnitude))
  | float (.infinity negative) => some (.infinity negative)
  | float .nan => some .nan
  | _ => Option.none

mutual

/-- `==` inside a container.  All the `NaN`s of `json.load` are one object, which a container takes
for equal to itself. -/
def eq : Value → Value → Bool
  | none, w => match w with
    | none => true
    | _ => false
  | bool b, w => (bool b).quantity = w.quantity
  | int n, w => (int n).quantity = w.quantity
  | float x, w => (float x).quantity = w.quantity
  | str s, w => w.isStr s
  | list items, w => match w with
    | list items' => eqItems items items'
    | _ => false
  | dict items, w => match w with
    | dict items' => items.length == items'.length && eqMembers items items'
    | _ => false

def eqItems : List Value → List Value → Bool
  | [], [] => true
  | v :: items, w :: items' => eq v w && eqItems items items'
  | _, _ => false

/-- The members have equals of the same keys. -/
def eqMembers : List (Str × Value) → List (Str × Value) → Bool
  | [], _ => true
  | (key, v) :: items, items' =>
    (match items'.find? fun item => item.1 = key with
      | some item => eq v item.2
      | Option.none => false) && eqMembers items items'

end

theorem eq_of_bool {a b : Bool} (h : (bool a).eq (bool b) = true) : a = b := by
  revert h
  cases a <;> cases b <;> decide

theorem eq_of_isStr {v : Value} {s : Str} (h : v.isStr s = true) : v = str s := by
  cases v with
  | str t => exact congrArg str (of_decide_eq_true h)
  | _ => cases h

theorem eq_of_str {s : Str} {w : Value} (h : (str s).eq w = true) : w = str s := eq_of_isStr h

theorem exists_of_isBool {v : Value} (h : v.isBool = true) : ∃ b, v = bool b := by
  cases v with
  | bool b => exact ⟨b, rfl⟩
  | _ => cases h

end Value

/-! ## Printing -/

/-- The UTF-16 code units of a code point; a surrogate is its own unit. -/
def units (c : CodePoint) : Str :=
  if c.val < 0x10000 then [c]
  else [Fin.ofNat _ (0xd800 + (c.val - 0x10000) / 0x400),
    Fin.ofNat _ (0xdc00 + (c.val - 0x10000) % 0x400)]

/-- What `ESCAPE_ASCII` leaves as it is, and `ESCAPE_DCT` or `\uXXXX` for the other units. -/
def unitText (c : CodePoint) : List Char :=
  if c.val = 34 then ['\\', '"']
  else if c.val = 92 then ['\\', '\\']
  else if c.val = 10 then ['\\', 'n']
  else if c.val = 13 then ['\\', 'r']
  else if c.val = 9 then ['\\', 't']
  else if c.val = 12 then ['\\', 'f']
  else if c.val = 8 then ['\\', 'b']
  else if 32 ≤ c.val ∧ c.val ≤ 126 then [Char.ofNat c.val]
  else ['\\', 'u', hexDigit (c.val / 4096 % 16), hexDigit (c.val / 256 % 16),
    hexDigit (c.val / 16 % 16), hexDigit (c.val % 16)]

/-- `encode_basestring_ascii`. -/
def dumpString (s : Str) : List Char := '"' :: ((s.flatMap units).flatMap unitText ++ ['"'])

/-- `float.__repr__`: a literal with a point or an exponent. -/
structure PythonRepr extends FloatRepr where
  pointed : ∀ x, (literal x).fraction ≠ [] ∨ (literal x).exponent ≠ none

/-- The name of an infinity. -/
def infinityText : Bool → List Char
  | false => "Infinity".toList
  | true => "-Infinity".toList

/-- `float.__repr__`, and the names of the floats that are no numbers. -/
def Float.text (r : PythonRepr) : Float → List Char
  | .finite x => (r.literal x).text
  | .infinity negative => infinityText negative
  | .nan => "NaN".toList

section

variable (r : PythonRepr)

mutual

/-- `json.dumps(value, separators=(",", ":"))`. -/
def dumps : Value → List Char
  | .none => "null".toList
  | .bool true => "true".toList
  | .bool false => "false".toList
  | .int n => (NumberLiteral.ofInt n).text
  | .float x => x.text r
  | .str s => dumpString s
  | .list [] => ['[', ']']
  | .list (item :: items) => '[' :: (dumps item ++ dumpItems items)
  | .dict [] => ['{', '}']
  | .dict ((key, value) :: items) =>
    '{' :: (dumpString key ++ ':' :: (dumps value ++ dumpMembers items))

/-- The items behind the first one, and the bracket. -/
def dumpItems : List Value → List Char
  | [] => [']']
  | item :: items => ',' :: (dumps item ++ dumpItems items)

/-- The members behind the first one, and the brace. -/
def dumpMembers : List (Str × Value) → List Char
  | [] => ['}']
  | (key, value) :: items =>
    ',' :: (dumpString key ++ ':' :: (dumps value ++ dumpMembers items))

end

end

namespace Value

mutual

/-- The order of `sort_keys`, in every dictionary. -/
def sortKeys : Value → Value
  | list items => list (sortItems items)
  | dict items => dict ((sortMembers items).insertionSort fun a b => a.1 ≤ b.1)
  | v => v

def sortItems : List Value → List Value
  | [] => []
  | v :: items => sortKeys v :: sortItems items

def sortMembers : List (Str × Value) → List (Str × Value)
  | [] => []
  | (key, v) :: items => (key, sortKeys v) :: sortMembers items

end

theorem sortItems_eq_map (items : List Value) : sortItems items = items.map sortKeys := by
  induction items with
  | nil => rfl
  | cons v items ih => rw [sortItems, ih, List.map_cons]

mutual

/-- Strings as UTF-16 code units. -/
def utf16 : Value → Value
  | str s => str (s.flatMap units)
  | list items => list (utf16Items items)
  | dict items => dict (utf16Members items)
  | v => v

def utf16Items : List Value → List Value
  | [] => []
  | v :: items => utf16 v :: utf16Items items

def utf16Members : List (Str × Value) → List (Str × Value)
  | [] => []
  | (key, v) :: items => (key.flatMap units, utf16 v) :: utf16Members items

end

theorem utf16Items_eq_map (items : List Value) : utf16Items items = items.map utf16 := by
  induction items with
  | nil => rfl
  | cons v items ih => rw [utf16Items, ih, List.map_cons]

end Value

/-! ## Strings -/

/-- A code unit at the start of a text, and the rest. -/
def readUnit : List Char → Option (ℕ × List Char)
  | [] => none
  | '\\' :: 'u' :: a :: b :: c :: d :: rest => (codeUnit a b c d).map (·, rest)
  | '\\' :: c :: rest => (unescape c).map fun c => (c.toNat, rest)
  | c :: rest => some (c.toNat, rest)

theorem codeUnit_hex {n : ℕ} (h : n < 0x10000) : codeUnit (hexDigit (n / 4096 % 16))
    (hexDigit (n / 256 % 16)) (hexDigit (n / 16 % 16)) (hexDigit (n % 16)) = some n := by
  have hdigit (m : ℕ) : hexValue (hexDigit (m % 16)) = some (m % 16) :=
    hexValue_hexDigit ⟨m % 16, Nat.mod_lt m (by decide)⟩
  unfold codeUnit
  simp only [hdigit, Option.bind_eq_bind, Option.bind_some, Option.some.injEq]
  omega

theorem toNat_ofNat_printable : ∀ n < 127, (Char.ofNat n).toNat = n := by decide

theorem readUnit_of_ne {c : Char} (h : c ≠ '\\') (rest : List Char) :
    readUnit (c :: rest) = some (c.toNat, rest) := by
  unfold readUnit
  split
  case h_1 heq => cases heq
  case h_2 heq | h_3 heq => exact absurd (List.cons.inj heq).1 h
  case h_4 heq => rw [(List.cons.inj heq).1, (List.cons.inj heq).2]

theorem readUnit_unitText {c : CodePoint} (hc : c.val < 0x10000) (rest : List Char) :
    readUnit (unitText c ++ rest) = some (c.val, rest) := by
  unfold unitText
  split_ifs with h₁ h₂ h₃ h₄ h₅ h₆ h₇ h₈
  · rw [h₁]; rfl
  · rw [h₂]; rfl
  · rw [h₃]; rfl
  · rw [h₄]; rfl
  · rw [h₅]; rfl
  · rw [h₆]; rfl
  · rw [h₇]; rfl
  · have hself := toNat_ofNat_printable c.val (Nat.lt_succ_of_le h₈.2)
    have hne : Char.ofNat c.val ≠ '\\' := by
      intro heq
      rw [heq] at hself
      exact h₂ hself.symm
    show readUnit (Char.ofNat c.val :: rest) = _
    rw [readUnit_of_ne hne, hself]
  · show (codeUnit _ _ _ _).map (·, rest) = _
    rw [codeUnit_hex hc]
    rfl

/-- The text of a unit is no quote. -/
theorem exists_unitText_eq (c : CodePoint) : ∃ d ds, unitText c = d :: ds ∧ d ≠ '"' := by
  unfold unitText
  split_ifs with h₁ h₂ h₃ h₄ h₅ h₆ h₇ h₈
  any_goals exact ⟨'\\', _, rfl, by decide⟩
  refine ⟨_, _, rfl, fun heq => h₁ ?_⟩
  have hself := toNat_ofNat_printable c.val (Nat.lt_succ_of_le h₈.2)
  rw [heq] at hself
  exact hself.symm

variable {rest rest' : List Char}

/-- A list of units ends at the quote. -/
theorem flatMap_unitText_append_inj : ∀ {us vs : Str}, (∀ c ∈ us, c.val < 0x10000) →
    (∀ c ∈ vs, c.val < 0x10000) →
    us.flatMap unitText ++ '"' :: rest = vs.flatMap unitText ++ '"' :: rest' →
      us = vs ∧ rest = rest'
  | [], [], _, _, h => ⟨rfl, (List.cons.inj h).2⟩
  | [], d :: vs, _, _, h => by
    obtain ⟨x, xs, hx, hne⟩ := exists_unitText_eq d
    rw [List.flatMap_cons, hx] at h
    exact absurd (List.cons.inj h).1.symm hne
  | c :: us, [], _, _, h => by
    obtain ⟨x, xs, hx, hne⟩ := exists_unitText_eq c
    rw [List.flatMap_cons, hx] at h
    exact absurd (List.cons.inj h).1 hne
  | c :: us, d :: vs, hus, hvs, h => by
    rw [List.flatMap_cons, List.flatMap_cons, List.append_assoc, List.append_assoc] at h
    have hread := congrArg readUnit h
    rw [readUnit_unitText (hus c List.mem_cons_self),
      readUnit_unitText (hvs d List.mem_cons_self), Option.some.injEq, Prod.mk.injEq] at hread
    obtain ⟨hcd, htail⟩ := hread
    obtain ⟨rfl, hrest⟩ := flatMap_unitText_append_inj
      (fun c hc => hus c (List.mem_cons_of_mem _ hc))
      (fun c hc => hvs c (List.mem_cons_of_mem _ hc)) htail
    exact ⟨congrArg (· :: us) (Fin.ext hcd), hrest⟩

theorem units_lt {c d : CodePoint} (h : d ∈ units c) : d.val < 0x10000 := by
  unfold units at h
  split_ifs at h with hc
  · obtain rfl := List.mem_singleton.1 h
    exact hc
  · have hlt := c.isLt
    rcases List.mem_pair.1 h with rfl | rfl <;> simp only [Fin.ofNat] <;> omega

/-- **Strings.**  A string literal determines its code units, and where it ends. -/
theorem dumpString_append_inj {s t : Str} (h : dumpString s ++ rest = dumpString t ++ rest') :
    s.flatMap units = t.flatMap units ∧ rest = rest' := by
  have hunits (s : Str) : ∀ c ∈ s.flatMap units, c.val < 0x10000 := by
    intro c hc
    obtain ⟨d, -, hd⟩ := List.mem_flatMap.1 hc
    exact units_lt hd
  simp only [dumpString, List.cons_append, List.append_assoc, List.nil_append, List.cons.injEq,
    true_and] at h
  exact flatMap_unitText_append_inj (hunits s) (hunits t) h

/-! ## Numbers -/

/-- The characters of a literal. -/
theorem mem_text {l : NumberLiteral} {c : Char} (h : c ∈ l.text) :
    c.isDigit = true ∨ c = '-' ∨ c = '+' ∨ c = '.' ∨ c = 'e' := by
  unfold NumberLiteral.text at h
  simp only [List.mem_append] at h
  rcases h with h | h | h | h
  · split_ifs at h
    · exact .inr (.inl (List.mem_singleton.1 h))
    · cases h
  · exact .inl (Nat.isDigit_of_mem_toDigits (by decide) (by decide) h)
  · unfold NumberLiteral.fractionText at h
    split_ifs at h
    · cases h
    · rcases List.mem_cons.1 h with rfl | h
      · exact .inr (.inr (.inr (.inl rfl)))
      · exact .inl (isDigit_of_mem_map_digit h)
  · unfold NumberLiteral.exponentText at h
    cases he : l.exponent with
    | none =>
      rw [he] at h
      cases h
    | some e =>
      rw [he] at h
      rcases List.mem_cons.1 h with rfl | h
      · exact .inr (.inr (.inr (.inr rfl)))
      · rcases List.mem_append.1 h with h | h
        · rcases hsign : e.sign with _ | _ | _ <;> rw [hsign] at h
          · cases h
          · exact .inr (.inr (.inl (List.mem_singleton.1 h)))
          · exact .inr (.inl (List.mem_singleton.1 h))
        · exact .inl (isDigit_of_mem_map_digit h)

/-- A number, as `json.dumps` prints it. -/
def numeralText (r : PythonRepr) : ℤ ⊕ Float → List Char
  | .inl n => (NumberLiteral.ofInt n).text
  | .inr x => x.text r

variable {r : PythonRepr}

/-- A number holds no character that ends it. -/
theorem numeralText_ne {x : ℤ ⊕ Float} {c : Char} (h : c ∈ numeralText r x) :
    c ≠ ',' ∧ c ≠ ']' ∧ c ≠ '}' := by
  have hliteral {l : NumberLiteral} (h : c ∈ l.text) : c ≠ ',' ∧ c ≠ ']' ∧ c ≠ '}' := by
    rcases mem_text h with hd | rfl | rfl | rfl | rfl
    · refine ⟨?_, ?_, ?_⟩ <;> rintro rfl <;> cases hd
    all_goals decide
  have hinfinity (negative : Bool) :
      ∀ c ∈ infinityText negative, c ≠ ',' ∧ c ≠ ']' ∧ c ≠ '}' :=
    List.all_iff_forall_prop.1 (by cases negative <;> decide)
  have hnan : ∀ c ∈ "NaN".toList, c ≠ ',' ∧ c ≠ ']' ∧ c ≠ '}' :=
    List.all_iff_forall_prop.1 (by decide)
  match x, h with
  | .inl n, h => exact hliteral h
  | .inr (.finite x), h => exact hliteral h
  | .inr (.infinity negative), h => exact hinfinity negative c h
  | .inr .nan, h => exact hnan c h

/-- A list without the characters of a delimiter ends where the delimiter starts. -/
theorem append_delimited_inj {p : Char → Prop} {as bs : List Char} (has : ∀ c ∈ as, ¬ p c)
    (hbs : ∀ c ∈ bs, ¬ p c) (hrest : ∀ c ∈ rest.head?, p c) (hrest' : ∀ c ∈ rest'.head?, p c)
    (h : as ++ rest = bs ++ rest') : as = bs ∧ rest = rest' := by
  rcases List.append_eq_append_iff.1 h with ⟨cs, hb, hr⟩ | ⟨cs, ha, hr⟩
  · cases cs with
    | nil => exact ⟨(hb.trans (List.append_nil as)).symm, hr⟩
    | cons c cs =>
      have hdelimiter : p c := hrest c (by rw [hr]; rfl)
      have hmem : c ∈ bs := by
        rw [hb]
        exact List.mem_append_right as List.mem_cons_self
      exact absurd hdelimiter (hbs c hmem)
  · cases cs with
    | nil => exact ⟨ha.trans (List.append_nil bs), hr.symm⟩
    | cons c cs =>
      have hdelimiter : p c := hrest' c (by rw [hr]; rfl)
      have hmem : c ∈ as := by
        rw [ha]
        exact List.mem_append_right bs List.mem_cons_self
      exact absurd hdelimiter (has c hmem)

theorem toDigits_injective : Function.Injective (Nat.toDigits 10) := by
  intro n m h
  have hread := congrArg (Nat.ofDigitChars 10 · 0) h
  simp only [Nat.ofDigitChars_toDigits (b := 10) (by decide) (by decide)] at hread
  exact hread

theorem text_ofInt (n : ℤ) : (NumberLiteral.ofInt n).text =
    (if n < 0 then ['-'] else []) ++ Nat.toDigits 10 n.natAbs := by
  unfold NumberLiteral.text NumberLiteral.ofInt
  simp only [decide_eq_true_eq, NumberLiteral.fractionText, NumberLiteral.exponentText, if_true,
    Option.map_none, Option.getD_none, List.append_nil]

/-- The digits of a number are no minus. -/
theorem toDigits_ne_minus (n : ℕ) (digits : List Char) : Nat.toDigits 10 n ≠ '-' :: digits := by
  intro h
  have hmem : '-' ∈ Nat.toDigits 10 n := h ▸ List.mem_cons_self
  have hdigit := Nat.isDigit_of_mem_toDigits (by decide) (by decide) hmem
  cases hdigit

theorem text_ofInt_injective {n m : ℤ} (h : (NumberLiteral.ofInt n).text =
    (NumberLiteral.ofInt m).text) : n = m := by
  rw [text_ofInt, text_ofInt] at h
  split_ifs at h with hn hm hm
  · have habs := toDigits_injective (List.cons.inj h).2
    omega
  · exact absurd h.symm (toDigits_ne_minus _ _)
  · exact absurd h (toDigits_ne_minus _ _)
  · have habs := toDigits_injective h
    omega

theorem mem_infinityText : ∀ negative, 'I' ∈ infinityText negative := by decide

theorem infinityText_injective : ∀ a b, infinityText a = infinityText b → a = b := by decide

theorem infinityText_ne_nan : ∀ negative, infinityText negative ≠ "NaN".toList := by decide

/-- The text of a float is marked by a point, an exponent or a name. -/
theorem exists_mark (x : Float) : ∃ c ∈ x.text r, c ∈ ['.', 'e', 'I', 'N'] := by
  match x with
  | .finite x =>
    show ∃ c ∈ (r.literal x).text, _
    unfold NumberLiteral.text
    simp only [List.mem_append]
    rcases r.pointed x with hfraction | hexponent
    · refine ⟨'.', .inr (.inr (.inl ?_)), by decide⟩
      rw [NumberLiteral.fractionText, if_neg hfraction]
      exact List.mem_cons_self
    · obtain ⟨e, he⟩ := Option.ne_none_iff_exists'.1 hexponent
      refine ⟨'e', .inr (.inr (.inr ?_)), by decide⟩
      rw [NumberLiteral.exponentText, he]
      exact List.mem_cons_self
  | .infinity negative => exact ⟨'I', mem_infinityText negative, by decide⟩
  | .nan => exact ⟨'N', List.mem_cons_self, by decide⟩

theorem not_mark_of_mem_ofInt {n : ℤ} {c : Char} (h : c ∈ (NumberLiteral.ofInt n).text) :
    c ∉ ['.', 'e', 'I', 'N'] := by
  rw [text_ofInt] at h
  rcases List.mem_append.1 h with h | h
  · split_ifs at h
    · rw [List.mem_singleton.1 h]
      decide
    · cases h
  · intro hmark
    have hdigit := Nat.isDigit_of_mem_toDigits (by decide) (by decide) h
    simp only [List.mem_cons, List.not_mem_nil, or_false] at hmark
    rcases hmark with rfl | rfl | rfl | rfl <;> cases hdigit

/-- The names are no literals. -/
theorem text_ne_name {l : NumberLiteral} {text : List Char} (h : 'I' ∈ text ∨ 'N' ∈ text) :
    l.text ≠ text := by
  rintro rfl
  rcases h with h | h
  · have hchar := mem_text h
    revert hchar
    decide
  · have hchar := mem_text h
    revert hchar
    decide

/-- A float is read back from its literal. -/
theorem float_text_injective {x y : Float} (h : x.text r = y.text r) : x = y := by
  have hnan : 'I' ∈ "NaN".toList ∨ 'N' ∈ "NaN".toList := by decide
  match x, y, h with
  | .finite x, .finite y, h =>
    have hx : parseNumber ((r.literal x).text ++ []) = _ := parseNumber_text (r.literal x) nofun
    have hy : parseNumber ((r.literal y).text ++ []) = _ := parseNumber_text (r.literal y) nofun
    have htext : (r.literal x).text = (r.literal y).text := h
    rw [htext, hy, Option.some.injEq, Prod.mk.injEq, r.reads_back, r.reads_back] at hx
    obtain ⟨hnumber, -⟩ := hx
    obtain ⟨negative, magnitude, hnearest⟩ := x
    obtain ⟨negative', magnitude', hnearest'⟩ := y
    obtain ⟨rfl, rfl⟩ := Number.finite.inj hnumber
    rfl
  | .finite x, .infinity b, h => exact absurd h (text_ne_name (.inl (mem_infinityText b)))
  | .finite x, .nan, h => exact absurd h (text_ne_name hnan)
  | .infinity a, .finite y, h => exact absurd h.symm (text_ne_name (.inl (mem_infinityText a)))
  | .nan, .finite y, h => exact absurd h.symm (text_ne_name hnan)
  | .infinity a, .infinity b, h => exact congrArg Float.infinity (infinityText_injective a b h)
  | .infinity a, .nan, h => exact absurd h (infinityText_ne_nan a)
  | .nan, .infinity b, h => exact absurd h.symm (infinityText_ne_nan b)
  | .nan, .nan, _ => rfl

theorem numeralText_injective : Function.Injective (numeralText r) := by
  rintro (n | x) (m | y) h
  · exact congrArg Sum.inl (text_ofInt_injective h)
  · obtain ⟨c, hc, hmark⟩ := exists_mark (r := r) y
    have htext : (NumberLiteral.ofInt n).text = y.text r := h
    rw [← htext] at hc
    exact absurd hmark (not_mark_of_mem_ofInt hc)
  · obtain ⟨c, hc, hmark⟩ := exists_mark (r := r) x
    have htext : x.text r = (NumberLiteral.ofInt m).text := h
    rw [htext] at hc
    exact absurd hmark (not_mark_of_mem_ofInt hc)
  · exact congrArg Sum.inr (float_text_injective h)

theorem numeralText_append_inj {x y : ℤ ⊕ Float} (hrest : Delimited rest) (hrest' : Delimited rest')
    (h : numeralText r x ++ rest = numeralText r y ++ rest') : x = y ∧ rest = rest' := by
  have hnone (x : ℤ ⊕ Float) : ∀ c ∈ numeralText r x, ¬ (c = ',' ∨ c = ']' ∨ c = '}') := by
    rintro c hc (hcomma | hbracket | hbrace)
    · exact (numeralText_ne hc).1 hcomma
    · exact (numeralText_ne hc).2.1 hbracket
    · exact (numeralText_ne hc).2.2 hbrace
  obtain ⟨htext, hsame⟩ := append_delimited_inj (hnone x) (hnone y) hrest hrest' h
  exact ⟨numeralText_injective htext, hsame⟩

/-! ## Texts -/

/-- The kinds of values. -/
inductive Kind
  | null
  | boolean
  | number
  | string
  | array
  | object
  deriving DecidableEq, Repr

def Value.kind : Value → Kind
  | none => .null
  | bool _ => .boolean
  | int _ | float _ => .number
  | str _ => .string
  | list _ => .array
  | dict _ => .object

/-- The kind of a value, by the first character of its text. -/
def kindOf (c : Char) : Option Kind :=
  if c = 'n' then some .null
  else if c = 't' ∨ c = 'f' then some .boolean
  else if c = '"' then some .string
  else if c = '[' then some .array
  else if c = '{' then some .object
  else if c = '-' ∨ c.isDigit = true ∨ c = 'I' ∨ c = 'N' then some .number
  else none

theorem kindOf_head {c : Char} (h : c = '-' ∨ c.isDigit = true) : kindOf c = some .number := by
  rcases h with rfl | h
  · rfl
  · have hne {d : Char} (hd : d.isDigit = false) : c ≠ d := by
      rintro rfl
      exact absurd (hd.symm.trans h) Bool.false_ne_true
    unfold kindOf
    rw [if_neg (hne rfl), if_neg (not_or.2 ⟨hne rfl, hne rfl⟩), if_neg (hne rfl), if_neg (hne rfl),
      if_neg (hne rfl), if_pos (.inr (.inl h))]

theorem exists_dumps_eq (v : Value) : ∃ c cs, dumps r v = c :: cs ∧ kindOf c = some v.kind := by
  have hliteral (l : NumberLiteral) : ∃ c cs, l.text = c :: cs ∧ kindOf c = some .number := by
    obtain ⟨c, cs, hl, hc⟩ := head_text l
    exact ⟨c, cs, hl, kindOf_head hc⟩
  match v with
  | .none => exact ⟨_, _, rfl, rfl⟩
  | .bool b => cases b <;> exact ⟨_, _, rfl, rfl⟩
  | .int n => exact hliteral _
  | .float (.finite x) => exact hliteral _
  | .float (.infinity negative) => cases negative <;> exact ⟨_, _, rfl, rfl⟩
  | .float .nan => exact ⟨_, _, rfl, rfl⟩
  | .str s => exact ⟨_, _, rfl, rfl⟩
  | .list [] | .list (_ :: _) => exact ⟨_, _, rfl, rfl⟩
  | .dict [] | .dict ((_, _) :: _) => exact ⟨_, _, rfl, rfl⟩

theorem kind_eq {v w : Value} (h : dumps r v ++ rest = dumps r w ++ rest') : v.kind = w.kind := by
  obtain ⟨c, cs, hv, hc⟩ := exists_dumps_eq (r := r) v
  obtain ⟨d, ds, hw, hd⟩ := exists_dumps_eq (r := r) w
  rw [hv, hw] at h
  obtain rfl := (List.cons.inj h).1
  exact Option.some.inj (hc.symm.trans hd)

/-- A value does not start like the end of a list or of a dictionary. -/
theorem dumps_ne {v : Value} {c : Char} (hc : kindOf c = none) :
    dumps r v ++ rest ≠ c :: rest' := by
  obtain ⟨d, ds, hv, hd⟩ := exists_dumps_eq (r := r) v
  intro h
  rw [hv] at h
  obtain rfl := (List.cons.inj h).1
  rw [hc] at hd
  cases hd

theorem delimited_dumpItems (items : List Value) : Delimited (dumpItems r items ++ rest) := by
  intro c hc
  cases items with
  | nil => exact .inr (.inl (Option.some.inj hc).symm)
  | cons item items => exact .inl (Option.some.inj hc).symm

theorem delimited_dumpMembers (items : Dict) : Delimited (dumpMembers r items ++ rest) := by
  intro c hc
  cases items with
  | nil => exact .inr (.inr (Option.some.inj hc).symm)
  | cons item items => exact .inl (Option.some.inj hc).symm

mutual

/-- **No text is the beginning of another one.**  A text determines the value, but for the code
units of the strings, and where it ends. -/
theorem dumps_append_inj : ∀ (v w : Value) {rest rest' : List Char},
    Delimited rest → Delimited rest' → dumps r v ++ rest = dumps r w ++ rest' →
      v.utf16 = w.utf16 ∧ rest = rest'
  | .none, w, rest, rest', hrest, hrest', h => by
    have hkind := kind_eq h
    cases w with
    | none => exact ⟨rfl, List.append_cancel_left h⟩
    | _ => cases hkind
  | .bool a, w, rest, rest', hrest, hrest', h => by
    have hkind := kind_eq h
    cases w with
    | bool b =>
      cases a <;> cases b
      case false.false | true.true => exact ⟨rfl, List.append_cancel_left h⟩
      all_goals cases (List.cons.inj h).1
    | _ => cases hkind
  | .int n, w, rest, rest', hrest, hrest', h => by
    have hkind := kind_eq h
    cases w with
    | int m =>
      obtain ⟨hnm, hsame⟩ :=
        numeralText_append_inj (r := r) (x := .inl n) (y := .inl m) hrest hrest' h
      exact ⟨congrArg (fun n => Value.utf16 (.int n)) (Sum.inl.inj hnm), hsame⟩
    | float y =>
      obtain ⟨hnm, -⟩ := numeralText_append_inj (r := r) (x := .inl n) (y := .inr y) hrest hrest' h
      cases hnm
    | _ => cases hkind
  | .float x, w, rest, rest', hrest, hrest', h => by
    have hkind := kind_eq h
    cases w with
    | int m =>
      obtain ⟨hnm, -⟩ := numeralText_append_inj (r := r) (x := .inr x) (y := .inl m) hrest hrest' h
      cases hnm
    | float y =>
      obtain ⟨hnm, hsame⟩ :=
        numeralText_append_inj (r := r) (x := .inr x) (y := .inr y) hrest hrest' h
      exact ⟨congrArg (fun x => Value.utf16 (.float x)) (Sum.inr.inj hnm), hsame⟩
    | _ => cases hkind
  | .str s, w, rest, rest', hrest, hrest', h => by
    have hkind := kind_eq h
    cases w with
    | str t =>
      obtain ⟨hst, hsame⟩ := dumpString_append_inj h
      exact ⟨congrArg Value.str hst, hsame⟩
    | _ => cases hkind
  | .list [], w, rest, rest', hrest, hrest', h => by
    have hkind := kind_eq h
    match w with
    | .list [] => exact ⟨rfl, List.append_cancel_left h⟩
    | .list (item :: items) =>
      simp only [dumps, List.cons_append, List.append_assoc, List.cons.injEq, true_and] at h
      exact absurd h.symm (dumps_ne rfl)
    | .none | .bool _ | .int _ | .float _ | .str _ | .dict _ => cases hkind
  | .list (item :: items), w, rest, rest', hrest, hrest', h => by
    have hkind := kind_eq h
    match w with
    | .list [] =>
      simp only [dumps, List.cons_append, List.append_assoc, List.cons.injEq, true_and] at h
      exact absurd h (dumps_ne rfl)
    | .list (item' :: items') =>
      simp only [dumps, List.cons_append, List.append_assoc, List.cons.injEq, true_and] at h
      obtain ⟨hitem, htail⟩ :=
        dumps_append_inj item item' (delimited_dumpItems items) (delimited_dumpItems items') h
      obtain ⟨hitems, hsame⟩ := dumpItems_append_inj items items' htail
      refine ⟨?_, hsame⟩
      rw [Value.utf16, Value.utf16, Value.utf16Items, Value.utf16Items, hitem, hitems]
    | .none | .bool _ | .int _ | .float _ | .str _ | .dict _ => cases hkind
  | .dict [], w, rest, rest', hrest, hrest', h => by
    have hkind := kind_eq h
    match w with
    | .dict [] => exact ⟨rfl, List.append_cancel_left h⟩
    | .dict ((key, v) :: items) =>
      simp only [dumps, dumpString, List.cons_append, List.cons.injEq, true_and] at h
      exact absurd h.1 (by decide)
    | .none | .bool _ | .int _ | .float _ | .str _ | .list _ => cases hkind
  | .dict ((key, v) :: items), w, rest, rest', hrest, hrest', h => by
    have hkind := kind_eq h
    match w with
    | .dict [] =>
      simp only [dumps, dumpString, List.cons_append, List.cons.injEq, true_and] at h
      exact absurd h.1 (by decide)
    | .dict ((key', v') :: items') =>
      simp only [dumps, List.cons_append, List.append_assoc, List.cons.injEq, true_and] at h
      obtain ⟨hkey, hbehind⟩ := dumpString_append_inj h
      obtain ⟨hv, htail⟩ := dumps_append_inj v v' (delimited_dumpMembers items)
        (delimited_dumpMembers items') (List.cons.inj hbehind).2
      obtain ⟨hitems, hsame⟩ := dumpMembers_append_inj items items' htail
      refine ⟨?_, hsame⟩
      rw [Value.utf16, Value.utf16, Value.utf16Members, Value.utf16Members, hkey, hv, hitems]
    | .none | .bool _ | .int _ | .float _ | .str _ | .list _ => cases hkind

theorem dumpItems_append_inj : ∀ (items items' : List Value) {rest rest' : List Char},
    dumpItems r items ++ rest = dumpItems r items' ++ rest' →
      Value.utf16Items items = Value.utf16Items items' ∧ rest = rest'
  | [], [], _, _, h => ⟨rfl, (List.cons.inj h).2⟩
  | [], _ :: _, _, _, h => absurd (List.cons.inj h).1 (by decide)
  | _ :: _, [], _, _, h => absurd (List.cons.inj h).1 (by decide)
  | item :: items, item' :: items', _, _, h => by
    simp only [dumpItems, List.cons_append, List.append_assoc, List.cons.injEq, true_and] at h
    obtain ⟨hitem, htail⟩ :=
      dumps_append_inj item item' (delimited_dumpItems items) (delimited_dumpItems items') h
    obtain ⟨hitems, hsame⟩ := dumpItems_append_inj items items' htail
    refine ⟨?_, hsame⟩
    rw [Value.utf16Items, Value.utf16Items, hitem, hitems]

theorem dumpMembers_append_inj : ∀ (items items' : Dict) {rest rest' : List Char},
    dumpMembers r items ++ rest = dumpMembers r items' ++ rest' →
      Value.utf16Members items = Value.utf16Members items' ∧ rest = rest'
  | [], [], _, _, h => ⟨rfl, (List.cons.inj h).2⟩
  | [], (_, _) :: _, _, _, h => absurd (List.cons.inj h).1 (by decide)
  | (_, _) :: _, [], _, _, h => absurd (List.cons.inj h).1 (by decide)
  | (key, v) :: items, (key', v') :: items', _, _, h => by
    simp only [dumpMembers, List.cons_append, List.append_assoc, List.cons.injEq, true_and] at h
    obtain ⟨hkey, hbehind⟩ := dumpString_append_inj h
    obtain ⟨hv, htail⟩ := dumps_append_inj v v' (delimited_dumpMembers items)
      (delimited_dumpMembers items') (List.cons.inj hbehind).2
    obtain ⟨hitems, hsame⟩ := dumpMembers_append_inj items items' htail
    refine ⟨?_, hsame⟩
    rw [Value.utf16Members, Value.utf16Members, hkey, hv, hitems]

end

/-- **A text determines its value**, but for the code units of the strings. -/
theorem utf16_eq_of_dumps_eq {v w : Value} (h : dumps r v = dumps r w) : v.utf16 = w.utf16 := by
  have hnil : Delimited [] := nofun
  exact (dumps_append_inj v w hnil hnil (congrArg (· ++ []) h)).1

/-! ## Well-formed strings -/

/-- A string without surrogates. -/
def Scalar (s : Str) : Prop := ∀ c ∈ s, c.val < 0xd800 ∨ 0xdfff < c.val

namespace Value

mutual

/-- The strings of the value have no surrogates. -/
def WellFormed : Value → Prop
  | str s => Scalar s
  | list items => WellFormedItems items
  | dict items => WellFormedMembers items
  | _ => True

def WellFormedItems : List Value → Prop
  | [] => True
  | v :: items => WellFormed v ∧ WellFormedItems items

def WellFormedMembers : List (Str × Value) → Prop
  | [] => True
  | (key, v) :: items => (Scalar key ∧ WellFormed v) ∧ WellFormedMembers items

end

theorem wellFormedItems_iff {items : List Value} :
    WellFormedItems items ↔ ∀ v ∈ items, v.WellFormed := by
  induction items with
  | nil => exact ⟨fun _ _ h => absurd h List.not_mem_nil, fun _ => trivial⟩
  | cons v items ih => rw [WellFormedItems, ih, List.forall_mem_cons]

theorem wellFormedMembers_iff {items : List (Str × Value)} :
    WellFormedMembers items ↔ ∀ item ∈ items, Scalar item.1 ∧ item.2.WellFormed := by
  induction items with
  | nil => exact ⟨fun _ _ h => absurd h List.not_mem_nil, fun _ => trivial⟩
  | cons item items ih => rw [WellFormedMembers, ih, List.forall_mem_cons]

end Value

/-- A pair of surrogates determines its code point, which is no unit. -/
theorem units_append_inj {c d : CodePoint} {s t : Str} (hc : c.val < 0xd800 ∨ 0xdfff < c.val)
    (hd : d.val < 0xd800 ∨ 0xdfff < d.val) (h : units c ++ s = units d ++ t) : c = d ∧ s = t := by
  have hltc := c.isLt
  have hltd := d.isLt
  unfold units at h
  split_ifs at h with h₁ h₂ h₂ <;>
    simp only [List.cons_append, List.nil_append, List.cons.injEq] at h
  · exact h
  · have hval := congrArg Fin.val h.1
    simp only [Fin.ofNat] at hval
    omega
  · have hval := congrArg Fin.val h.1
    simp only [Fin.ofNat] at hval
    omega
  · have hhigh := congrArg Fin.val h.1
    have hlow := congrArg Fin.val h.2.1
    simp only [Fin.ofNat] at hhigh hlow
    exact ⟨Fin.ext (by omega), h.2.2⟩

theorem units_ne_nil (c : CodePoint) : units c ≠ [] := by
  unfold units
  split_ifs <;> exact List.cons_ne_nil _ _

theorem flatMap_units_injective : ∀ {s t : Str}, Scalar s → Scalar t →
    s.flatMap units = t.flatMap units → s = t
  | [], [], _, _, _ => rfl
  | [], d :: t, _, _, h => absurd (List.append_eq_nil_iff.1 h.symm).1 (units_ne_nil d)
  | c :: s, [], _, _, h => absurd (List.append_eq_nil_iff.1 h).1 (units_ne_nil c)
  | c :: s, d :: t, hs, ht, h => by
    rw [List.flatMap_cons, List.flatMap_cons] at h
    obtain ⟨rfl, hrest⟩ := units_append_inj (hs c List.mem_cons_self) (ht d List.mem_cons_self) h
    rw [flatMap_units_injective (fun c hc => hs c (List.mem_cons_of_mem _ hc))
      (fun c hc => ht c (List.mem_cons_of_mem _ hc)) hrest]

namespace Value

mutual

theorem eq_of_utf16_eq : ∀ v w : Value, v.WellFormed → w.WellFormed → v.utf16 = w.utf16 → v = w
  | str s, w, hv, hw, h => by
    cases w with
    | str t => exact congrArg str (flatMap_units_injective hv hw (Value.str.inj h))
    | _ => cases h
  | list items, w, hv, hw, h => by
    cases w with
    | list items' =>
      exact congrArg list (eq_of_utf16Items_eq items items' hv hw (Value.list.inj h))
    | _ => cases h
  | dict items, w, hv, hw, h => by
    cases w with
    | dict items' =>
      exact congrArg dict (eq_of_utf16Members_eq items items' hv hw (Value.dict.inj h))
    | _ => cases h
  | none, w, _, _, h | bool _, w, _, _, h | int _, w, _, _, h | float _, w, _, _, h => by
    cases w with
    | none | bool _ | int _ | float _ => exact h
    | str _ | list _ | dict _ => cases h

theorem eq_of_utf16Items_eq : ∀ items items' : List Value, WellFormedItems items →
    WellFormedItems items' → utf16Items items = utf16Items items' → items = items'
  | [], [], _, _, _ => rfl
  | v :: items, w :: items', hv, hw, h => by
    obtain ⟨hhead, htail⟩ := List.cons.inj h
    rw [eq_of_utf16_eq v w hv.1 hw.1 hhead, eq_of_utf16Items_eq items items' hv.2 hw.2 htail]

theorem eq_of_utf16Members_eq : ∀ items items' : List (Str × Value), WellFormedMembers items →
    WellFormedMembers items' → utf16Members items = utf16Members items' → items = items'
  | [], [], _, _, _ => rfl
  | (key, v) :: items, (key', w) :: items', hv, hw, h => by
    obtain ⟨hhead, htail⟩ := List.cons.inj h
    obtain ⟨hkey, hvalue⟩ := Prod.mk.inj hhead
    rw [flatMap_units_injective hv.1.1 hw.1.1 hkey, eq_of_utf16_eq v w hv.1.2 hw.1.2 hvalue,
      eq_of_utf16Members_eq items items' hv.2 hw.2 htail]

end

mutual

theorem WellFormed.sortKeys : ∀ v : Value, v.WellFormed → v.sortKeys.WellFormed
  | list items, h => wellFormed_sortItems items h
  | dict items, h => by
    refine wellFormedMembers_iff.2 fun item hitem => ?_
    have hmembers := wellFormedMembers_iff.1 (wellFormed_sortMembers items h)
    exact hmembers item ((List.mem_insertionSort _).1 hitem)
  | none, h | bool _, h | int _, h | float _, h | str _, h => h

theorem wellFormed_sortItems : ∀ items : List Value, WellFormedItems items →
    WellFormedItems (sortItems items)
  | [], h => h
  | v :: items, h => ⟨WellFormed.sortKeys v h.1, wellFormed_sortItems items h.2⟩

theorem wellFormed_sortMembers : ∀ items : List (Str × Value), WellFormedMembers items →
    WellFormedMembers (sortMembers items)
  | [], h => h
  | (_, v) :: items, h =>
    ⟨⟨h.1.1, WellFormed.sortKeys v h.1.2⟩, wellFormed_sortMembers items h.2⟩

end

end Value

/-- **Well-formed values with the same text are the same**, but for the order of the keys. -/
theorem sortKeys_eq_of_dumps_eq {v w : Value} (hv : v.WellFormed) (hw : w.WellFormed)
    (h : dumps r v.sortKeys = dumps r w.sortKeys) : v.sortKeys = w.sortKeys :=
  Value.eq_of_utf16_eq _ _ (.sortKeys v hv) (.sortKeys w hw) (utf16_eq_of_dumps_eq h)

end Ascii

end Json

end TrackFlow
