import TrackFlow.Json.Number

/-!
# JSON texts: `json.dumps` and `JSON.parse`

A text is a list of Unicode scalar values, so strings hold no lone surrogates.

* `PyValue` : the Python values; `dumps` : `json.dumps` with the separators `,` and `:` and
  `ensure_ascii=False`.
* `JsValue` : the values of `JSON.parse`; `parse` : `JSON.parse`.
* `PyValue.toJs` : the value a Python value is read as.
* `toJs_ofInt` : integers up to 2^53 are read exactly.
* `parse_dumps` : **the round trip.**
* `noBreak_dumps` : **a printed value is one line.**
-/

namespace TrackFlow

namespace Json

/-- The Python values that `json.dumps` prints and that have a JSON form: floats are finite, the
keys of dictionaries are strings. -/
inductive PyValue
  | none
  | bool (b : Bool)
  | int (n : ℤ)
  | float (x : Double)
  | str (s : List Char)
  | list (items : List PyValue)
  | dict (items : List (List Char × PyValue))

/-- The values of `JSON.parse`; the properties of an object stand in the order of creation. -/
inductive JsValue
  | null
  | boolean (b : Bool)
  | number (x : Number)
  | string (s : List Char)
  | array (items : List JsValue)
  | object (properties : List (List Char × JsValue))

/-! ## Printing -/

/-- A hexadecimal digit. -/
def hexDigit (n : ℕ) : Char := Nat.digitChar n

/-- `ESCAPE_DCT`, and a character that needs no escape. -/
def escape (c : Char) : List Char :=
  if c = '"' then ['\\', '"']
  else if c = '\\' then ['\\', '\\']
  else if c = '\n' then ['\\', 'n']
  else if c = '\r' then ['\\', 'r']
  else if c = '\t' then ['\\', 't']
  else if c = '\x0c' then ['\\', 'f']
  else if c = '\x08' then ['\\', 'b']
  else if c.toNat < 32 then ['\\', 'u', '0', '0', hexDigit (c.toNat / 16), hexDigit (c.toNat % 16)]
  else [c]

/-- `encode_basestring`. -/
def dumpString (s : List Char) : List Char := '"' :: (s.flatMap escape ++ ['"'])

variable (r : FloatRepr)

mutual

/-- `json.dumps(value, separators=(",", ":"), ensure_ascii=False)`. -/
def dumps : PyValue → List Char
  | .none => "null".toList
  | .bool true => "true".toList
  | .bool false => "false".toList
  | .int n => (NumberLiteral.ofInt n).text
  | .float x => (r.literal x).text
  | .str s => dumpString s
  | .list [] => ['[', ']']
  | .list (item :: items) => '[' :: (dumps item ++ dumpItems items)
  | .dict [] => ['{', '}']
  | .dict ((key, value) :: items) =>
    '{' :: (dumpString key ++ ':' :: (dumps value ++ dumpMembers items))

/-- The items behind the first one, and the bracket. -/
def dumpItems : List PyValue → List Char
  | [] => [']']
  | item :: items => ',' :: (dumps item ++ dumpItems items)

/-- The members behind the first one, and the brace. -/
def dumpMembers : List (List Char × PyValue) → List Char
  | [] => ['}']
  | (key, value) :: items =>
    ',' :: (dumpString key ++ ':' :: (dumps value ++ dumpMembers items))

end

/-! ## Parsing -/

/-- The value of a hexadecimal digit. -/
def hexValue (c : Char) : Option ℕ :=
  if c.isDigit then some (c.toNat - 48)
  else if 'a' ≤ c ∧ c ≤ 'f' then some (c.toNat - 87)
  else if 'A' ≤ c ∧ c ≤ 'F' then some (c.toNat - 55)
  else none

/-- The code unit of four hexadecimal digits. -/
def codeUnit (a b c d : Char) : Option ℕ := do
  let a ← hexValue a
  let b ← hexValue b
  let c ← hexValue c
  let d ← hexValue d
  some (((a * 16 + b) * 16 + c) * 16 + d)

/-- The character of a one-letter escape. -/
def unescape (c : Char) : Option Char :=
  if c = '"' ∨ c = '\\' ∨ c = '/' then some c
  else if c = 'b' then some '\x08'
  else if c = 'f' then some '\x0c'
  else if c = 'n' then some '\n'
  else if c = 'r' then some '\r'
  else if c = 't' then some '\t'
  else none

/-- The rest of a string behind its opening quote; a surrogate has to be one of a pair. -/
def parseString : List Char → Option (List Char × List Char)
  | [] => none
  | '"' :: rest => some ([], rest)
  | '\\' :: 'u' :: a :: b :: c :: d :: rest => do
    let unit ← codeUnit a b c d
    if unit < 0xD800 ∨ 0xE000 ≤ unit then
      let (s, rest) ← parseString rest
      some (Char.ofNat unit :: s, rest)
    else
      match rest with
      | '\\' :: 'u' :: e :: f :: g :: h :: rest => do
        let low ← codeUnit e f g h
        if unit < 0xDC00 ∧ 0xDC00 ≤ low ∧ low < 0xE000 then
          let (s, rest) ← parseString rest
          some (Char.ofNat (0x10000 + (unit - 0xD800) * 0x400 + (low - 0xDC00)) :: s, rest)
        else none
      | _ => none
  | '\\' :: c :: rest => do
    let c ← unescape c
    let (s, rest) ← parseString rest
    some (c :: s, rest)
  | c :: rest =>
    if c = '\\' ∨ c.toNat < 32 then none
    else do
      let (s, rest) ← parseString rest
      some (c :: s, rest)

/-- The white space of JSON. -/
def isJsonSpace (c : Char) : Bool := c = ' ' || c = '\t' || c = '\n' || c = '\r'

/-- White space is skipped. -/
def skipSpace (text : List Char) : List Char := text.dropWhile isJsonSpace

/-- `CreateDataProperty`: a later property of a name replaces the value. -/
def putProperty (key : List Char) (value : JsValue) :
    List (List Char × JsValue) → List (List Char × JsValue)
  | [] => [(key, value)]
  | (k, v) :: rest => if k = key then (k, value) :: rest else (k, v) :: putProperty key value rest

/-- The object of the members in the order of the text. -/
def assemble (members : List (List Char × JsValue)) : JsValue :=
  .object (members.foldl (fun properties member => putProperty member.1 member.2 properties) [])

/-- A literal name. -/
def parseName (name : String) (value : JsValue) (text : List Char) : Option (JsValue × List Char) :=
  if name.toList.isPrefixOf text then some (value, text.drop name.toList.length) else none

mutual

/-- A value at the start of a text, and the rest.  The number bounds the calls: every character
that is read pays for two. -/
def parseValue : ℕ → List Char → Option (JsValue × List Char)
  | 0, _ => none
  | fuel + 1, text =>
    match skipSpace text with
    | [] => none
    | c :: rest =>
      if c = '{' then
        match skipSpace rest with
        | '}' :: rest => some (.object [], rest)
        | rest => (parseMembers fuel rest).map fun (members, rest) => (assemble members, rest)
      else if c = '[' then
        match skipSpace rest with
        | ']' :: rest => some (.array [], rest)
        | rest => (parseItems fuel rest).map fun (items, rest) => (.array items, rest)
      else if c = '"' then (parseString rest).map fun (s, rest) => (.string s, rest)
      else if c = 'n' then parseName "null" .null (c :: rest)
      else if c = 't' then parseName "true" (.boolean true) (c :: rest)
      else if c = 'f' then parseName "false" (.boolean false) (c :: rest)
      else (parseNumber (c :: rest)).map fun (x, rest) => (.number x, rest)

/-- The items of an array up to its bracket. -/
def parseItems : ℕ → List Char → Option (List JsValue × List Char)
  | 0, _ => none
  | fuel + 1, text => do
    let (item, rest) ← parseValue fuel text
    match skipSpace rest with
    | ',' :: rest =>
      let (items, rest) ← parseItems fuel rest
      some (item :: items, rest)
    | ']' :: rest => some ([item], rest)
    | _ => none

/-- The members of an object up to its brace. -/
def parseMembers : ℕ → List Char → Option (List (List Char × JsValue) × List Char)
  | 0, _ => none
  | fuel + 1, text =>
    match skipSpace text with
    | '"' :: rest => do
      let (key, rest) ← parseString rest
      match skipSpace rest with
      | ':' :: rest =>
        let (value, rest) ← parseValue fuel rest
        match skipSpace rest with
        | ',' :: rest =>
          let (members, rest) ← parseMembers fuel rest
          some ((key, value) :: members, rest)
        | '}' :: rest => some ([(key, value)], rest)
        | _ => none
      | _ => none
    | _ => none

end

/-- `JSON.parse`; `none` is a `SyntaxError`. -/
def parse (text : List Char) : Option JsValue :=
  match parseValue (2 * text.length + 2) text with
  | some (value, rest) => if skipSpace rest = [] then some value else none
  | none => none

/-! ## What is read -/

mutual

/-- The value a Python value is read as; `integer` is what becomes of its integers. -/
def PyValue.toJs (integer : ℤ → Number) : PyValue → JsValue
  | .none => .null
  | .bool b => .boolean b
  | .int n => .number (integer n)
  | .float x => .number x.number
  | .str s => .string s
  | .list items => .array (toJsItems integer items)
  | .dict items => .object (toJsMembers integer items)

/-- The items of a list. -/
def toJsItems (integer : ℤ → Number) : List PyValue → List JsValue
  | [] => []
  | item :: items => item.toJs integer :: toJsItems integer items

/-- The members of a dictionary. -/
def toJsMembers (integer : ℤ → Number) :
    List (List Char × PyValue) → List (List Char × JsValue)
  | [] => []
  | (key, value) :: items => (key, value.toJs integer) :: toJsMembers integer items

end

mutual

/-- A dictionary has every key once. -/
def PyValue.WellFormed : PyValue → Prop
  | .list items => WellFormedItems items
  | .dict items => (items.map Prod.fst).Nodup ∧ WellFormedMembers items
  | _ => True

def WellFormedItems : List PyValue → Prop
  | [] => True
  | item :: items => item.WellFormed ∧ WellFormedItems items

def WellFormedMembers : List (List Char × PyValue) → Prop
  | [] => True
  | (_, value) :: items => value.WellFormed ∧ WellFormedMembers items

end

mutual

/-- Every integer is at most `bound` in absolute value. -/
def PyValue.IntegersWithin (bound : ℕ) : PyValue → Prop
  | .int n => n.natAbs ≤ bound
  | .list items => ItemsWithin bound items
  | .dict items => MembersWithin bound items
  | _ => True

def ItemsWithin (bound : ℕ) : List PyValue → Prop
  | [] => True
  | item :: items => item.IntegersWithin bound ∧ ItemsWithin bound items

def MembersWithin (bound : ℕ) : List (List Char × PyValue) → Prop
  | [] => True
  | (_, value) :: items => value.IntegersWithin bound ∧ MembersWithin bound items

end

mutual

/-- Integers up to 2^53 are read exactly. -/
theorem toJs_ofInt : ∀ v : PyValue, v.IntegersWithin (2 ^ 53) → v.toJs .ofInt = v.toJs .exactInt
  | .none, _ => rfl
  | .bool _, _ => rfl
  | .int n, h => by
    rw [PyValue.IntegersWithin] at h
    rw [PyValue.toJs, PyValue.toJs, Number.ofInt_eq_exactInt h]
  | .float _, _ => rfl
  | .str _, _ => rfl
  | .list items, h => by
    rw [PyValue.IntegersWithin] at h
    rw [PyValue.toJs, PyValue.toJs, toJsItems_ofInt items h]
  | .dict items, h => by
    rw [PyValue.IntegersWithin] at h
    rw [PyValue.toJs, PyValue.toJs, toJsMembers_ofInt items h]

theorem toJsItems_ofInt : ∀ items : List PyValue, ItemsWithin (2 ^ 53) items →
    toJsItems .ofInt items = toJsItems .exactInt items
  | [], _ => rfl
  | item :: items, h => by
    rw [ItemsWithin] at h
    rw [toJsItems, toJsItems, toJs_ofInt item h.1, toJsItems_ofInt items h.2]

theorem toJsMembers_ofInt : ∀ items : List (List Char × PyValue), MembersWithin (2 ^ 53) items →
    toJsMembers .ofInt items = toJsMembers .exactInt items
  | [], _ => rfl
  | (_, value) :: items, h => by
    rw [MembersWithin] at h
    rw [toJsMembers, toJsMembers, toJs_ofInt value h.1, toJsMembers_ofInt items h.2]

end

/-! ## Reading a string -/

theorem hexValue_hexDigit : ∀ n : Fin 16, hexValue (hexDigit n) = some n.val := by decide

/-- The code unit of an escaped control character. -/
theorem codeUnit_hexDigits {n : ℕ} (h : n < 32) :
    codeUnit '0' '0' (hexDigit (n / 16)) (hexDigit (n % 16)) = some n := by
  have h₁ : hexValue (hexDigit (n / 16)) = some (n / 16) :=
    hexValue_hexDigit ⟨n / 16, by omega⟩
  have h₂ : hexValue (hexDigit (n % 16)) = some (n % 16) :=
    hexValue_hexDigit ⟨n % 16, by omega⟩
  have h₀ : hexValue '0' = some 0 := rfl
  unfold codeUnit
  simp only [h₀, h₁, h₂, Option.bind_eq_bind, Option.bind_some, Option.some.injEq]
  omega

/-- A one-letter escape is read as its character. -/
theorem parseString_unescape {c d : Char} (text : List Char) (hc : unescape c = some d) :
    parseString ('\\' :: c :: text) = (parseString text).map fun p => (d :: p.1, p.2) := by
  rw [parseString.eq_4, hc]
  · cases parseString text <;> rfl
  · rintro - - - - - rfl
    cases hc

/-- An escaped character is read as itself. -/
theorem parseString_escape (c : Char) (text : List Char) :
    parseString (escape c ++ text) = (parseString text).map fun p => (c :: p.1, p.2) := by
  unfold escape
  split_ifs with h₁ h₂ h₃ h₄ h₅ h₆ h₇ h₈
  · subst h₁; exact parseString_unescape text rfl
  · subst h₂; exact parseString_unescape text rfl
  · subst h₃; exact parseString_unescape text rfl
  · subst h₄; exact parseString_unescape text rfl
  · subst h₅; exact parseString_unescape text rfl
  · subst h₆; exact parseString_unescape text rfl
  · subst h₇; exact parseString_unescape text rfl
  · -- a control character, as a code unit
    show parseString ('\\' :: 'u' :: '0' :: '0' :: hexDigit _ :: hexDigit _ :: text) = _
    rw [parseString.eq_3, codeUnit_hexDigits h₈, Option.bind_eq_bind, Option.bind_some,
      if_pos (.inl (by omega)), Char.ofNat_toNat]
    cases parseString text <;> rfl
  · show parseString (c :: text) = _
    rw [parseString.eq_5, if_neg]
    · cases parseString text <;> rfl
    · exact fun h => h.elim h₂ h₈
    · exact h₁
    · exact fun _ _ _ _ _ h => (h₂ h).elim
    · exact fun _ _ h => (h₂ h).elim

/-- A printed string is read as itself. -/
theorem parseString_dumpString (s rest : List Char) :
    parseString (s.flatMap escape ++ '"' :: rest) = some (s, rest) := by
  induction s with
  | nil => rfl
  | cons c s ih =>
    rw [List.flatMap_cons, List.append_assoc, parseString_escape, ih]
    rfl

/-! ## Reading a value -/

section

variable {r} {text rest : List Char} {fuel : ℕ}

theorem skipSpace_cons {c : Char} (h : isJsonSpace c = false) :
    skipSpace (c :: rest) = c :: rest := by
  rw [skipSpace, List.dropWhile_cons, h]
  rfl

theorem delimited_dumpItems (items : List PyValue) (rest : List Char) :
    Delimited (dumpItems r items ++ rest) := by
  cases items with
  | nil => rintro c hc; cases hc; exact .inr (.inl rfl)
  | cons item items => rintro c hc; cases hc; exact .inl rfl

theorem delimited_dumpMembers (items : List (List Char × PyValue)) (rest : List Char) :
    Delimited (dumpMembers r items ++ rest) := by
  rcases items with _ | ⟨⟨key, value⟩, items⟩
  · rintro c hc; cases hc; exact .inr (.inr rfl)
  · rintro c hc; cases hc; exact .inl rfl

/-- A value that starts as a number does is read as one. -/
theorem parseValue_number (l : NumberLiteral) (hrest : Delimited rest) :
    parseValue (fuel + 1) (l.text ++ rest) = some (.number l.number, rest) := by
  have hread := parseNumber_text l hrest
  obtain ⟨c, cs, hcs, hc⟩ := head_text l
  rw [hcs, List.cons_append] at hread ⊢
  have hne : ∀ d : Char, d ≠ '-' → d.isDigit = false → c ≠ d := by
    rintro d hminus hdigit rfl
    rcases hc with hc | hc
    · exact hminus hc
    · rw [hdigit] at hc
      cases hc
  have hspace : isJsonSpace c = false := by
    simp only [isJsonSpace, Bool.or_eq_false_iff, decide_eq_false_iff_not]
    exact ⟨⟨⟨hne _ (by decide) rfl, hne _ (by decide) rfl⟩, hne _ (by decide) rfl⟩,
      hne _ (by decide) rfl⟩
  rw [parseValue, skipSpace_cons hspace]
  simp only [if_neg (hne '{' (by decide) rfl), if_neg (hne '[' (by decide) rfl),
    if_neg (hne '"' (by decide) rfl), if_neg (hne 'n' (by decide) rfl),
    if_neg (hne 't' (by decide) rfl), if_neg (hne 'f' (by decide) rfl), hread, Option.map_some]

/-! ## Objects -/

theorem putProperty_of_notMem {key : List Char} {value : JsValue}
    {properties : List (List Char × JsValue)} (h : key ∉ properties.map Prod.fst) :
    putProperty key value properties = properties ++ [(key, value)] := by
  induction properties with
  | nil => rfl
  | cons p properties ih =>
    rw [List.map_cons, List.mem_cons, not_or] at h
    rw [putProperty, if_neg (fun he => h.1 he.symm), ih h.2]
    rfl

theorem foldl_putProperty {members properties : List (List Char × JsValue)}
    (h : ((properties ++ members).map Prod.fst).Nodup) :
    members.foldl (fun properties member => putProperty member.1 member.2 properties) properties =
      properties ++ members := by
  induction members generalizing properties with
  | nil => rw [List.append_nil]; rfl
  | cons member members ih =>
    have hnew : member.1 ∉ properties.map Prod.fst := by
      rw [List.map_append, List.map_cons] at h
      exact fun hmem => (List.nodup_append.1 h).2.2 _ hmem _ List.mem_cons_self rfl
    rw [List.foldl_cons, putProperty_of_notMem hnew, ih, List.append_assoc]
    · rfl
    · rw [List.append_assoc]
      exact h

/-- Members with distinct names are the properties of the object. -/
theorem assemble_of_nodup {members : List (List Char × JsValue)}
    (h : (members.map Prod.fst).Nodup) : assemble members = .object members := by
  rw [assemble, show members.foldl _ [] = [] ++ members from foldl_putProperty h]
  rfl

theorem map_fst_toJsMembers (integer : ℤ → Number) (items : List (List Char × PyValue)) :
    (toJsMembers integer items).map Prod.fst = items.map Prod.fst := by
  induction items with
  | nil => rfl
  | cons item items ih => rw [toJsMembers, List.map_cons, List.map_cons, ih]

/-! ## The round trip -/

/-- The printed value is read as the value, whatever it is in. -/
def Reads (r : FloatRepr) (v : PyValue) : Prop :=
  ∀ (fuel : ℕ) (rest : List Char), 2 * (dumps r v).length ≤ fuel → Delimited rest →
    parseValue fuel (dumps r v ++ rest) = some (v.toJs .ofInt, rest)

/-- The first character of a printed value. -/
theorem head_dumps (v : PyValue) :
    ∃ c cs, dumps r v = c :: cs ∧ isJsonSpace c = false ∧ c ≠ ']' := by
  have hnumber : ∀ l : NumberLiteral,
      ∃ c cs, l.text = c :: cs ∧ isJsonSpace c = false ∧ c ≠ ']' := by
    intro l
    obtain ⟨c, cs, hcs, hc⟩ := head_text l
    refine ⟨c, cs, hcs, ?_⟩
    rcases hc with rfl | hc
    · exact ⟨rfl, by decide⟩
    · refine ⟨?_, fun h => by rw [h] at hc; cases hc⟩
      by_contra hspace
      simp only [isJsonSpace, Bool.not_eq_false, Bool.or_eq_true, decide_eq_true_eq] at hspace
      rcases hspace with ((rfl | rfl) | rfl) | rfl <;> cases hc
  cases v with
  | none => exact ⟨'n', _, rfl, rfl, by decide⟩
  | bool b => cases b <;> exact ⟨_, _, rfl, rfl, by decide⟩
  | int n => exact hnumber _
  | float x => exact hnumber _
  | str s => exact ⟨'"', _, rfl, rfl, by decide⟩
  | list items => cases items <;> exact ⟨'[', _, rfl, rfl, by decide⟩
  | dict items =>
    rcases items with _ | ⟨⟨key, value⟩, items⟩ <;> exact ⟨'{', _, rfl, rfl, by decide⟩

/-- A printed value is not empty, so there is a call to read it. -/
theorem reads_of_succ {v : PyValue} (h : ∀ (fuel : ℕ) (rest : List Char),
    2 * (dumps r v).length ≤ fuel + 1 → Delimited rest →
    parseValue (fuel + 1) (dumps r v ++ rest) = some (v.toJs .ofInt, rest)) : Reads r v := by
  rintro (_ | fuel) rest hfuel hrest
  · obtain ⟨c, cs, hcs, -⟩ := head_dumps (r := r) v
    rw [hcs, List.length_cons] at hfuel
    omega
  · exact h fuel rest hfuel hrest

theorem reads_number {v : PyValue} {l : NumberLiteral} (htext : dumps r v = l.text)
    (hvalue : v.toJs .ofInt = .number l.number) : Reads r v :=
  reads_of_succ fun fuel rest _ hrest => by rw [htext, parseValue_number l hrest, hvalue]

/-- An array that is not empty is read item by item. -/
theorem parseValue_array {c : Char} (hspace : isJsonSpace c = false) (hc : c ≠ ']') :
    parseValue (fuel + 1) ('[' :: c :: text) =
      (parseItems fuel (c :: text)).map fun p => (.array p.1, p.2) := by
  rw [parseValue, skipSpace_cons rfl]
  simp only [Char.reduceEq, if_false, if_true, skipSpace_cons hspace]
  split
  · rename_i heq
    exact (hc (List.cons.inj heq).1).elim
  · rfl

/-- An object that is not empty is read member by member. -/
theorem parseValue_object :
    parseValue (fuel + 1) ('{' :: '"' :: text) =
      (parseMembers fuel ('"' :: text)).map fun p => (assemble p.1, p.2) := by
  rw [parseValue, skipSpace_cons rfl]
  simp only [if_true, skipSpace_cons (show isJsonSpace '"' = false from rfl)]
  rfl

theorem parseItems_comma {item : JsValue} (h : parseValue fuel text = some (item, ',' :: rest)) :
    parseItems (fuel + 1) text = (parseItems fuel rest).map fun p => (item :: p.1, p.2) := by
  rw [parseItems, h]
  show (parseItems fuel rest).bind _ = _
  cases parseItems fuel rest <;> rfl

theorem parseItems_bracket {item : JsValue} (h : parseValue fuel text = some (item, ']' :: rest)) :
    parseItems (fuel + 1) text = some ([item], rest) := by
  rw [parseItems, h]
  rfl

theorem parseMembers_comma {key : List Char} {value : JsValue} {behind : List Char}
    (hkey : parseString text = some (key, ':' :: behind))
    (hvalue : parseValue fuel behind = some (value, ',' :: rest)) :
    parseMembers (fuel + 1) ('"' :: text) =
      (parseMembers fuel rest).map fun p => ((key, value) :: p.1, p.2) := by
  rw [parseMembers, skipSpace_cons rfl]
  simp only [hkey, Option.bind_eq_bind, Option.bind_some, skipSpace_cons
    (show isJsonSpace ':' = false from rfl), hvalue, skipSpace_cons
    (show isJsonSpace ',' = false from rfl)]
  cases parseMembers fuel rest <;> rfl

theorem parseMembers_brace {key : List Char} {value : JsValue} {behind : List Char}
    (hkey : parseString text = some (key, ':' :: behind))
    (hvalue : parseValue fuel behind = some (value, '}' :: rest)) :
    parseMembers (fuel + 1) ('"' :: text) = some ([(key, value)], rest) := by
  rw [parseMembers, skipSpace_cons rfl]
  simp only [hkey, Option.bind_eq_bind, Option.bind_some, skipSpace_cons
    (show isJsonSpace ':' = false from rfl), hvalue, skipSpace_cons
    (show isJsonSpace '}' = false from rfl)]

mutual

/-- A printed value is read as the value, whatever it is in. -/
theorem reads_dumps : ∀ v : PyValue, v.WellFormed → Reads r v
  | .none, _ => reads_of_succ fun fuel rest _ _ => by
    simp [dumps, parseValue, skipSpace, isJsonSpace, parseName, PyValue.toJs]
  | .bool true, _ => reads_of_succ fun fuel rest _ _ => by
    simp [dumps, parseValue, skipSpace, isJsonSpace, parseName, PyValue.toJs]
  | .bool false, _ => reads_of_succ fun fuel rest _ _ => by
    simp [dumps, parseValue, skipSpace, isJsonSpace, parseName, PyValue.toJs]
  | .int n, _ => reads_number (by rw [dumps]) (by rw [PyValue.toJs, number_ofInt])
  | .float x, _ => reads_number (by rw [dumps]) (by rw [PyValue.toJs, r.reads_back])
  | .str s, _ => reads_of_succ fun fuel rest _ _ => by
    have hread := parseString_dumpString s rest
    rw [dumps, dumpString, List.cons_append, List.append_assoc, List.singleton_append, parseValue,
      skipSpace_cons rfl]
    simp [hread, PyValue.toJs]
  | .list [], _ => reads_of_succ fun fuel rest _ _ => by
    simp [dumps, parseValue, skipSpace, isJsonSpace, PyValue.toJs, toJsItems]
  | .list (item :: items), h => reads_of_succ fun fuel rest hfuel hrest => by
    obtain ⟨c, cs, hcs, hspace, hc⟩ := head_dumps (r := r) item
    rw [dumps, List.length_cons, List.length_append] at hfuel
    have hitems := parseItems_dumps items h.2 item (reads_dumps item h.1) fuel rest (by omega)
    rw [dumps, List.cons_append, List.append_assoc]
    rw [hcs, List.cons_append] at hitems ⊢
    rw [parseValue_array hspace hc, hitems, PyValue.toJs, toJsItems]
    rfl
  | .dict [], _ => reads_of_succ fun fuel rest _ _ => by
    simp [dumps, parseValue, skipSpace, isJsonSpace, PyValue.toJs, toJsMembers]
  | .dict ((key, value) :: items), h => reads_of_succ fun fuel rest hfuel hrest => by
    obtain ⟨hnodup, hvalue, hitems⟩ := h
    rw [dumps, List.length_cons, List.length_append, List.length_cons, List.length_append] at hfuel
    have hmembers := parseMembers_dumps items hitems key value (reads_dumps value hvalue) fuel rest
      (by omega)
    have hkeys : (((key, value.toJs .ofInt) :: toJsMembers .ofInt items).map Prod.fst).Nodup := by
      rw [List.map_cons, map_fst_toJsMembers]
      exact hnodup
    rw [dumps, dumpString] at *
    simp only [List.cons_append, List.append_assoc] at hmembers ⊢
    rw [parseValue_object, hmembers, Option.map_some, assemble_of_nodup hkeys, PyValue.toJs,
      toJsMembers]

theorem parseItems_dumps : ∀ items : List PyValue, WellFormedItems items → ∀ item : PyValue,
    Reads r item → ∀ (fuel : ℕ) (rest : List Char),
    1 + 2 * ((dumps r item).length + (dumpItems r items).length) ≤ fuel →
    parseItems fuel (dumps r item ++ (dumpItems r items ++ rest)) =
      some (item.toJs .ofInt :: toJsItems .ofInt items, rest)
  | [], _, item, hitem, fuel, rest, hfuel => by
    obtain ⟨fuel, rfl⟩ : ∃ n, fuel = n + 1 := ⟨fuel - 1, by omega⟩
    exact parseItems_bracket (hitem fuel _ (by omega) (delimited_dumpItems [] _))
  | item' :: items, h, item, hitem, fuel, rest, hfuel => by
    obtain ⟨fuel, rfl⟩ : ∃ n, fuel = n + 1 := ⟨fuel - 1, by omega⟩
    have hread := hitem fuel _ (by omega)
      (delimited_dumpItems (r := r) (item' :: items) rest)
    rw [dumpItems, List.length_cons, List.length_append] at hfuel
    rw [dumpItems, List.cons_append, List.append_assoc] at hread ⊢
    rw [parseItems_comma hread,
      parseItems_dumps items h.2 item' (reads_dumps item' h.1) fuel rest (by omega)]
    rfl

theorem parseMembers_dumps : ∀ items : List (List Char × PyValue), WellFormedMembers items →
    ∀ (key : List Char) (value : PyValue), Reads r value → ∀ (fuel : ℕ) (rest : List Char),
    1 + 2 * ((dumpString key).length + (dumps r value).length + (dumpMembers r items).length) ≤
      fuel →
    parseMembers fuel (dumpString key ++ ':' :: (dumps r value ++ (dumpMembers r items ++ rest))) =
      some ((key, value.toJs .ofInt) :: toJsMembers .ofInt items, rest)
  | [], _, key, value, hvalue, fuel, rest, hfuel => by
    obtain ⟨fuel, rfl⟩ : ∃ n, fuel = n + 1 := ⟨fuel - 1, by omega⟩
    have hkey := parseString_dumpString key (':' :: (dumps r value ++ (dumpMembers r [] ++ rest)))
    have hread := hvalue fuel _ (by omega) (delimited_dumpMembers (r := r) [] rest)
    rw [dumpString, List.cons_append, List.append_assoc]
    exact parseMembers_brace hkey hread
  | (key', value') :: items, h, key, value, hvalue, fuel, rest, hfuel => by
    obtain ⟨fuel, rfl⟩ : ∃ n, fuel = n + 1 := ⟨fuel - 1, by omega⟩
    have hkey := parseString_dumpString key
      (':' :: (dumps r value ++ (dumpMembers r ((key', value') :: items) ++ rest)))
    have hread := hvalue fuel _ (by omega)
      (delimited_dumpMembers (r := r) ((key', value') :: items) rest)
    rw [dumpMembers, List.length_cons, List.length_append, List.length_cons,
      List.length_append] at hfuel
    have hmembers := parseMembers_dumps items h.2 key' value' (reads_dumps value' h.1) fuel rest
      (by omega)
    rw [dumpString, List.cons_append, List.append_assoc]
    rw [dumpMembers] at hkey hread ⊢
    simp only [List.cons_append, List.append_assoc, List.nil_append] at hkey hread ⊢
    rw [parseMembers_comma hkey hread, hmembers]
    rfl

end

end

/-- **The round trip.**  `JSON.parse` reads what `json.dumps` prints; an integer is read as the
double nearest to it. -/
theorem parse_dumps {v : PyValue} (h : v.WellFormed) :
    parse (dumps r v) = some (v.toJs .ofInt) := by
  have hread := reads_dumps (r := r) v h (2 * (dumps r v).length + 2) [] (by omega) nofun
  rw [List.append_nil] at hread
  rw [parse, hread]
  rfl

/-! ## One line -/

/-- The text has no line break. -/
def NoBreak (text : List Char) : Prop := ∀ c ∈ text, c ≠ '\n' ∧ c ≠ '\r'

instance (text : List Char) : Decidable (NoBreak text) :=
  List.decidableBAll (fun c => c ≠ '\n' ∧ c ≠ '\r') text

section

variable {r} {c : Char} {text front behind : List Char}

theorem noBreak_nil : NoBreak [] := nofun

theorem NoBreak.cons (hc : c ≠ '\n' ∧ c ≠ '\r') (h : NoBreak text) : NoBreak (c :: text) :=
  List.forall_mem_cons.2 ⟨hc, h⟩

theorem NoBreak.append (hf : NoBreak front) (hb : NoBreak behind) : NoBreak (front ++ behind) :=
  fun d hd => (List.mem_append.1 hd).elim (hf d) (hb d)

theorem noBreak_of_isDigit (h : ∀ d ∈ text, d.isDigit = true) : NoBreak text := by
  intro d hd
  have hdigit := h d hd
  refine ⟨?_, ?_⟩ <;>
  · rintro rfl
    cases hdigit

theorem noBreak_toDigits (n : ℕ) : NoBreak (Nat.toDigits 10 n) :=
  noBreak_of_isDigit fun _ hd => Nat.isDigit_of_mem_toDigits (by norm_num) (by norm_num) hd

/-- An escaped character is no line break. -/
theorem noBreak_escape (c : Char) : NoBreak (escape c) := by
  unfold escape
  split_ifs with h₁ h₂ h₃ h₄ h₅ h₆ h₇ h₈
  · decide
  · decide
  · decide
  · decide
  · decide
  · decide
  · decide
  · have hdigit : ∀ n : Fin 16, hexDigit n ≠ '\n' ∧ hexDigit n ≠ '\r' := by decide
    have hfront : NoBreak ['\\', 'u', '0', '0'] := by decide
    refine hfront.append (.cons ?_ (.cons ?_ noBreak_nil))
    · exact hdigit ⟨c.toNat / 16, by omega⟩
    · exact hdigit ⟨c.toNat % 16, by omega⟩
  · exact .cons ⟨h₃, h₄⟩ noBreak_nil

theorem noBreak_dumpString (s : List Char) : NoBreak (dumpString s) := by
  refine .cons (by decide) (.append (fun d hd => ?_) (by decide))
  obtain ⟨c, -, hd⟩ := List.mem_flatMap.1 hd
  exact noBreak_escape c d hd

theorem noBreak_text (l : NumberLiteral) : NoBreak l.text := by
  have hdigits : ∀ ds : List (Fin 10), NoBreak (ds.map digit) :=
    fun ds => noBreak_of_isDigit fun _ => isDigit_of_mem_map_digit
  unfold NumberLiteral.text NumberLiteral.fractionText NumberLiteral.exponentText
  refine .append ?_ (.append (noBreak_toDigits _) (.append ?_ ?_))
  · cases l.negative <;> decide
  · split_ifs
    · exact noBreak_nil
    · exact .cons (by decide) (hdigits _)
  · cases l.exponent with
    | none => exact noBreak_nil
    | some e =>
      refine .cons (by decide) (.append ?_ (hdigits _))
      rcases e.sign with _ | _ | _ <;> decide

mutual

/-- **A printed value is one line.** -/
theorem noBreak_dumps : ∀ v : PyValue, NoBreak (dumps r v)
  | .none => by rw [dumps]; decide
  | .bool true => by rw [dumps]; decide
  | .bool false => by rw [dumps]; decide
  | .int n => by rw [dumps]; exact noBreak_text _
  | .float x => by rw [dumps]; exact noBreak_text _
  | .str s => by rw [dumps]; exact noBreak_dumpString s
  | .list [] => by rw [dumps]; decide
  | .list (item :: items) => by
    rw [dumps]
    exact .cons (by decide) (.append (noBreak_dumps item) (noBreak_dumpItems items))
  | .dict [] => by rw [dumps]; decide
  | .dict ((key, value) :: items) => by
    rw [dumps]
    exact .cons (by decide) (.append (noBreak_dumpString key)
      (.cons (by decide) (.append (noBreak_dumps value) (noBreak_dumpMembers items))))

theorem noBreak_dumpItems : ∀ items : List PyValue, NoBreak (dumpItems r items)
  | [] => by rw [dumpItems]; decide
  | item :: items => by
    rw [dumpItems]
    exact .cons (by decide) (.append (noBreak_dumps item) (noBreak_dumpItems items))

theorem noBreak_dumpMembers : ∀ items : List (List Char × PyValue), NoBreak (dumpMembers r items)
  | [] => by rw [dumpMembers]; decide
  | (key, value) :: items => by
    rw [dumpMembers]
    exact .cons (by decide) (.append (noBreak_dumpString key)
      (.cons (by decide) (.append (noBreak_dumps value) (noBreak_dumpMembers items))))

end

end

end Json

end TrackFlow
