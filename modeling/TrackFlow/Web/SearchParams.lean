import Mathlib.Data.Bool.AllAny
import TrackFlow.Web.Url
import TrackFlow.Web.Utf8

/-!
# The parameters of a query

`encodeURIComponent`, which writes a text into a query, and `URLSearchParams`, which reads the
query of a URL back.  In between the URL parser encodes what may not stand in a query, of what
`encodeURIComponent` leaves only the apostrophe.

* `encodeURIComponent` : a text as a component of a URL.
* `query` : the query of a URL, as the URL parser keeps it.
* `parseForm` : the `application/x-www-form-urlencoded` parser.
* `formDecode_percentEncode` : **an encoded text is read back.**
* `get_searchParams` : **so is the value of a single parameter.**
-/

namespace TrackFlow

namespace Web

/-! ## Writing -/

/-- The characters that `encodeURIComponent` leaves. -/
def isUnreserved (c : Char) : Bool :=
  c.isAlphanum || ['-', '_', '.', '!', '~', '*', '\x27', '(', ')'].contains c

/-- The component percent-encode set, without what `encodeURIComponent` leaves. -/
def componentSet (c : Char) : Bool := !isUnreserved c

/-- `encodeURIComponent`. -/
def encodeURIComponent (text : List Char) : List Char := percentEncode componentSet text

/-- The special-query percent-encode set. -/
def querySet (c : Char) : Bool :=
  decide (c.toNat ≤ 0x20) || decide (0x7E < c.toNat) || ['"', '#', '<', '>', '\x27'].contains c

/-- The query of a URL: what stands between the first `?` and the fragment, encoded. -/
def query (input : List Char) : List Char :=
  percentEncode querySet (((clean input).takeWhile (· ≠ '#')).dropWhile (· ≠ '?')).tail

/-! ## Reading -/

/-- Percent-decode: the bytes of a text, those of its escapes decoded. -/
def percentDecode : List Char → List UInt8
  | [] => []
  | '%' :: a :: b :: rest =>
    match hexDigitValue a, hexDigitValue b with
    | some high, some low => UInt8.ofNat (high * 16 + low) :: percentDecode rest
    | _, _ => String.utf8EncodeChar '%' ++ percentDecode (a :: b :: rest)
  | c :: rest => String.utf8EncodeChar c ++ percentDecode rest

/-- A plus sign is a space. -/
def plusToSpace (c : Char) : Char := if c = '+' then ' ' else c

/-- A name or a value of a form: UTF-8 without a byte order mark. -/
def formDecode (text : List Char) : List Char :=
  let read := (Utf8Decoder.idle true).decode (percentDecode (text.map plusToSpace))
  read.2 ++ read.1.flush

/-- A name and a value, at the first `=`. -/
def formPair (piece : List Char) : List Char × List Char :=
  (formDecode (piece.takeWhile (· ≠ '=')), formDecode (piece.dropWhile (· ≠ '=')).tail)

/-- The `application/x-www-form-urlencoded` parser. -/
def parseForm (text : List Char) : List (List Char × List Char) :=
  ((text.splitOn '&').filter (· ≠ [])).map formPair

/-- `searchParams` of a URL. -/
def searchParams (input : List Char) : List (List Char × List Char) := parseForm (query input)

/-- `get`: the first value of a name. -/
def getParam (name : List Char) (params : List (List Char × List Char)) : Option (List Char) :=
  (params.find? (·.1 = name)).map (·.2)

/-! ## What is encoded is read back -/

section

variable {set : Char → Bool} {text : List Char}

theorem hexDigitValue_upperHex {n : ℕ} (h : n < 16) : hexDigitValue (upperHex n) = some n := by
  have hall : ∀ n < 16, hexDigitValue (upperHex n) = some n := by decide
  exact hall n h

theorem percentDecode_of_ne {c : Char} (h : c ≠ '%') (rest : List Char) :
    percentDecode (c :: rest) = String.utf8EncodeChar c ++ percentDecode rest := by
  rw [percentDecode]
  exact fun _ _ _ hc _ => h hc

theorem percentDecode_encodeByte (b : UInt8) (rest : List Char) :
    percentDecode (encodeByte b.toNat ++ rest) = b :: percentDecode rest := by
  have hb : b.toNat < 256 := b.toNat_lt
  have hwhole : b.toNat / 16 * 16 + b.toNat % 16 = b.toNat := by omega
  rw [encodeByte, List.cons_append, List.cons_append, List.cons_append, List.nil_append,
    percentDecode, hexDigitValue_upperHex (by omega), hexDigitValue_upperHex (by omega)]
  simp only [hwhole, UInt8.ofNat_toNat]

theorem percentDecode_encodeBytes (bytes : List UInt8) (rest : List Char) :
    percentDecode ((bytes.flatMap fun b => encodeByte b.toNat) ++ rest) =
      bytes ++ percentDecode rest := by
  induction bytes with
  | nil => rfl
  | cons b bytes ih =>
    rw [List.flatMap_cons, List.append_assoc, percentDecode_encodeByte, ih]
    rfl

theorem percentDecode_percentEncode (hpercent : set '%' = true) (text : List Char) :
    percentDecode (percentEncode set text) = encode text := by
  induction text with
  | nil => rfl
  | cons c text ih =>
    rw [percentEncode_cons, show encode (c :: text) = String.utf8EncodeChar c ++ encode text from
      List.flatMap_cons, ← ih]
    cases hc : set c with
    | true => rw [encodeChar, hc, if_pos rfl, percentDecode_encodeBytes]
    | false =>
      have hne : c ≠ '%' := by
        rintro rfl
        rw [hpercent] at hc
        cases hc
      rw [encodeChar_of_not hc, List.singleton_append, percentDecode_of_ne hne]

/-- **An encoded text is read back**, if percent and plus signs are encoded. -/
theorem formDecode_percentEncode (hpercent : set '%' = true) (hplus : set '+' = true)
    (text : List Char) : formDecode (percentEncode set text) = text := by
  have hmap : (percentEncode set text).map plusToSpace = percentEncode set text := by
    refine (List.map_congr_left fun c hc => if_neg ?_).trans (List.map_id _)
    rintro rfl
    rcases mem_percentEncode hc with hdigit | ⟨-, hset⟩
    · exact absurd hdigit (by decide)
    · rw [hplus] at hset
      cases hset
  unfold formDecode
  rw [hmap, percentDecode_percentEncode hpercent, Utf8Decoder.decode_encode]
  exact List.append_nil text

/-- A single pair, of a name that needs no encoding. -/
theorem parseForm_single {name : List Char} (hpercent : set '%' = true) (hplus : set '+' = true)
    (hand : set '&' = true) (hequals : set '=' = true) (hname : ∀ c ∈ name, set c = false)
    (value : List Char) :
    parseForm (name ++ '=' :: percentEncode set value) = [(name, value)] := by
  have hno {c : Char} (hc : set c = true) : c ∉ name := by
    intro h
    rw [hname c h] at hc
    cases hc
  have hand' : '&' ∉ percentEncode set value := by
    intro h
    rcases mem_percentEncode h with hdigit | ⟨-, hset⟩
    · exact absurd hdigit (by decide)
    · rw [hand] at hset
      cases hset
  have hpiece : '&' ∉ name ++ '=' :: percentEncode set value := by
    simp only [List.mem_append, List.mem_cons, not_or]
    exact ⟨hno hand, by decide, hand'⟩
  have hkeep : ∀ c ∈ name, decide (c ≠ '=') = true := by
    rintro c hc
    refine decide_eq_true fun he => hno hequals ?_
    rwa [← he]
  have hdecode : formDecode name = name := by
    have h := formDecode_percentEncode hpercent hplus name
    rwa [percentEncode_eq_self hname] at h
  have hfront : (name ++ '=' :: percentEncode set value).takeWhile (· ≠ '=') = name := by
    rw [List.takeWhile_append_of_pos hkeep, List.takeWhile_cons_of_neg (by decide),
      List.append_nil]
  have hbehind : (name ++ '=' :: percentEncode set value).dropWhile (· ≠ '=') =
      '=' :: percentEncode set value := by
    rw [List.dropWhile_append_of_pos hkeep, List.dropWhile_cons_of_neg (by decide)]
  have hfilter : [name ++ '=' :: percentEncode set value].filter (· ≠ []) =
      [name ++ '=' :: percentEncode set value] := by simp
  rw [parseForm, List.splitOn_eq_singleton hpiece, hfilter, List.map_singleton, formPair,
    hfront, hbehind, List.tail_cons, hdecode, formDecode_percentEncode hpercent hplus]

/-! ## A value in a URL -/

/-- What is encoded in the end. -/
def formSet (c : Char) : Bool := componentSet c || querySet c

/-- What `encodeURIComponent` leaves is visible. -/
theorem visible_of_componentSet {c : Char} (h : componentSet c = false) : 0x20 < c.toNat := by
  unfold componentSet isUnreserved Char.isAlphanum Char.isAlpha Char.isUpper Char.isLower
    Char.isDigit at h
  simp only [Bool.not_eq_false', Bool.or_eq_true, Bool.and_eq_true, decide_eq_true_eq,
    UInt32.le_iff_toNat_le, ge_iff_le, List.contains_iff_mem] at h
  rcases h with ((h | h) | h) | h
  · exact (by decide : 0x20 < 65).trans_le h.1
  · exact (by decide : 0x20 < 97).trans_le h.1
  · exact (by decide : 0x20 < 48).trans_le h.1
  · have hall : ∀ c ∈ ['-', '_', '.', '!', '~', '*', '\x27', '(', ')'], 0x20 < c.toNat :=
      List.all_iff_forall_prop.1 (by decide)
    exact hall c h

theorem visible_of_mem_encodeURIComponent {c : Char} {value : List Char}
    (h : c ∈ encodeURIComponent value) : 0x20 < c.toNat ∧ c ≠ '#' := by
  rcases mem_percentEncode h with hdigit | ⟨-, hset⟩
  · have hall : ∀ c ∈ '%' :: "0123456789ABCDEF".toList, 0x20 < c.toNat ∧ c ≠ '#' :=
      List.all_iff_forall_prop.1 (by decide)
    exact hall c hdigit
  · refine ⟨visible_of_componentSet hset, ?_⟩
    rintro rfl
    exact absurd hset (by decide)

/-- The query of a path with one parameter. -/
theorem query_single {path name : List Char}
    (hpath : ∀ c ∈ path, 0x20 < c.toNat ∧ c ≠ '?' ∧ c ≠ '#')
    (hname : ∀ c ∈ name, formSet c = false) (value : List Char) :
    query (path ++ '?' :: (name ++ '=' :: encodeURIComponent value)) =
      name ++ '=' :: percentEncode formSet value := by
  have hset : ∀ c ∈ name, componentSet c = false ∧ querySet c = false :=
    fun c hc => Bool.or_eq_false_iff.1 (hname c hc)
  have hvisible : ∀ c ∈ path ++ '?' :: (name ++ '=' :: encodeURIComponent value),
      0x20 < c.toNat ∧ c ≠ '#' := by
    simp only [List.mem_append, List.mem_cons]
    rintro c (hc | rfl | hc | rfl | hc)
    · exact ⟨(hpath c hc).1, (hpath c hc).2.2⟩
    · decide
    · refine ⟨visible_of_componentSet (hset c hc).1, ?_⟩
      rintro rfl
      exact absurd (hset _ hc).1 (by decide)
    · decide
    · exact visible_of_mem_encodeURIComponent hc
  have hclean : clean (path ++ '?' :: (name ++ '=' :: encodeURIComponent value)) =
      path ++ '?' :: (name ++ '=' :: encodeURIComponent value) :=
    clean_eq_self fun c hc => decide_eq_false (Nat.not_le.2 (hvisible c hc).1)
  have hfragment : (path ++ '?' :: (name ++ '=' :: encodeURIComponent value)).takeWhile
      (· ≠ '#') = path ++ '?' :: (name ++ '=' :: encodeURIComponent value) :=
    List.takeWhile_eq_self_iff.2 fun c hc => decide_eq_true (hvisible c hc).2
  rw [query, hclean, hfragment,
    List.dropWhile_append_of_pos fun c hc => decide_eq_true (hpath c hc).2.1,
    List.dropWhile_cons_of_neg (by decide), List.tail_cons, percentEncode_append,
    percentEncode_cons, percentEncode_eq_self fun c hc => (hset c hc).2,
    encodeChar_of_not (by decide), encodeURIComponent,
    percentEncode_percentEncode (List.all_iff_forall_prop.1 (by decide))]
  rfl

/-- **A parameter is read back as it was written.** -/
theorem get_searchParams {path name : List Char}
    (hpath : ∀ c ∈ path, 0x20 < c.toNat ∧ c ≠ '?' ∧ c ≠ '#')
    (hname : ∀ c ∈ name, formSet c = false) (value : List Char) :
    getParam name
      (searchParams (path ++ '?' :: (name ++ '=' :: encodeURIComponent value))) = some value := by
  rw [searchParams, query_single hpath hname,
    parseForm_single (by decide) (by decide) (by decide) (by decide) hname]
  simp [getParam]

end

end Web

end TrackFlow
