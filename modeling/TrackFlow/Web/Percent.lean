import Mathlib.Data.List.Basic
import Mathlib.Data.List.GetD

/-!
# Percent-encoding

Percent-encoding of the characters of a set, as the URL standard has it, and `decodeURIComponent`.
Texts are lists of characters; a text with a lone surrogate is no such list.

* `percentEncode` : a text with the characters of a set encoded.
* `percentEncode_eq_iff` : a text of other characters is the encoding of itself alone.
* `decodeURIComponent` : the decoder; `none` if it throws.
* `length_decodeURIComponent` : it shortens a text that has escapes.
-/

namespace TrackFlow

namespace Web

/-- An upper-case hexadecimal digit. -/
def upperHex (n : ℕ) : Char := "0123456789ABCDEF".toList.getD n '0'

/-- `%` and the two digits of a byte. -/
def encodeByte (b : ℕ) : List Char := ['%', upperHex (b / 16), upperHex (b % 16)]

/-- A character, encoded by its UTF-8 bytes if it is in the set. -/
def encodeChar (set : Char → Bool) (c : Char) : List Char :=
  if set c then (String.utf8EncodeChar c).flatMap fun b => encodeByte b.toNat else [c]

/-- UTF-8 percent-encode. -/
def percentEncode (set : Char → Bool) (text : List Char) : List Char :=
  text.flatMap (encodeChar set)

/-! ## Decoding -/

/-- The value of a hexadecimal digit. -/
def hexDigitValue (c : Char) : Option ℕ :=
  if '0' ≤ c ∧ c ≤ '9' then some (c.toNat - '0'.toNat)
  else if 'a' ≤ c ∧ c ≤ 'f' then some (c.toNat - 'a'.toNat + 10)
  else if 'A' ≤ c ∧ c ≤ 'F' then some (c.toNat - 'A'.toNat + 10)
  else none

/-- A character of the text, or the octet of an escape. -/
inductive Unit8
  | literal (c : Char)
  | octet (b : ℕ)
  deriving DecidableEq, Repr

/-- The characters and the escapes of a text; `none` if a `%` begins no escape. -/
def units : List Char → Option (List Unit8)
  | [] => some []
  | '%' :: a :: b :: rest =>
    match hexDigitValue a, hexDigitValue b with
    | some high, some low => (units rest).map (.octet (high * 16 + low) :: ·)
    | _, _ => none
  | '%' :: _ => none
  | c :: rest => (units rest).map (.literal c :: ·)

/-- A sequence of octets that is under way: the code point so far, how many octets are to come, and
the bounds of the next one. -/
structure Pending where
  point : ℕ
  needed : ℕ
  lower : ℕ := 0x80
  upper : ℕ := 0xBF
  deriving DecidableEq, Repr

/-- The first octet of a longer sequence. -/
def lead (b : ℕ) : Option Pending :=
  if 0xC2 ≤ b ∧ b ≤ 0xDF then some { point := b - 0xC0, needed := 1 }
  else if 0xE0 ≤ b ∧ b ≤ 0xEF then
    some { point := b - 0xE0
           needed := 2
           lower := if b = 0xE0 then 0xA0 else 0x80
           upper := if b = 0xED then 0x9F else 0xBF }
  else if 0xF0 ≤ b ∧ b ≤ 0xF4 then
    some { point := b - 0xF0
           needed := 3
           lower := if b = 0xF0 then 0x90 else 0x80
           upper := if b = 0xF4 then 0x8F else 0xBF }
  else none

/-- The text of literals and octets; `none` if the octets are not UTF-8. -/
def decodeUnits : Option Pending → List Unit8 → Option (List Char)
  | none, [] => some []
  | some _, [] => none
  | none, .literal c :: rest => (decodeUnits none rest).map (c :: ·)
  | some _, .literal _ :: _ => none
  | none, .octet b :: rest =>
    if b ≤ 0x7F then (decodeUnits none rest).map (Char.ofNat b :: ·)
    else
      match lead b with
      | none => none
      | some pending => decodeUnits (some pending) rest
  | some pending, .octet b :: rest =>
    if b < pending.lower ∨ pending.upper < b then none
    else
      let point := pending.point * 64 + (b - 0x80)
      if pending.needed = 1 then (decodeUnits none rest).map (Char.ofNat point :: ·)
      else decodeUnits (some { point, needed := pending.needed - 1 }) rest

/-- `decodeURIComponent`; `none` if it throws. -/
def decodeURIComponent (text : List Char) : Option (List Char) := do
  decodeUnits none (← units text)

/-- A text without escapes is decoded to itself. -/
theorem decodeURIComponent_eq_self {text : List Char} (h : '%' ∉ text) :
    decodeURIComponent text = some text := by
  have hunits : units text = some (text.map .literal) := by
    induction text with
    | nil => rfl
    | cons c text ih =>
      rw [List.mem_cons, not_or] at h
      have hc : c ≠ '%' := fun he => h.1 he.symm
      rw [units, ih h.2]
      · rfl
      · exact fun _ _ _ he _ => hc he
      · exact hc
  have hdecode (text : List Char) : decodeUnits none (text.map .literal) = some text := by
    induction text with
    | nil => rfl
    | cons c text ih => rw [List.map_cons, decodeUnits, ih, Option.map_some]
  unfold decodeURIComponent
  rw [hunits]
  exact hdecode text

theorem length_units {text : List Char} {pieces : List Unit8} (h : units text = some pieces) :
    pieces.length ≤ text.length ∧ ('%' ∈ text → pieces.length < text.length) := by
  fun_induction units text generalizing pieces with
  | case1 => simp_all
  | case2 a b rest high low ih ih' ih'' =>
    obtain ⟨behind, hbehind, rfl⟩ := Option.map_eq_some_iff.1 h
    have hrest := (ih'' hbehind).1
    simp only [List.length_cons]
    omega
  | case3 => cases h
  | case4 => cases h
  | case5 c rest hescape hpercent ih =>
    obtain ⟨behind, hbehind, rfl⟩ := Option.map_eq_some_iff.1 h
    have hrest := ih hbehind
    simp only [List.length_cons, List.mem_cons]
    refine ⟨by omega, fun hmem => ?_⟩
    have hlt := hrest.2 (hmem.resolve_left fun hc => hpercent hc.symm)
    omega

theorem length_decodeUnits {pending : Option Pending} {pieces : List Unit8} {text : List Char}
    (h : decodeUnits pending pieces = some text) : text.length ≤ pieces.length := by
  fun_induction decodeUnits pending pieces generalizing text with
  | case1 => simp_all
  | case2 => cases h
  | case3 c rest ih =>
    obtain ⟨behind, hbehind, rfl⟩ := Option.map_eq_some_iff.1 h
    exact Nat.succ_le_succ (ih hbehind)
  | case4 => cases h
  | case5 b rest hb ih =>
    obtain ⟨behind, hbehind, rfl⟩ := Option.map_eq_some_iff.1 h
    exact Nat.succ_le_succ (ih hbehind)
  | case6 => cases h
  | case7 b rest hb pending hlead ih => exact Nat.le_succ_of_le (ih h)
  | case8 => cases h
  | case9 pending b rest hb point hneeded =>
    rename_i ih
    obtain ⟨behind, hbehind, rfl⟩ := Option.map_eq_some_iff.1 h
    exact Nat.succ_le_succ (ih hbehind)
  | case10 pending b rest hb point hneeded =>
    rename_i ih
    exact Nat.le_succ_of_le (ih h)

/-- **Decoding never lengthens a text, and shortens one that has escapes.** -/
theorem length_decodeURIComponent {text decoded : List Char}
    (h : decodeURIComponent text = some decoded) :
    decoded.length ≤ text.length ∧ ('%' ∈ text → decoded.length < text.length) := by
  obtain ⟨pieces, hunits, hdecode⟩ := Option.bind_eq_some_iff.1 h
  have hpieces := length_units hunits
  have hdecoded := length_decodeUnits hdecode
  exact ⟨Nat.le_trans hdecoded hpieces.1, fun hmem => Nat.lt_of_le_of_lt hdecoded (hpieces.2 hmem)⟩

/-! ## What is encoded -/

section

variable {set : Char → Bool}

theorem percentEncode_cons (c : Char) (text : List Char) :
    percentEncode set (c :: text) = encodeChar set c ++ percentEncode set text :=
  List.flatMap_cons

theorem percentEncode_append (front behind : List Char) :
    percentEncode set (front ++ behind) = percentEncode set front ++ percentEncode set behind :=
  List.flatMap_append

theorem encodeChar_of_not {c : Char} (h : set c = false) : encodeChar set c = [c] := by
  rw [encodeChar, h]
  rfl

/-- A text of characters that are not in the set is left as it is. -/
theorem percentEncode_eq_self {text : List Char} (h : ∀ c ∈ text, set c = false) :
    percentEncode set text = text := by
  induction text with
  | nil => rfl
  | cons c text ih =>
    rw [percentEncode_cons, encodeChar_of_not (h c List.mem_cons_self),
      ih fun d hd => h d (List.mem_cons_of_mem c hd)]
    rfl

/-- An encoded character begins with its first byte, which is its code if it is ASCII. -/
theorem encodeChar_of_mem {c : Char} (h : set c = true) : ∃ b rest, b < 256 ∧
    (b < 0x80 → b = c.toNat) ∧
    encodeChar set c = '%' :: upperHex (b / 16) :: upperHex (b % 16) :: rest := by
  have hcons {b : UInt8} {bytes : List UInt8} (hbytes : String.utf8EncodeChar c = b :: bytes) :
      encodeChar set c = '%' :: upperHex (b.toNat / 16) :: upperHex (b.toNat % 16) ::
        bytes.flatMap fun b => encodeByte b.toNat := by
    rw [encodeChar, h, if_pos rfl, hbytes]
    rfl
  have hchar : c.toNat = c.val.toNat := rfl
  -- the first byte of a longer sequence is at least 0xC0
  have hlong {n : ℕ} (hn : 0xC0 ≤ n ∧ n < 256) :
      (UInt8.ofNat n).toNat < 256 ∧ ((UInt8.ofNat n).toNat < 0x80 → (UInt8.ofNat n).toNat =
        c.toNat) := by
    rw [UInt8.toNat_ofNat']
    omega
  unfold String.utf8EncodeChar at hcons
  simp only at hcons
  split_ifs at hcons with h₁ h₂ h₃
  · refine ⟨_, _, ?_, fun _ => ?_, hcons rfl⟩
    · exact UInt8.toNat_lt _
    · rw [UInt8.toNat_ofNat', hchar]
      omega
  · exact ⟨_, _, (hlong (by omega)).1, (hlong (by omega)).2, hcons rfl⟩
  · exact ⟨_, _, (hlong (by omega)).1, (hlong (by omega)).2, hcons rfl⟩
  · exact ⟨_, _, (hlong (by omega)).1, (hlong (by omega)).2, hcons rfl⟩

theorem upperHex_mem (n : ℕ) : upperHex n ∈ "0123456789ABCDEF".toList := by
  unfold upperHex
  rcases Nat.lt_or_ge n "0123456789ABCDEF".toList.length with h | h
  · rw [List.getD_eq_getElem _ _ h]
    exact List.getElem_mem h
  · rw [List.getD_eq_default _ _ h]
    decide

/-- What is not encoded is as it was; else there are `%` and the digits. -/
theorem mem_percentEncode {c : Char} {text : List Char} (h : c ∈ percentEncode set text) :
    c ∈ '%' :: "0123456789ABCDEF".toList ∨ c ∈ text ∧ set c = false := by
  obtain ⟨d, hd, hc⟩ := List.mem_flatMap.1 h
  unfold encodeChar at hc
  split_ifs at hc with hset
  · obtain ⟨b, -, hb⟩ := List.mem_flatMap.1 hc
    simp only [encodeByte, List.mem_cons, List.not_mem_nil, or_false] at hb
    rcases hb with rfl | rfl | rfl
    · exact .inl List.mem_cons_self
    · exact .inl (List.mem_cons_of_mem _ (upperHex_mem _))
    · exact .inl (List.mem_cons_of_mem _ (upperHex_mem _))
  · obtain rfl := List.mem_singleton.1 hc
    exact .inr ⟨hd, Bool.eq_false_iff.2 hset⟩

/-- Encoding brings in no characters but `%` and the digits. -/
theorem not_mem_percentEncode {c : Char} {text : List Char}
    (hdigit : c ∉ '%' :: "0123456789ABCDEF".toList) (h : c ∉ text) :
    c ∉ percentEncode set text := by
  intro hmem
  rcases mem_percentEncode hmem with hc | hc
  · exact hdigit hc
  · exact h hc.1

/-- Encoding twice is encoding what is in either set, if the escapes are not encoded again. -/
theorem percentEncode_percentEncode {outer : Char → Bool}
    (houter : ∀ c ∈ '%' :: "0123456789ABCDEF".toList, outer c = false) (text : List Char) :
    percentEncode outer (percentEncode set text) =
      percentEncode (fun c => set c || outer c) text := by
  induction text with
  | nil => rfl
  | cons c text ih =>
    rw [percentEncode_cons, percentEncode_append, ih, percentEncode_cons]
    congr 1
    cases hc : set c with
    | true =>
      have hkeep : ∀ d ∈ encodeChar set c, outer d = false := by
        intro d hd
        have hmem : d ∈ percentEncode set [c] :=
          List.mem_flatMap.2 ⟨c, List.mem_singleton_self c, hd⟩
        rcases mem_percentEncode hmem with hd | ⟨hd, hset⟩
        · exact houter d hd
        · rw [List.mem_singleton.1 hd, hc] at hset
          cases hset
      rw [percentEncode_eq_self hkeep, encodeChar, encodeChar, hc]
      rfl
    | false =>
      rw [encodeChar_of_not hc, percentEncode_cons, encodeChar, encodeChar, hc]
      exact List.append_nil _

/-- A text of characters that are not in the set is the encoding of itself alone. -/
theorem percentEncode_eq_iff {text target : List Char} (hset : ∀ c ∈ target, set c = false)
    (hpercent : '%' ∉ target) : percentEncode set text = target ↔ text = target := by
  induction text generalizing target with
  | nil => exact Iff.rfl
  | cons c text ih =>
    rw [percentEncode_cons]
    cases hc : set c with
    | true =>
      obtain ⟨b, rest, -, -, hencode⟩ := encodeChar_of_mem hc
      refine iff_of_false (fun he => hpercent ?_) fun he => ?_
      · rw [← he, hencode]
        exact List.mem_cons_self
      · rw [hset c (he ▸ List.mem_cons_self)] at hc
        cases hc
    | false =>
      rw [encodeChar_of_not hc, List.singleton_append]
      cases target with
      | nil => simp
      | cons d target =>
        rw [List.cons.injEq, List.cons.injEq,
          ih (fun c hc => hset c (List.mem_cons_of_mem _ hc))
            fun hmem => hpercent (List.mem_cons_of_mem _ hmem)]

end

end Web

end TrackFlow
