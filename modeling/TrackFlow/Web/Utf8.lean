import Mathlib.Data.List.Basic

/-!
# The UTF-8 decoder of `TextDecoder`

The decoder works byte by byte and keeps its state from chunk to chunk.  A byte that does not
continue a sequence gives U+FFFD and is read again; a byte order mark at the start is dropped.

* `encode` : the bytes of a text.
* `Utf8Decoder.next`, `Utf8Decoder.decode` : a byte, a chunk; `Utf8Decoder.flush` : the end.
* `Utf8Decoder.decode_append` : **chunks can be cut anywhere.**
* `Utf8Decoder.decode_encode` : **the decoder undoes `encode`.**
-/

namespace TrackFlow

namespace Web

/-- The UTF-8 bytes of a text. -/
def encode (text : List Char) : List UInt8 := text.flatMap String.utf8EncodeChar

theorem encode_append (front behind : List Char) :
    encode (front ++ behind) = encode front ++ encode behind := List.flatMap_append

/-- The state of the decoder: the code point so far, the bytes seen and needed, the bounds of the
next byte, and whether the start of the stream is over. -/
structure Utf8Decoder where
  point : ℕ := 0
  seen : ℕ := 0
  needed : ℕ := 0
  lower : ℕ := 0x80
  upper : ℕ := 0xBF
  bomSeen : Bool := false
  deriving DecidableEq, Repr

namespace Utf8Decoder

/-- No sequence is under way. -/
def idle (bomSeen : Bool) : Utf8Decoder := { bomSeen := bomSeen }

/-- A character is put out, and no sequence is under way. -/
def emit (bomSeen : Bool) (c : Char) : Utf8Decoder × List Char :=
  (idle true, if !bomSeen && c == '\uFEFF' then [] else [c])

/-- The replacement character. -/
def replacement : Char := '\uFFFD'

/-- The first byte of a sequence. -/
def first (bomSeen : Bool) (b : ℕ) : Utf8Decoder × List Char :=
  if b ≤ 0x7F then emit bomSeen (Char.ofNat b)
  else if 0xC2 ≤ b ∧ b ≤ 0xDF then
    ({ needed := 1, point := b - 0xC0, bomSeen := bomSeen }, [])
  else if 0xE0 ≤ b ∧ b ≤ 0xEF then
    ({ needed := 2
       point := b - 0xE0
       lower := if b = 0xE0 then 0xA0 else 0x80
       upper := if b = 0xED then 0x9F else 0xBF
       bomSeen := bomSeen }, [])
  else if 0xF0 ≤ b ∧ b ≤ 0xF4 then
    ({ needed := 3
       point := b - 0xF0
       lower := if b = 0xF0 then 0x90 else 0x80
       upper := if b = 0xF4 then 0x8F else 0xBF
       bomSeen := bomSeen }, [])
  else emit bomSeen replacement

/-- The sequence goes on. -/
def continued (d : Utf8Decoder) (point : ℕ) : Utf8Decoder where
  point := point
  seen := d.seen + 1
  needed := d.needed
  bomSeen := d.bomSeen

/-- A byte. -/
def next (d : Utf8Decoder) (b : ℕ) : Utf8Decoder × List Char :=
  if d.needed = 0 then first d.bomSeen b
  else if b < d.lower ∨ d.upper < b then
    let error := emit d.bomSeen replacement
    let again := first error.1.bomSeen b
    (again.1, error.2 ++ again.2)
  else if d.seen + 1 = d.needed then emit d.bomSeen (Char.ofNat (d.point * 64 + (b - 0x80)))
  else (d.continued (d.point * 64 + (b - 0x80)), [])

/-- A chunk. -/
def decode (d : Utf8Decoder) : List UInt8 → Utf8Decoder × List Char
  | [] => (d, [])
  | b :: bytes =>
    let step := d.next b.toNat
    let rest := decode step.1 bytes
    (rest.1, step.2 ++ rest.2)

/-- The end of the stream: a sequence that is under way is an error. -/
def flush (d : Utf8Decoder) : List Char :=
  if d.needed = 0 then [] else (emit d.bomSeen replacement).2

/-- **Chunks can be cut anywhere.** -/
theorem decode_append (d : Utf8Decoder) (front behind : List UInt8) :
    d.decode (front ++ behind) =
      (((d.decode front).1.decode behind).1,
        (d.decode front).2 ++ ((d.decode front).1.decode behind).2) := by
  induction front generalizing d with
  | nil => rfl
  | cons b front ih =>
    rw [List.cons_append, decode, decode, ih, List.append_assoc]

/-! ## The sequences -/

section

variable {bomSeen : Bool} {v : ℕ}

theorem toNat_ofNat {n : ℕ} (h : n < 256) : (UInt8.ofNat n).toNat = n :=
  UInt8.toNat_ofNat_of_lt h

theorem next_idle (b : ℕ) : (idle bomSeen).next b = first bomSeen b := if_pos rfl

/-- A byte that continues the sequence. -/
theorem next_of_mem {d : Utf8Decoder} {b : ℕ} (hneeded : d.needed ≠ 0) (hlower : d.lower ≤ b)
    (hupper : b ≤ d.upper) (hmore : d.seen + 1 ≠ d.needed) :
    d.next b = (d.continued (d.point * 64 + (b - 0x80)), []) := by
  rw [next, if_neg hneeded, if_neg (by omega), if_neg hmore]

/-- The byte that ends the sequence. -/
theorem next_of_last {d : Utf8Decoder} {b : ℕ} (hneeded : d.needed ≠ 0) (hlower : d.lower ≤ b)
    (hupper : b ≤ d.upper) (hlast : d.seen + 1 = d.needed) :
    d.next b = emit d.bomSeen (Char.ofNat (d.point * 64 + (b - 0x80))) := by
  rw [next, if_neg hneeded, if_neg (by omega), if_pos hlast]

/-- A byte that puts nothing out. -/
theorem decode_of_silent {d d' : Utf8Decoder} {b : ℕ} (hb : b < 256) (hnext : d.next b = (d', []))
    (bytes : List UInt8) : d.decode (UInt8.ofNat b :: bytes) = d'.decode bytes := by
  rw [decode, toNat_ofNat hb, hnext]
  rfl

/-- A last byte. -/
theorem decode_singleton {d : Utf8Decoder} {b : ℕ} (hb : b < 256) :
    d.decode [UInt8.ofNat b] = d.next b := by
  rw [decode, decode, toNat_ofNat hb, List.append_nil]

theorem decode_one (h : v ≤ 0x7F) :
    (idle bomSeen).decode [UInt8.ofNat v] = emit bomSeen (Char.ofNat v) := by
  rw [decode_singleton (by omega), next_idle, first, if_pos h]

theorem decode_two (h : 0x7F < v) (h' : v ≤ 0x7FF) :
    (idle bomSeen).decode [UInt8.ofNat (v / 64 % 0x20 + 0xC0), UInt8.ofNat (v % 0x40 + 0x80)] =
      emit bomSeen (Char.ofNat v) := by
  have hpoint : v / 64 % 0x20 + 0xC0 - 0xC0 = v / 64 := by omega
  have hwhole : v / 64 * 64 + (v % 0x40 + 0x80 - 0x80) = v := by omega
  have hfirst : (idle bomSeen).next (v / 64 % 0x20 + 0xC0) =
      ({ needed := 1, point := v / 64, bomSeen := bomSeen }, []) := by
    rw [next_idle, first, if_neg (by omega), if_pos (by omega), hpoint]
  rw [decode_of_silent (by omega) hfirst, decode_singleton (by omega),
    next_of_last (by simp) (by simp) (by simp only; omega) (by simp), hwhole]

theorem decode_three (h : 0x7FF < v) (h' : v ≤ 0xFFFF) (hv : v < 0xD800 ∨ 0xDFFF < v) :
    (idle bomSeen).decode [UInt8.ofNat (v / 4096 % 0x10 + 0xE0),
      UInt8.ofNat (v / 64 % 0x40 + 0x80), UInt8.ofNat (v % 0x40 + 0x80)] =
      emit bomSeen (Char.ofNat v) := by
  have hpoint : v / 4096 % 0x10 + 0xE0 - 0xE0 = v / 4096 := by omega
  have hmiddle : v / 4096 * 64 + (v / 64 % 0x40 + 0x80 - 0x80) = v / 64 := by omega
  have hwhole : v / 64 * 64 + (v % 0x40 + 0x80 - 0x80) = v := by omega
  have hlower : (v / 4096 % 0x10 + 0xE0 = 0xE0) = (v / 4096 = 0) := propext (by omega)
  have hupper : (v / 4096 % 0x10 + 0xE0 = 0xED) = (v / 4096 = 0xD) := propext (by omega)
  have hfirst : (idle bomSeen).next (v / 4096 % 0x10 + 0xE0) =
      ({ needed := 2
         point := v / 4096
         lower := if v / 4096 = 0 then 0xA0 else 0x80
         upper := if v / 4096 = 0xD then 0x9F else 0xBF
         bomSeen := bomSeen }, []) := by
    rw [next_idle, first, if_neg (by omega), if_neg (by omega), if_pos (by omega), hpoint]
    simp only [hlower, hupper]
  have hsecond : Utf8Decoder.next
      { needed := 2
        point := v / 4096
        lower := if v / 4096 = 0 then 0xA0 else 0x80
        upper := if v / 4096 = 0xD then 0x9F else 0xBF
        bomSeen := bomSeen } (v / 64 % 0x40 + 0x80) =
      ({ seen := 1, needed := 2, point := v / 64, bomSeen := bomSeen }, []) := by
    rw [next_of_mem (by simp) (by simp only; split_ifs <;> omega)
      (by simp only; split_ifs <;> omega) (by simp), continued, hmiddle]
  rw [decode_of_silent (by omega) hfirst, decode_of_silent (by omega) hsecond,
    decode_singleton (by omega),
    next_of_last (by simp) (by simp) (by simp only; omega) (by simp), hwhole]

theorem decode_four (h : 0xFFFF < v) (h' : v < 0x110000) :
    (idle bomSeen).decode [UInt8.ofNat (v / 262144 % 0x08 + 0xF0),
      UInt8.ofNat (v / 4096 % 0x40 + 0x80), UInt8.ofNat (v / 64 % 0x40 + 0x80),
      UInt8.ofNat (v % 0x40 + 0x80)] = emit bomSeen (Char.ofNat v) := by
  have hpoint : v / 262144 % 0x08 + 0xF0 - 0xF0 = v / 262144 := by omega
  have hmiddle : v / 262144 * 64 + (v / 4096 % 0x40 + 0x80 - 0x80) = v / 4096 := by omega
  have hmiddle' : v / 4096 * 64 + (v / 64 % 0x40 + 0x80 - 0x80) = v / 64 := by omega
  have hwhole : v / 64 * 64 + (v % 0x40 + 0x80 - 0x80) = v := by omega
  have hlower : (v / 262144 % 0x08 + 0xF0 = 0xF0) = (v / 262144 = 0) := propext (by omega)
  have hupper : (v / 262144 % 0x08 + 0xF0 = 0xF4) = (v / 262144 = 4) := propext (by omega)
  have hfirst : (idle bomSeen).next (v / 262144 % 0x08 + 0xF0) =
      ({ needed := 3
         point := v / 262144
         lower := if v / 262144 = 0 then 0x90 else 0x80
         upper := if v / 262144 = 4 then 0x8F else 0xBF
         bomSeen := bomSeen }, []) := by
    rw [next_idle, first, if_neg (by omega), if_neg (by omega), if_neg (by omega),
      if_pos (by omega), hpoint]
    simp only [hlower, hupper]
  have hsecond : Utf8Decoder.next
      { needed := 3
        point := v / 262144
        lower := if v / 262144 = 0 then 0x90 else 0x80
        upper := if v / 262144 = 4 then 0x8F else 0xBF
        bomSeen := bomSeen } (v / 4096 % 0x40 + 0x80) =
      ({ seen := 1, needed := 3, point := v / 4096, bomSeen := bomSeen }, []) := by
    rw [next_of_mem (by simp) (by simp only; split_ifs <;> omega)
      (by simp only; split_ifs <;> omega) (by simp), continued, hmiddle]
  have hthird : Utf8Decoder.next
      { seen := 1, needed := 3, point := v / 4096, bomSeen := bomSeen } (v / 64 % 0x40 + 0x80) =
      ({ seen := 2, needed := 3, point := v / 64, bomSeen := bomSeen }, []) := by
    rw [next_of_mem (by simp) (by simp) (by simp only; omega) (by simp), continued, hmiddle']
  rw [decode_of_silent (by omega) hfirst, decode_of_silent (by omega) hsecond,
    decode_of_silent (by omega) hthird, decode_singleton (by omega),
    next_of_last (by simp) (by simp) (by simp only; omega) (by simp), hwhole]

/-- The bytes of a character are read as the character. -/
theorem decode_encodeChar (c : Char) :
    (idle bomSeen).decode (String.utf8EncodeChar c) = emit bomSeen c := by
  have hc : Char.ofNat c.val.toNat = c := Char.ofNat_toNat c
  have hvalid : c.val.toNat < 0xD800 ∨ 0xDFFF < c.val.toNat ∧ c.val.toNat < 0x110000 := c.valid
  unfold String.utf8EncodeChar
  simp only
  split_ifs with h₁ h₂ h₃
  · rw [decode_one h₁, hc]
  · rw [decode_two (by omega) h₂, hc]
  · rw [decode_three (by omega) h₃ (by omega), hc]
  · rw [decode_four (by omega) (by omega), hc]

/-- **The decoder undoes `encode`**, once the start of the stream is over. -/
theorem decode_encode (text : List Char) :
    (idle true).decode (encode text) = (idle true, text) := by
  induction text with
  | nil => rfl
  | cons c text ih =>
    rw [show encode (c :: text) = String.utf8EncodeChar c ++ encode text from List.flatMap_cons,
      decode_append, decode_encodeChar]
    simp only [emit, Bool.not_true, Bool.false_and, Bool.false_eq_true, if_false, ih]
    rfl

/-- A stream that does not start with a byte order mark. -/
theorem decode_encode_cons {c : Char} (text : List Char) (hc : c ≠ '\uFEFF') :
    (idle false).decode (encode (c :: text)) = (idle true, c :: text) := by
  rw [show encode (c :: text) = String.utf8EncodeChar c ++ encode text from List.flatMap_cons,
    decode_append, decode_encodeChar]
  simp only [emit, beq_eq_false_iff_ne.2 hc, Bool.and_false, Bool.false_eq_true, if_false,
    decode_encode]
  rfl

end

end Utf8Decoder

end Web

end TrackFlow
