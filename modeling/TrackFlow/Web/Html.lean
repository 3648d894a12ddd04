import Mathlib.Data.List.TakeWhile
import Mathlib.Tactic.Common

/-!
# HTML text

Texts with the five special characters escaped, between tags without attributes.

* `Html.escape` : `html.escape`.
* `Html.Forest` : a sequence of texts and elements; `Forest.render` is its HTML, so that a rendered
  forest has its tags nested and closed, and no special character outside of them.
* `Html.innerTexts` : reads a document, and lists what is inside the elements with given names.
* `Html.Inner`, `Html.Closed` : what a part of a document adds to that list.
-/

namespace TrackFlow

namespace Html

/-- `html.escape` of one character. -/
def escapeChar (c : Char) : List Char :=
  if c = '&' then "&amp;".toList
  else if c = '<' then "&lt;".toList
  else if c = '>' then "&gt;".toList
  else if c = '\x22' then "&quot;".toList
  else if c = '\x27' then "&#x27;".toList
  else [c]

/-- `html.escape`. -/
def escape (text : List Char) : List Char := text.flatMap escapeChar

/-- `<name>` -/
def openTag (name : List Char) : List Char := '<' :: (name ++ ['>'])

/-- `</name>` -/
def closeTag (name : List Char) : List Char := openTag ('/' :: name)

/-- `<name>…</name>` -/
def wrap (name inner : List Char) : List Char := openTag name ++ (inner ++ closeTag name)

theorem escape_cons (c : Char) (text : List Char) :
    escape (c :: text) = escapeChar c ++ escape text := List.flatMap_cons

theorem escapeChar_ne_nil (c : Char) : escapeChar c ≠ [] := by
  unfold escapeChar
  split_ifs <;> exact List.cons_ne_nil _ _

/-- No tag begins in an escaped character. -/
theorem open_notMem_escapeChar (c : Char) : '<' ∉ escapeChar c := by
  unfold escapeChar
  split_ifs with hamp hlt hgt hquote hapostrophe
  · decide
  · decide
  · decide
  · decide
  · decide
  · rw [List.mem_singleton]
    exact fun h => hlt h.symm

/-! ## Forests -/

/-- Texts and elements, one after the other. -/
inductive Forest (τ : Type*)
  | nil
  | text (chars : List Char) (rest : Forest τ)
  | element (tag : τ) (children rest : Forest τ)

namespace Forest

variable {τ : Type*} (name : τ → List Char)

/-- The HTML of a forest. -/
def render : Forest τ → List Char
  | nil => []
  | text chars rest => escape chars ++ rest.render
  | element tag children rest => wrap (name tag) children.render ++ rest.render

/-- The texts of a forest. -/
def content : Forest τ → List Char
  | nil => []
  | text chars rest => chars ++ rest.content
  | element _ children rest => children.content ++ rest.content

/-- A forest behind another. -/
def append : Forest τ → Forest τ → Forest τ
  | nil, other => other
  | text chars rest, other => text chars (rest.append other)
  | element tag children rest, other => element tag children (rest.append other)

@[simp] theorem render_append (forest other : Forest τ) :
    (forest.append other).render name = forest.render name ++ other.render name := by
  induction forest with
  | nil => rfl
  | text chars rest ih => rw [append, render, ih, render, List.append_assoc]
  | element tag children rest _ ih => rw [append, render, ih, render, List.append_assoc]

@[simp] theorem content_append (forest other : Forest τ) :
    (forest.append other).content = forest.content ++ other.content := by
  induction forest with
  | nil => rfl
  | text chars rest ih => rw [append, content, ih, content, List.append_assoc]
  | element tag children rest _ ih => rw [append, content, ih, content, List.append_assoc]

end Forest

/-! ## Reading a document -/

local instance lawfulBEq_name : LawfulBEq (List Char) := inferInstance

/-- What is inside the elements with the given names, behind `skip` characters.  `inside` is what
has been read of the open one. -/
def innerTexts (names : List (List Char)) :
    ℕ → Option (List Char) → List Char → List (List Char)
  | _, _, [] => []
  | skip + 1, inside, _ :: text => innerTexts names skip inside text
  | 0, inside, c :: text =>
    if c = '<' then
      let tag := text.takeWhile (· != '>')
      if tag ∈ names then innerTexts names (tag.length + 1) (some []) text
      else if tag ∈ names.map ('/' :: ·) then
        inside.toList ++ innerTexts names (tag.length + 1) none text
      -- another tag is part of the text
      else innerTexts names (tag.length + 1) (inside.map (· ++ openTag tag)) text
    else innerTexts names 0 (inside.map (· ++ [c])) text

section

variable {names : List (List Char)} {inside : Option (List Char)} {text rest tag : List Char}

theorem innerTexts_skip (front : List Char) :
    innerTexts names front.length inside (front ++ rest) = innerTexts names 0 inside rest := by
  induction front with
  | nil => rfl
  | cons c front ih => exact ih

theorem innerTexts_char {c : Char} (h : c ≠ '<') :
    innerTexts names 0 inside (c :: rest) = innerTexts names 0 (inside.map (· ++ [c])) rest := by
  rw [innerTexts, if_neg h]

/-- A tag opens an element with one of the names, closes one, or is text of the open one. -/
theorem innerTexts_tag (h : '>' ∉ tag) : innerTexts names 0 inside (openTag tag ++ rest) =
    if tag ∈ names then innerTexts names 0 (some []) rest
    else if tag ∈ names.map ('/' :: ·) then inside.toList ++ innerTexts names 0 none rest
    else innerTexts names 0 (inside.map (· ++ openTag tag)) rest := by
  have hopen : openTag tag ++ rest = '<' :: ((tag ++ ['>']) ++ rest) := rfl
  have htag : ((tag ++ ['>']) ++ rest).takeWhile (· != '>') = tag := by
    have hall : ∀ c ∈ tag, (c != '>') = true := fun c hc =>
      bne_iff_ne.2 (ne_of_mem_of_not_mem hc h)
    rw [List.append_assoc, List.takeWhile_append_of_pos hall, List.singleton_append,
      List.takeWhile_cons_of_neg (by simp), List.append_nil]
  have hskip : ∀ inside', innerTexts names (tag.length + 1) inside' ((tag ++ ['>']) ++ rest) =
      innerTexts names 0 inside' rest := by
    intro inside'
    have hlength : tag.length + 1 = (tag ++ ['>']).length := by simp
    rw [hlength, innerTexts_skip]
  rw [hopen, innerTexts, if_pos rfl]
  simp only [htag, hskip]

/-- A part of a document that neither opens nor closes an element with one of the names. -/
def Inner (names : List (List Char)) (part : List Char) : Prop :=
  ∀ inside rest, innerTexts names 0 (some inside) (part ++ rest) =
    innerTexts names 0 (some (inside ++ part)) rest

/-- A part of a document that contains the elements with the names and the given insides. -/
def Closed (names : List (List Char)) (part : List Char) (insides : List (List Char)) : Prop :=
  ∀ rest, innerTexts names 0 none (part ++ rest) = insides ++ innerTexts names 0 none rest

variable {part part' : List Char} {insides insides' : List (List Char)}

theorem Inner.nil : Inner names [] := fun inside rest => by
  rw [List.nil_append, List.append_nil]

theorem Inner.append (h : Inner names part) (h' : Inner names part') :
    Inner names (part ++ part') := fun inside rest => by
  rw [List.append_assoc, h, h', List.append_assoc]

/-- A text without tags. -/
theorem Inner.of_notMem (h : '<' ∉ part) : Inner names part := by
  induction part with
  | nil => exact .nil
  | cons c part ih =>
    rw [List.mem_cons, not_or] at h
    intro inside rest
    rw [List.cons_append, innerTexts_char (Ne.symm h.1), Option.map_some, ih h.2,
      List.append_assoc, List.singleton_append]

/-- A tag with another name. -/
theorem Inner.of_tag (h : '>' ∉ tag) (hopen : tag ∉ names) (hclose : tag ∉ names.map ('/' :: ·)) :
    Inner names (openTag tag) := fun inside rest => by
  rw [innerTexts_tag h, if_neg hopen, if_neg hclose, Option.map_some]

theorem slash_notMem_close (h : tag ∉ names) : '/' :: tag ∉ names.map ('/' :: ·) := by
  rw [List.mem_map]
  rintro ⟨name, hname, heq⟩
  exact h ((List.cons.inj heq).2 ▸ hname)

theorem gt_notMem_close (h : '>' ∉ tag) : '>' ∉ '/' :: tag := by
  rw [List.mem_cons, not_or]
  exact ⟨by decide, h⟩

/-- An element with another name. -/
theorem Inner.wrap (hpart : Inner names part) (h : '>' ∉ tag) (hopen : tag ∉ names)
    (hopen' : '/' :: tag ∉ names) (hclose : tag ∉ names.map ('/' :: ·)) :
    Inner names (Html.wrap tag part) :=
  (Inner.of_tag h hopen hclose).append
    (hpart.append (.of_tag (gt_notMem_close h) hopen' (slash_notMem_close hopen)))

theorem Closed.nil : Closed names [] [] := fun _ => rfl

theorem Closed.append (h : Closed names part insides) (h' : Closed names part' insides') :
    Closed names (part ++ part') (insides ++ insides') := fun rest => by
  rw [List.append_assoc, h, h', List.append_assoc]

theorem Closed.char {c : Char} (h : c ≠ '<') : Closed names [c] [] := fun rest => by
  rw [List.singleton_append, innerTexts_char h]
  rfl

/-- A tag with another name. -/
theorem Closed.of_tag (h : '>' ∉ tag) (hopen : tag ∉ names) (hclose : tag ∉ names.map ('/' :: ·)) :
    Closed names (openTag tag) [] := fun rest => by
  rw [innerTexts_tag h, if_neg hopen, if_neg hclose]
  rfl

/-- An element with one of the names. -/
theorem Closed.wrap (hinner : Inner names part) (h : '>' ∉ tag) (htag : tag ∈ names)
    (hclose : '/' :: tag ∉ names) : Closed names (wrap tag part) [part] := fun rest => by
  rw [Html.wrap, List.append_assoc, innerTexts_tag h, if_pos htag, List.append_assoc, hinner,
    closeTag, innerTexts_tag (gt_notMem_close h), if_neg hclose, if_pos (List.mem_map_of_mem htag)]
  rfl

/-- An element with another name. -/
theorem Closed.wrap_of_notMem (hpart : Closed names part insides) (h : '>' ∉ tag)
    (hopen : tag ∉ names) (hopen' : '/' :: tag ∉ names) (hclose : tag ∉ names.map ('/' :: ·)) :
    Closed names (Html.wrap tag part) insides := by
  have hwrap := (Closed.of_tag h hopen hclose).append
    (hpart.append (.of_tag (gt_notMem_close h) hopen' (slash_notMem_close hopen)))
  rwa [List.nil_append, List.append_nil] at hwrap

theorem Closed.flatMap {β : Type*} {parts : List β} {html : β → List Char}
    {insides : β → List (List Char)} (h : ∀ part ∈ parts, Closed names (html part) (insides part)) :
    Closed names (parts.flatMap html) (parts.flatMap insides) := by
  induction parts with
  | nil => exact .nil
  | cons part parts ih =>
    obtain ⟨hpart, hparts⟩ := List.forall_mem_cons.1 h
    rw [List.flatMap_cons, List.flatMap_cons]
    exact hpart.append (ih hparts)

theorem Closed.innerTexts_eq (h : Closed names part insides) :
    innerTexts names 0 none part = insides := by
  have hrest := h []
  rwa [List.append_nil, innerTexts, List.append_nil] at hrest

end

end Html

end TrackFlow
