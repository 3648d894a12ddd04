import TrackFlow.Identity.Redirects
import TrackFlow.Web.SearchParams

/-!
# The way back from the login page

A page that needs a session sends its visitor to `loginPathFor` of where they are, and the login
page reads the way back from its query.  The query parser undoes what `loginPathFor` encodes; but
`safeNextPath` decodes once more, on either side, and a location with an escape is decoded once too
often.

* `serialise` : a location, as the browser writes its path and its query.
* `loginPathFor` : the way to the login page.
* `wayBack` : where the login page sends the visitor.
* `wayBack_eq_iff` : **which locations the visitor comes back to.**
* `wayBack_loses_escape` : a value with an ampersand is cut off.
-/

namespace TrackFlow

namespace Identity

open Web

/-- `pathname` and `search` of a URL, as the browser serialises them. -/
def serialise (path : List (List Char)) (query : List Char) : List Char :=
  serializePath (path.map (percentEncode pathSet)) ++
    if query = [] then [] else '?' :: percentEncode querySet query

/-- The name of the parameter. -/
def nextName : List Char := "next".toList

/-- `loginPathFor`. -/
def loginPathFor (nextPath : Option (List Char)) : List Char :=
  let safeNext := safeNextPath nextPath []
  if safeNext ≠ [] then "/login".toList ++ '?' :: (nextName ++ '=' :: encodeURIComponent safeNext)
  else "/login".toList

/-- Where the login page of a location sends its visitor. -/
def wayBack (location : List Char) : List Char :=
  safeNextPath (getParam nextName (searchParams (loginPathFor (some location))))

section

variable {location : List Char}

/-- A text that the checks let through is decoded. -/
theorem safeNextPath_of_not_blocked (fallback : List Char) (hne : location ≠ [])
    (happ : IsAppPath (decodeNext location)) (hblocked : ¬IsBlocked (decodeNext location)) :
    safeNextPath (some location) fallback = decodeNext location := by
  obtain ⟨c, rest, rfl⟩ := List.exists_cons_of_ne_nil hne
  unfold safeNextPath
  simp only [happ, hblocked, not_true_eq_false, if_false]

/-- The path is the decoded one, or the other one. -/
theorem safeNextPath_eq_or (text fallback : List Char) :
    safeNextPath (some text) fallback = decodeNext text ∨
      safeNextPath (some text) fallback = fallback := by
  cases text with
  | nil => exact .inr rfl
  | cons c rest =>
    unfold safeNextPath
    simp only
    split_ifs
    · exact .inr rfl
    · exact .inl rfl
    · exact .inr rfl

/-- Decoding leaves a text as it is exactly if there is nothing to decode, or it cannot be. -/
theorem decodeNext_eq_self_iff (text : List Char) :
    decodeNext text = text ↔ '%' ∉ text ∨ decodeURIComponent text = none := by
  cases hdecode : decodeURIComponent text with
  | none => exact iff_of_true (by rw [decodeNext, hdecode]; rfl) (.inr rfl)
  | some decoded =>
    rw [decodeNext, hdecode, Option.getD_some, or_iff_left (Option.some_ne_none _)]
    constructor
    · intro hself hmem
      have hlt := (length_decodeURIComponent hdecode).2 hmem
      rw [hself] at hlt
      exact absurd hlt (Nat.lt_irrefl _)
    · intro hmem
      rw [decodeURIComponent_eq_self hmem] at hdecode
      exact (Option.some.inj hdecode).symm

/-- What decoding changes, it shortens. -/
theorem decodeNext_eq_self_or (text : List Char) :
    decodeNext text = text ∨ (decodeNext text).length < text.length := by
  rw [decodeNext_eq_self_iff, or_assoc, or_iff_not_imp_left, not_not]
  intro hmem
  cases hdecode : decodeURIComponent text with
  | none => exact .inl rfl
  | some decoded =>
    rw [decodeNext, hdecode]
    exact .inr ((length_decodeURIComponent hdecode).2 hmem)

/-- The login page reads what `loginPathFor` wrote. -/
theorem getParam_loginPathFor (nextPath : Option (List Char)) :
    getParam nextName (searchParams (loginPathFor nextPath)) =
      if safeNextPath nextPath [] ≠ [] then some (safeNextPath nextPath []) else none := by
  unfold loginPathFor
  simp only
  split_ifs with hne
  · exact get_searchParams (List.all_iff_forall_prop.1 (by decide))
      (List.all_iff_forall_prop.1 (by decide)) _
  · decide +kernel

/-- **Which locations the visitor comes back to**: those without escapes, and those whose escapes
are malformed. -/
theorem wayBack_eq_iff (happ : IsAppPath location) (hblocked : ¬IsBlocked location) :
    wayBack location = location ↔ '%' ∉ location ∨ decodeURIComponent location = none := by
  have hne : location ≠ [] := by
    rintro rfl
    exact absurd happ.1 (by decide)
  rw [← decodeNext_eq_self_iff, wayBack, getParam_loginPathFor]
  constructor
  · intro hback
    have hroot : ['/'] = location → decodeNext location = location := by
      rintro rfl
      decide
    split_ifs at hback with hnext
    · have hdecoded := (safeNextPath_eq_or location []).resolve_right hnext
      rw [hdecoded] at hback
      rcases safeNextPath_eq_or (decodeNext location) ['/'] with htwice | hfallback
      · -- the second decoding cannot lengthen what the first one has shortened
        rw [htwice] at hback
        have htwice := decodeNext_eq_self_or (decodeNext location)
        have honce := decodeNext_eq_self_or location
        rw [hback] at htwice
        refine honce.resolve_right fun hlt => ?_
        rcases htwice with he | hlt'
        · rw [← he] at hlt
          exact absurd hlt (Nat.lt_irrefl _)
        · exact absurd hlt (Nat.lt_asymm hlt')
      · rw [hfallback] at hback
        exact hroot hback
    · exact hroot hback
  · intro hself
    have hsafe (fallback : List Char) : safeNextPath (some location) fallback = location := by
      rw [safeNextPath_of_not_blocked fallback hne (hself.symm ▸ happ) (hself.symm ▸ hblocked),
        hself]
    rw [hsafe, if_pos hne, hsafe]

end

/-- A location without escapes. -/
theorem wayBack_plain :
    let location := "/talent?stage=open".toList
    (wayBack location = location ↔ '%' ∉ location ∨ decodeURIComponent location = none) ∧
      wayBack location = location :=
  ⟨wayBack_eq_iff (by decide +kernel) (by decide +kernel), by decide +kernel⟩

/-- The escape of a value is decoded once too often: its ampersand then ends it. -/
theorem wayBack_loses_escape :
    let location := serialise ["suppliers".toList] "category=R%26D".toList
    wayBack location = "/suppliers?category=R&D".toList ∧
      getParam "category".toList (searchParams location) = some "R&D".toList ∧
      getParam "category".toList (searchParams (wayBack location)) = some ['R'] ∧
      ¬∀ path query, IsAppPath (serialise path query) → ¬IsBlocked (serialise path query) →
        wayBack (serialise path query) = serialise path query := by
  refine ⟨by decide +kernel, by decide +kernel, by decide +kernel, fun h => ?_⟩
  have hself := h ["suppliers".toList] "category=R%26D".toList (by decide +kernel)
    (by decide +kernel)
  exact absurd hself (by decide +kernel)

end Identity

end TrackFlow
