import TrackFlow.Web.Url

/-!
# Where the login page sends its visitor

`safeNextPath` looks at the first characters of the decoded `next` parameter; the browser resolves
what it lets through against the origin of the application.  The two read a path differently.

* `safeNextPath` : the path that the visitor is sent to.
* `SafeDestination` : it is a path of the application that is not blocked.
* `safeDestination_iff` : **which values are sent to a safe destination.**
* `harmless_of_plain` : plain paths are.
-/

namespace TrackFlow

namespace Identity

open Web

variable {η : Type*}

/-- The first segments of what no one is sent to. -/
def blockedNames : List (List Char) :=
  ["api".toList, "forgot-password".toList, "login".toList, "reset-password".toList]

/-- `BLOCKED_NEXT_PREFIXES`. -/
def blockedNextPrefixes : List (List Char) := blockedNames.map ('/' :: ·)

/-- The value with its escapes decoded, or as it is where they are malformed. -/
def decodeNext (value : List Char) : List Char := (decodeURIComponent value).getD value

/-- The path is absolute, and not relative to the scheme. -/
def IsAppPath (decoded : List Char) : Prop := ['/'] <+: decoded ∧ ¬['/', '/'] <+: decoded

/-- The path is blocked, or below a blocked one. -/
def IsBlocked (decoded : List Char) : Prop :=
  ∃ entry ∈ blockedNextPrefixes, decoded = entry ∨ entry ++ ['/'] <+: decoded ∨
    entry ++ ['?'] <+: decoded

instance (decoded : List Char) : Decidable (IsAppPath decoded) :=
  inferInstanceAs (Decidable (_ ∧ _))

instance (decoded : List Char) : Decidable (IsBlocked decoded) :=
  inferInstanceAs (Decidable (∃ entry ∈ blockedNextPrefixes, _))

/-- `safeNextPath`. -/
def safeNextPath (value : Option (List Char)) (fallback : List Char := ['/']) : List Char :=
  match value with
  | none | some [] => fallback
  | some value =>
    let decoded := decodeNext value
    if ¬IsAppPath decoded then fallback
    else if IsBlocked decoded then fallback
    else decoded

/-- A text that the browser, at the application, resolves to a path of the application that is
neither blocked nor below a blocked one. -/
def SafeDestination (hostParser : List Char → Option η) (app : Web.Authority η)
    (destination : List Char) : Prop :=
  ∃ url, resolve hostParser app destination = some url ∧ url.authority = app ∧
    ∀ entry ∈ blockedNextPrefixes, url.pathname ≠ entry ∧ ¬entry ++ ['/'] <+: url.pathname

/-- What the URL parser reads in a path agrees with what `safeNextPath` looks for: behind the first
slash comes no second slash or backslash that begins an authority, unless it is the application's
own, and the first segment, up to a slash or a backslash, the query or the fragment, is not blocked
when dot segments are resolved. -/
structure Harmless (hostParser : List Char → Option η) (app : Web.Authority η)
    (decoded : List Char) : Prop where
  authority : ∀ text ∈ (reference decoded).authority, parseAuthority hostParser text = some app
  path : ∀ name ∈ (resolveDots [] (segments (reference decoded).path)).head?, name ∉ blockedNames

section

variable {hostParser : List Char → Option η} {app : Web.Authority η}

theorem plain_of_mem_blockedNames {name : List Char} (h : name ∈ blockedNames) :
    '/' ∉ name ∧ '%' ∉ name ∧ ∀ c ∈ name, pathSet c = false := by
  have hall : blockedNames.all (fun name =>
      !name.elem '/' && !name.elem '%' && name.all fun c => !pathSet c) = true := by decide
  have hname := List.all_eq_true.1 hall name h
  simpa [and_assoc] using hname

/-- A resolved path is under a blocked one exactly if its first segment is blocked. -/
theorem under_blocked_iff (text : List Char) {name : List Char} (hname : name ∈ blockedNames) :
    serializePath (pathState text [] []) = '/' :: name ∨
      '/' :: name ++ ['/'] <+: serializePath (pathState text [] []) ↔
      name ∈ (resolveDots [] (segments text)).head? := by
  have hne : resolveDots [] (segments text) ≠ [] := resolveDots_ne_nil segments_ne_nil
  obtain ⟨first, rest, hresolved⟩ := List.exists_cons_of_ne_nil hne
  obtain ⟨hslash, hpercent, hset⟩ := plain_of_mem_blockedNames hname
  have hfirst : '/' ∉ first := by
    have hmem : first ∈ resolveDots [] (segments text) := hresolved ▸ List.mem_cons_self
    intro hc
    rcases mem_resolveDots hmem with h | h | h
    · cases h
    · exact absurd (isSlash_of_mem_segments h hc) (by decide)
    · rw [h] at hc
      cases hc
  rw [pathState_eq, hresolved, List.map_cons,
    under_iff (not_mem_percentEncode (by decide) hfirst) hslash,
    percentEncode_eq_iff hset hpercent]
  exact ⟨congrArg some, Option.some.inj⟩

theorem safeDestination_iff_harmless (destination : List Char) :
    SafeDestination hostParser app destination ↔ Harmless hostParser app destination := by
  constructor
  · rintro ⟨url, hurl, happ, hsafe⟩
    obtain ⟨hauthority, hpath⟩ := resolve_eq_some_iff.1 hurl
    refine ⟨fun text htext => ?_, fun name hmem hname => ?_⟩
    · rw [Option.mem_def.1 htext, happ] at hauthority
      exact hauthority
    · obtain ⟨hne, hbelow⟩ := hsafe _ (List.mem_map_of_mem hname)
      rw [Url.pathname, hpath] at hne hbelow
      exact ((under_blocked_iff _ hname).2 hmem).elim hne hbelow
  · intro h
    refine ⟨⟨app, pathState (reference destination).path [] []⟩,
      resolve_eq_some_iff.2 ⟨?_, rfl⟩, rfl, ?_⟩
    · cases hauthority : (reference destination).authority with
      | none => rfl
      | some text => exact h.authority text hauthority
    · refine List.forall_mem_map.2 fun name hname => not_or.1 fun hunder => ?_
      exact h.path name ((under_blocked_iff _ hname).1 hunder) hname

theorem harmless_root : Harmless hostParser app ['/'] := by
  refine ⟨fun text htext => ?_, fun name hname => ?_⟩
  · cases htext
  · rw [← Option.some.inj hname]
    decide

/-- **Which values of the parameter are sent to a safe destination**: those that `safeNextPath`
turns down, and of the others the harmless ones. -/
theorem safeDestination_iff (hostParser : List Char → Option η) (app : Web.Authority η)
    (value : Option (List Char)) :
    SafeDestination hostParser app (safeNextPath value) ↔
      ∀ text ∈ value, IsAppPath (decodeNext text) → ¬IsBlocked (decodeNext text) →
        Harmless hostParser app (decodeNext text) := by
  rw [safeDestination_iff_harmless]
  match value with
  | none => exact iff_of_true harmless_root fun text htext => nomatch htext
  | some [] =>
    refine iff_of_true harmless_root fun text htext happ => ?_
    rw [← Option.some.inj htext] at happ
    exact absurd happ (by decide)
  | some (c :: rest) =>
    have hforall {p : List Char → Prop} : (∀ text ∈ some (c :: rest), p text) ↔ p (c :: rest) :=
      ⟨fun h => h _ rfl, fun h text htext => Option.some.inj htext ▸ h⟩
    rw [hforall]
    unfold safeNextPath
    simp only
    split_ifs with happ hblocked
    · exact iff_of_true harmless_root fun _ h => absurd hblocked h
    · exact ⟨fun h _ _ => h, fun h => h happ hblocked⟩
    · exact iff_of_true harmless_root fun h => absurd h happ

/-- A backslash is a second slash to the browser, and a dot segment goes away. -/
theorem next_leaves_app :
    let app : Web.Authority (List Char) := ⟨"backoffice.example".toList, none⟩
    resolve some app (safeNextPath (some "/\\evil.example".toList)) =
        some ⟨⟨"evil.example".toList, none⟩, [[]]⟩ ∧
      resolve some app (safeNextPath (some "/./login".toList)) =
        some ⟨app, ["login".toList]⟩ ∧
      ¬∀ value, SafeDestination some app (safeNextPath (some value)) := by
  refine ⟨by decide, by decide, fun h => ?_⟩
  obtain ⟨url, hurl, happ, -⟩ := h "/\\evil.example".toList
  have hevil : resolve some (⟨"backoffice.example".toList, none⟩ : Web.Authority (List Char))
      (safeNextPath (some "/\\evil.example".toList)) =
      some ⟨⟨"evil.example".toList, none⟩, [[]]⟩ := by decide
  rw [← Option.some.inj (hevil.symm.trans hurl)] at happ
  exact absurd happ (by decide)

/-! ## Plain paths -/

/-- A path without controls, spaces, backslashes, fragments and dot segments. -/
structure Plain (decoded : List Char) : Prop where
  char : ∀ c ∈ decoded, isControlOrSpace c = false ∧ c ≠ '\\' ∧ c ≠ '#'
  segment : ∀ segment ∈ segments decoded.tail, dots segment ≠ some 1 ∧ dots segment ≠ some 2

theorem Plain.clean_eq {decoded : List Char} (h : Plain decoded) : clean decoded = decoded :=
  clean_eq_self fun c hc => (h.char c hc).1

/-- **A plain path that the checks let through is harmless.** -/
theorem harmless_of_plain {decoded : List Char} (h : Plain decoded) (happ : IsAppPath decoded)
    (hblocked : ¬IsBlocked decoded) : Harmless hostParser app decoded := by
  obtain ⟨⟨text, rfl⟩, hsecond⟩ := happ
  rw [List.singleton_append] at h hsecond hblocked ⊢
  -- a backslash aside, only a slash begins an authority
  have hhead : text.head?.any isSlash = false := by
    cases text with
    | nil => rfl
    | cons c rest =>
      have hslash : c ≠ '/' := by
        rintro rfl
        exact hsecond ⟨rest, rfl⟩
      have hbackslash : c ≠ '\\' := (h.char c (by simp)).2.1
      simp [isSlash, hslash, hbackslash]
  have hreference : reference ('/' :: text) = ⟨none, text⟩ := by
    rw [reference, h.clean_eq, List.tail_cons, relativeSlash, hhead]
    rfl
  refine ⟨fun other hother => ?_, fun name hmem hname => hblocked ?_⟩
  · rw [hreference] at hother
    cases hother
  · have hresolved : resolveDots [] (segments text) = segments text :=
      (resolveDots_eq h.segment).trans (List.nil_append _)
    rw [hreference, hresolved, head?_segments, Option.mem_some_iff] at hmem
    refine ⟨'/' :: name, List.mem_map_of_mem hname, ?_⟩
    -- what follows the first segment is a slash or a query
    have htext := @List.takeWhile_append_dropWhile _ (fun c => !endsAuthority c) text
    rw [hmem] at htext
    cases hrest : text.dropWhile fun c => !endsAuthority c with
    | nil =>
      rw [hrest, List.append_nil] at htext
      exact .inl (congrArg _ htext.symm)
    | cons c rest =>
      rw [hrest] at htext
      have hends : endsAuthority c = true := by
        have hhead := List.head?_dropWhile_not (fun c => !endsAuthority c) text
        rw [hrest] at hhead
        simpa using hhead
      have hchar := (h.char c (by simp [← htext])).2
      have hc : c = '/' ∨ c = '?' := by
        simpa [endsAuthority, isSlash, isQueryOrFragment, hchar.1, hchar.2] using hends
      rcases hc with rfl | rfl
      · exact .inr (.inl ⟨rest, by simp [← htext]⟩)
      · exact .inr (.inr ⟨rest, by simp [← htext]⟩)

end

end Identity

end TrackFlow
