import UriTemplates.Proofs.Reference.Segments
import UriTemplates.Proofs.Reference.Written
import UriTemplates.Session

/-!
# Relative references

A reference that is relative to an address of the web and the address that it stands for differ in
nothing but the scheme, the authority and the path (`Reference.moved`). Both are read back from
their text, and the paths are found from each other, so making an address relative undoes resolving
(`Reference.relativeTo_resolve`). The other way around, `Reference.resolve_relativeTo` says when
resolving gives an address back; a relative path that is taken to have a scheme, or that is empty,
stands for something else (`Reference.resolve_relativeTo_lost`).
-/

namespace UriTemplates.Reference

attribute [ext] Reference

/-- A reference with another scheme, authority and path. -/
def moved (reference : Reference) (scheme authority path : Text) : Reference :=
  { reference with scheme, authority, path }

/-- An address as a reference relative to the directory of a base. -/
def relativeWithin (base reference : Reference) : Reference :=
  reference.moved [] [] (relativePath base.path reference.path)

/-- A base with the query and the fragment of a reference, but its own query if there is none. -/
def withQuery (base reference : Reference) : Reference :=
  { base with
    query := if reference.query.isEmpty then base.query else reference.query
    fragment := reference.fragment }

section Moving

variable {reference : Reference} {path : Text}

/-- A reference stays separated with another path that has the same last segment and does not hold
the marks of a query and a fragment. -/
theorem IsSeparated.moved (separated : reference.IsSeparated) (scheme authority : Text)
    (apart : '?' ∉ path ∧ '#' ∉ path)
    (last : (Text.fields '/' path).getLast? = (Text.fields '/' reference.path).getLast?) :
    (reference.moved scheme authority path).IsSeparated where
  path := apart
  segment := by
    intro segment member
    exact separated.segment segment (last ▸ member)
  parameters := separated.parameters
  query := separated.query

/-- The path of a reference that was read is tidy. -/
theorem IsRead.tidyPath (read : reference.IsRead) : IsTidy reference.path := by
  have part : reference.path.Sublist reference.afterAuthority :=
    ((List.sublist_append_left _ _).trans (List.sublist_append_left _ _)).trans
      (List.sublist_append_left _ _)
  exact read.tidy.sublist (part.trans (List.sublist_append_right _ _))

/-- What follows the authority stays tidy with another tidy path. -/
theorem isTidy_moved (tidy : IsTidy reference.afterAuthority) (tidyPath : IsTidy path)
    (scheme authority : Text) : IsTidy (reference.moved scheme authority path).afterAuthority := by
  simp only [afterAuthority, IsTidy, List.forall_mem_append] at tidy ⊢
  exact ⟨⟨⟨tidyPath, tidy.1.1.2⟩, tidy.1.2⟩, tidy.2⟩

end Moving

section Steps

variable {base text uri : Text} {address reference target : Reference}

/-- A text with a scheme is not empty. -/
theorem ne_nil_of_parse (read : parse text = .ok reference) (some_ : reference.scheme ≠ []) :
    text ≠ [] := by
  rintro rfl
  obtain rfl := Except.ok.inj read
  exact some_ rfl

/-- A reference is absolute if it is read with a scheme. -/
theorem isAbsolute_eq_ok_iff {absolute : Bool} : isAbsolute text = .ok absolute ↔
    ∃ reference, parse text = .ok reference ∧ absolute = !reference.scheme.isEmpty := by
  rw [isAbsolute, bind_eq_ok_iff]
  simp only [return_eq_ok_iff, eq_comm (a := absolute)]

/-- An address is made relative by its path. -/
theorem relativeTo_eq (readBase : parse base = .ok address) (web : address.isWeb = true)
    (read : parse uri = .ok target) (sameScheme : target.scheme = address.scheme)
    (sameAuthority : target.authority = address.authority) :
    relativeTo base uri = .ok (address.relativeWithin target).afterAuthority := by
  refine bind_eq_ok_iff.mpr ⟨address, readBase, bind_eq_ok_iff.mpr ⟨target, read, ?_⟩⟩
  rw [sameScheme, sameAuthority, if_neg (by simp [scheme_ne_nil web])]
  rfl

/-- A base of the web is absolute. -/
theorem resolve_eq_join (readBase : parse base = .ok address) (web : address.isWeb = true) :
    resolve base text = join base text := by
  have absolute : isAbsolute base = .ok true :=
    isAbsolute_eq_ok_iff.mpr ⟨address, readBase, by simp [scheme_ne_nil web]⟩
  rw [resolve, absolute]
  rfl

/-- The empty reference resolves to the base. -/
theorem resolve_nil (readBase : parse base = .ok address) (web : address.isWeb = true) :
    resolve base [] = .ok base := by
  have some_ := ne_nil_of_parse readBase (scheme_ne_nil web)
  rw [resolve_eq_join readBase web, join, if_neg (by simpa using some_)]
  rfl

/-- What is read within the scheme of the base is what is resolved. -/
theorem resolve_eq_resolved (readBase : parse base = .ok address) (web : address.isWeb = true)
    (some_ : text ≠ []) (read : parseWithin address.scheme text = .ok reference) :
    resolve base text = .ok (if reference.scheme ≠ address.scheme then text
      else if reference.authority.isEmpty then
        (resolvedWithin address reference address.authority).text
      else reference.text) := by
  have someBase := ne_nil_of_parse readBase (scheme_ne_nil web)
  rw [resolve_eq_join readBase web, join, if_neg (by simpa using someBase),
    if_neg (by simpa using some_)]
  refine bind_eq_ok_iff.mpr ⟨address, readBase, bind_eq_ok_iff.mpr ⟨reference, read, ?_⟩⟩
  have hierarchical : hierarchicalSchemes.contains address.scheme = true ∧
      authoritySchemes.contains address.scheme = true := by
    obtain ⟨same | same, -⟩ := isWeb_iff.mp web <;> rw [same] <;> decide
  by_cases same : reference.scheme = address.scheme
  · simp only [same, hierarchical, ne_eq, not_true_eq_false, decide_false, Bool.not_true,
      Bool.or_self, Bool.false_eq_true, ↓reduceIte]
    split <;> rfl
  · simp only [same, ne_eq, not_false_eq_true, decide_true, Bool.true_or, ↓reduceIte]
    rfl

/-- A reference with neither scheme nor authority is resolved within the base. -/
theorem resolve_eq (readBase : parse base = .ok address) (web : address.isWeb = true)
    (some_ : text ≠ []) (read : parse text = .ok reference) (noScheme : reference.scheme = [])
    (noAuthority : reference.authority = []) :
    resolve base text = .ok (resolvedWithin address { reference with scheme := address.scheme }
      address.authority).text := by
  have within := parseWithin_of_parse (parameterSchemes_web web) read noScheme
  rw [resolve_eq_resolved readBase web some_ within]
  simp [noAuthority]

/-- A reference with a scheme of its own stays as it is written. -/
theorem resolve_of_scheme (readBase : parse base = .ok address) (web : address.isWeb = true)
    (read : parse text = .ok reference) (scheme : reference.scheme ≠ [])
    (other : reference.scheme ≠ address.scheme) : resolve base text = .ok text := by
  rw [resolve_eq_resolved readBase web (ne_nil_of_parse read scheme)
    (parseWithin_of_scheme read scheme), if_pos other]

end Steps

section Resolving

variable {address reference : Reference}

/-- A relative reference with a path or parameters takes scheme and authority from the base, and is
merged with the path of the base. -/
theorem resolvedWithin_eq (some_ : reference.path ≠ [] ∨ reference.parameters ≠ []) :
    resolvedWithin address { reference with scheme := address.scheme } address.authority =
      reference.moved address.scheme address.authority
        (resolvedPath address.path reference.path) := by
  rw [resolvedWithin, if_neg]
  · rfl
  · simpa [← not_and_or] using some_

theorem isWeb_moved (web : address.isWeb = true) (path : Text) :
    (reference.moved address.scheme address.authority path).isWeb = true :=
  web

/-- What a relative reference is resolved to is read back from its text. -/
theorem isRead_resolved (readAddress : address.IsRead) (read : reference.IsRead)
    (plainBase : address.path = [] ∨ isPlainPath address.path = true)
    (plain : arePlain (Text.fields '/' reference.path) = true) :
    (reference.moved address.scheme address.authority
      (resolvedPath address.path reference.path)).IsRead where
  tidy := by
    have tidyPath : IsTidy (resolvedPath address.path reference.path) := by
      intro c member
      by_cases slash : c = '/'
      · subst slash
        decide
      · rcases mem_resolvedPath plainBase plain slash member with ofBase | ofPath
        · exact readAddress.tidyPath c ofBase
        · exact read.tidyPath c ofPath
    have authority := (List.forall_mem_append.mp readAddress.tidy).1
    exact List.forall_mem_append.mpr
      ⟨authority, isTidy_moved (List.forall_mem_append.mp read.tidy).2 tidyPath _ _⟩
  separated := by
    refine read.separated.moved _ _ ⟨fun member => ?_, fun member => ?_⟩
      (getLast?_fields_resolvedPath plainBase plain)
    · exact (mem_resolvedPath plainBase plain (by decide) member).elim
        readAddress.separated.path.1 read.separated.path.1
    · exact (mem_resolvedPath plainBase plain (by decide) member).elim
        readAddress.separated.path.2 read.separated.path.2
  inside := readAddress.inside
  checked := readAddress.checked

/-- **Making relative undoes resolving.** A relative reference with plain segments is found again
from what it is resolved to, whatever template it was expanded from. So matching this against the
base is matching the reference, with all hints and in every session. -/
theorem relativeTo_resolve {base text : Text} (readBase : parse base = .ok address)
    (web : address.isWeb = true)
    (plainBase : address.path = [] ∨ isPlainPath address.path = true)
    (read : parse text = .ok reference) (noScheme : reference.scheme = [])
    (noAuthority : reference.authority = []) (some_ : reference.path ≠ [])
    (plain : arePlain (Text.fields '/' reference.path) = true) (same : reference.text = text) :
    ∃ resolved, resolve base text = .ok resolved ∧ relativeTo base resolved = .ok text ∧
      (∀ (template : Template) (pairs : List (Datum × Datum)),
        template.expandData pairs = .ok text →
          template.expandAgainst base pairs = .ok resolved) ∧
      (∀ (template : Template) (hints : Hints),
        template.matchAgainst? hints base resolved = template.match? hints text) ∧
      ∀ (session : Session) (required lists maps : Datum),
        session.call (.matchAgainst base resolved required lists maps) =
          session.call (.match_ text required lists maps) := by
  rw [text_of_relative noScheme noAuthority] at same
  have someText : text ≠ [] := by
    rw [← same]
    exact fun empty => some_ (afterAuthority_eq_nil_iff.mp empty).1
  have readAddress := isRead_of_parseWithin (parameterSchemes_web web) readBase
  have readReference := isRead_of_parseWithin (by rw [noScheme]; decide) read
  -- Both references are read back, so the rest is what happens to the path.
  have resolved := resolve_eq readBase web someText read noScheme noAuthority
  rw [resolvedWithin_eq (.inl some_)] at resolved
  generalize whole : reference.moved address.scheme address.authority
    (resolvedPath address.path reference.path) = target at resolved
  have readBack : parse target.text = .ok target := by
    rw [← whole]
    exact parse_text (isWeb_moved web _) (head?_resolvedPath plainBase plain)
      (isRead_resolved readAddress readReference plainBase plain)
  have undone : relativeTo base target.text = .ok text := by
    rw [relativeTo_eq readBase web readBack (by rw [← whole]; rfl) (by rw [← whole]; rfl), ← same,
      ← whole, afterAuthority, relativeWithin, moved, moved,
      relativePath_resolvedPath plainBase plain]
    rfl
  refine ⟨_, resolved, undone, ?_, ?_, ?_⟩
  · intro template pairs expanded
    rw [Template.expandAgainst, expanded]
    exact resolved
  · intro template hints
    rw [Template.matchAgainst?, undone]
    rfl
  · intro session required lists maps
    simp only [Session.call, undone]

/-- What a path with a query is expanded to, resolved and made relative again. -/
theorem relativeTo_resolve_query : ∃ template resolved,
    Template.parse "users/\x7bid\x7d\x7b?x\x7d".toList = .ok template ∧
      template.expandAgainst "http://h/api/v1".toList
          [(.text "id".toList, .text "a:b".toList), (.text "x".toList, .whole 1)] =
        .ok resolved ∧
      ∀ hints, template.matchAgainst? hints "http://h/api/v1".toList resolved =
        template.match? hints "users/a%3Ab?x=1".toList := by
  let path : Expression := ⟨.simple, [⟨"id".toList, .plain, rfl, rfl⟩], by simp⟩
  let query : Expression := ⟨.query, [⟨"x".toList, .plain, rfl, rfl⟩], by simp⟩
  let template : Template :=
    ⟨[.literal ⟨"users/".toList, rfl⟩, .expression path, .expression query]⟩
  let address : Reference := ⟨"http".toList, "h".toList, "/api/v1".toList, [], [], []⟩
  let reference : Reference := ⟨[], [], "users/a%3Ab".toList, [], "x=1".toList, []⟩
  have parsed : Template.parse "users/\x7bid\x7d\x7b?x\x7d".toList = .ok template := by
    decide +kernel
  have expanded : template.expandData
      [(.text "id".toList, .text "a:b".toList), (.text "x".toList, .whole 1)] =
        .ok "users/a%3Ab?x=1".toList := by decide +kernel
  have readBase : parse "http://h/api/v1".toList = .ok address := by decide +kernel
  have read : parse "users/a%3Ab?x=1".toList = .ok reference := by decide +kernel
  obtain ⟨resolved, -, -, againstBase, matched, -⟩ := relativeTo_resolve readBase (by decide)
    (.inr (by decide +kernel)) read rfl rfl (by decide) (by decide +kernel) (by decide +kernel)
  exact ⟨template, resolved, parsed, againstBase template _ expanded, matched template⟩

end Resolving

section Relating

variable {address target : Reference} {base uri : Text}

/-- The path of a relative reference is relative to the path of the base. -/
theorem relativeWithin_path :
    (address.relativeWithin target).path = relativePath address.path target.path :=
  rfl

/-- A relative reference is tidy if its target was read. -/
theorem isTidy_relative (read : target.IsRead) (some_ : target.path ≠ []) :
    IsTidy (address.relativeWithin target).afterAuthority := by
  have tidyPath : IsTidy (relativePath address.path target.path) := by
    intro c member
    by_cases mark : c = '/' ∨ c = '.'
    · rcases mark with rfl | rfl <;> decide
    · rw [not_or] at mark
      exact read.tidyPath c (mem_relativePath some_ mark.1 mark.2 member)
  exact isTidy_moved (List.forall_mem_append.mp read.tidy).2 tidyPath [] []

/-- A relative reference is read back from its text, if this is not taken to have a scheme. -/
theorem parse_relative (read : target.IsRead) (plainBase : isPlainPath address.path = true)
    (plain : isPlainPath target.path = true)
    (start : ∀ c ∈ (address.relativeWithin target).afterAuthority.head?, ' ' < c)
    (bare : (splitScheme [] (address.relativeWithin target).afterAuthority).1 = []) :
    parse (address.relativeWithin target).afterAuthority = .ok (address.relativeWithin target) := by
  have some_ := ne_nil_of_isPlainPath plain
  have separated : (address.relativeWithin target).IsSeparated := by
    refine read.separated.moved _ _ ⟨fun member => ?_, fun member => ?_⟩
      (getLast?_fields_relativePath some_)
    · exact read.separated.path.1 (mem_relativePath some_ (by decide) (by decide) member)
    · exact read.separated.path.2 (mem_relativePath some_ (by decide) (by decide) member)
  exact parse_afterAuthority rfl rfl separated (isTidy_relative read some_)
    (head?_relativePath plainBase plain) start bare

/-- Resolving a relative reference gives the address back, unless the reference has no path and no
parameters. -/
theorem resolve_relative (readBase : parse base = .ok address) (web : address.isWeb = true)
    (sameScheme : target.scheme = address.scheme)
    (sameAuthority : target.authority = address.authority)
    (plainBase : isPlainPath address.path = true) (plain : isPlainPath target.path = true)
    (elsewhere : target.path ≠ directoryPath address.path ∨ target.parameters ≠ [])
    (readBack : parse (address.relativeWithin target).afterAuthority =
      .ok (address.relativeWithin target)) :
    resolve base (address.relativeWithin target).afterAuthority = .ok target.text := by
  have some_ : (address.relativeWithin target).path ≠ [] ∨
      (address.relativeWithin target).parameters ≠ [] := by
    refine elsewhere.imp (fun other empty => other ?_) id
    exact (relativePath_eq_nil_iff plainBase plain).mp empty
  have someText : (address.relativeWithin target).afterAuthority ≠ [] := by
    intro empty
    obtain ⟨path, parameters, -⟩ := afterAuthority_eq_nil_iff.mp empty
    exact some_.elim (· path) (· parameters)
  have back : (address.relativeWithin target).moved address.scheme address.authority
      (resolvedPath address.path (address.relativeWithin target).path) = target := by
    rw [relativeWithin_path, resolvedPath_relativePath plainBase plain, ← sameScheme,
      ← sameAuthority]
    rfl
  rw [resolve_eq readBase web someText readBack rfl rfl, resolvedWithin_eq some_, back]

/-- A reference without path and parameters stands for the base, but for its own query and
fragment. -/
theorem resolvedWithin_nil {reference : Reference} (path : reference.path = [])
    (parameters : reference.parameters = []) :
    resolvedWithin address { reference with scheme := address.scheme } address.authority =
      address.withQuery reference := by
  rw [resolvedWithin, if_pos (by simp [path, parameters])]
  rfl

/-- The base with the query and the fragment of a target is the target just if it has the same path,
no parameters, and no query that the target lacks. -/
theorem text_withQuery_eq_iff (web : address.isWeb = true) (separated : address.IsSeparated)
    (separatedTarget : target.IsSeparated) (sameScheme : target.scheme = address.scheme)
    (sameAuthority : target.authority = address.authority)
    (absolute : address.path.head? = some '/') (absoluteTarget : target.path.head? = some '/')
    (parameters : target.parameters = []) :
    (address.withQuery target).text = target.text ↔
      address.path = target.path ∧ address.parameters = [] ∧
        (target.query = [] → address.query = []) := by
  have separatedBase : (address.withQuery target).IsSeparated := {
    path := separated.path
    segment := separated.segment
    parameters := separated.parameters
    query := by
      unfold withQuery
      split
      · exact separated.query
      · exact separatedTarget.query }
  have same : (address.withQuery target).text = target.text ↔ target = address.withQuery target :=
    ⟨fun text => eq_of_text_eq web sameScheme sameAuthority absolute absoluteTarget separatedBase
      separatedTarget text.symm, fun whole => congrArg Reference.text whole.symm⟩
  have queries : target.query = (address.withQuery target).query ↔
      (target.query = [] → address.query = []) := by
    by_cases query : target.query = []
    · simp [withQuery, query, eq_comm (a := [])]
    · simp [withQuery, query]
  rw [same, Reference.ext_iff, queries]
  constructor
  · rintro ⟨-, -, path, noParameters, query, -⟩
    exact ⟨path.symm, noParameters.symm.trans parameters, query⟩
  · rintro ⟨path, noParameters, query⟩
    exact ⟨sameScheme, sameAuthority, path.symm, parameters.trans noParameters.symm, query, rfl⟩

/-- The directory of a base is given back where it is the base, but for the query and the
fragment. -/
theorem resolve_directory (readBase : parse base = .ok address) (web : address.isWeb = true)
    (readTarget : target.IsRead) (sameScheme : target.scheme = address.scheme)
    (sameAuthority : target.authority = address.authority)
    (plainBase : isPlainPath address.path = true) (plain : isPlainPath target.path = true)
    (directory : target.path = directoryPath address.path) (parameters : target.parameters = []) :
    resolve base (address.relativeWithin target).afterAuthority = .ok target.text ↔
      if (address.relativeWithin target).afterAuthority = [] then base = target.text
      else address.path = target.path ∧ address.parameters = [] ∧
        (target.query = [] → address.query = []) := by
  have path : (address.relativeWithin target).path = [] :=
    (relativePath_eq_nil_iff plainBase plain).mpr directory
  split
  · rename_i empty
    rw [empty, resolve_nil readBase web, Except.ok.injEq]
  · rename_i some_
    have marks : ∀ c ∈ (address.relativeWithin target).afterAuthority.head?,
        c ∈ [';', '?', '#'] := by
      intro c first
      rcases head?_afterAuthority first with ofPath | mark
      · rw [path] at ofPath
        cases ofPath
      · exact mark
    have start : ∀ c ∈ [';', '?', '#'], ' ' < c ∧ c.isAlpha = false := by
      intro c member
      simp only [List.mem_cons, List.not_mem_nil, or_false] at member
      rcases member with rfl | rfl | rfl <;> decide
    have bare := splitScheme_of_head (fun c first => (start c (marks c first)).2) []
    have readBack := parse_relative readTarget plainBase plain
      (fun c first => (start c (marks c first)).1) (by rw [bare])
    have readAddress := isRead_of_parseWithin (parameterSchemes_web web) readBase
    rw [resolve_eq readBase web some_ readBack rfl rfl, resolvedWithin_nil path parameters,
      Except.ok.injEq]
    exact text_withQuery_eq_iff web readAddress.separated readTarget.separated sameScheme
      sameAuthority (head?_of_isPlainPath plainBase) (head?_of_isPlainPath plain) parameters

/-- **When resolving undoes making relative.** An address outside of what its base stands for is
given back, if its relative reference starts neither with a space nor with a scheme. The directory
of the base is given back where it is the base itself, but for the query and the fragment. A
relative reference that starts with another scheme stays as it is, so the address is lost. -/
theorem resolve_relativeTo (readBase : parse base = .ok address) (web : address.isWeb = true)
    (read : parse uri = .ok target) (sameScheme : target.scheme = address.scheme)
    (sameAuthority : target.authority = address.authority)
    (plainBase : isPlainPath address.path = true) (plain : isPlainPath target.path = true)
    (same : target.text = uri) :
    ∃ relative, relativeTo base uri = .ok relative ∧
      (target.path ≠ directoryPath address.path ∨ target.parameters ≠ [] →
        (∀ c ∈ relative.head?, ' ' < c) → isAbsolute relative = .ok false →
          resolve base relative = .ok uri) ∧
      (target.path = directoryPath address.path → target.parameters = [] →
        (resolve base relative = .ok uri ↔
          if relative = [] then base = uri
          else address.path = target.path ∧ address.parameters = [] ∧
            (target.query = [] → address.query = []))) ∧
      ∀ reference, parse relative = .ok reference → reference.scheme ≠ [] →
        reference.scheme ≠ address.scheme →
          resolve base relative = .ok relative ∧ relative ≠ uri := by
  have parameters : parameterSchemes.contains target.scheme = true := by
    rw [sameScheme]
    exact parameterSchemes_web web
  have readTarget := isRead_of_parseWithin parameters read
  refine ⟨_, relativeTo_eq readBase web read sameScheme sameAuthority, ?_, ?_, ?_⟩
  · intro elsewhere start absolute
    obtain ⟨reference, readRelative, noScheme⟩ := isAbsolute_eq_ok_iff.mp absolute
    have tidy : IsTidy (address.relativeWithin target).afterAuthority :=
      isTidy_relative readTarget (ne_nil_of_isPlainPath plain)
    have bare := scheme_of_parseWithin readRelative
    rw [cleaned_eq_self tidy start] at bare
    have empty : reference.scheme = [] := by simpa using noScheme
    rw [← same]
    exact resolve_relative readBase web sameScheme sameAuthority plainBase plain elsewhere
      (parse_relative readTarget plainBase plain start (bare.symm.trans empty))
  · intro directory noParameters
    rw [← same]
    exact resolve_directory readBase web readTarget sameScheme sameAuthority plainBase plain
      directory noParameters
  · intro reference readRelative scheme other
    refine ⟨resolve_of_scheme readBase web readRelative scheme other, fun equal => other ?_⟩
    rw [equal, read] at readRelative
    rw [← Except.ok.inj readRelative, sameScheme]

/-- An address beside the base is given back. -/
theorem resolve_relativeTo_sibling : ∃ relative,
    relativeTo "http://h/api/v1/a".toList "http://h/api/v2/b;c/?q=1#f".toList = .ok relative ∧
      resolve "http://h/api/v1/a".toList relative = .ok "http://h/api/v2/b;c/?q=1#f".toList := by
  let address : Reference := ⟨"http".toList, "h".toList, "/api/v1/a".toList, [], [], []⟩
  let target : Reference :=
    ⟨"http".toList, "h".toList, "/api/v2/b;c/".toList, [], "q=1".toList, "f".toList⟩
  have readBase : parse "http://h/api/v1/a".toList = .ok address := by decide +kernel
  have read : parse "http://h/api/v2/b;c/?q=1#f".toList = .ok target := by decide +kernel
  have web : address.isWeb = true := by decide
  obtain ⟨relative, made, elsewhere, -⟩ := resolve_relativeTo readBase web read rfl rfl
    (by decide +kernel) (by decide +kernel) (by decide +kernel)
  have same : "../v2/b;c/?q=1#f".toList = (address.relativeWithin target).afterAuthority := by
    decide +kernel
  have found := relativeTo_eq readBase web read rfl rfl
  rw [← same] at found
  obtain rfl := Except.ok.inj (found.symm.trans made)
  refine ⟨_, made, elsewhere (.inl (by decide +kernel)) ?_ (by decide +kernel)⟩
  rintro _ ⟨⟩
  decide

/-- **Resolving does not always undo making relative.** The last segment of an address can be taken
to have a scheme; and the directory of a base is made the empty reference, which stands for the
base. -/
theorem resolve_relativeTo_lost :
    parse "http://h/a/b".toList = .ok ⟨"http".toList, "h".toList, "/a/b".toList, [], [], []⟩ ∧
      isPlainPath "/a/b".toList = true ∧
      parse "http://h/a/c:d".toList =
        .ok ⟨"http".toList, "h".toList, "/a/c:d".toList, [], [], []⟩ ∧
      isPlainPath "/a/c:d".toList = true ∧
      text ⟨"http".toList, "h".toList, "/a/c:d".toList, [], [], []⟩ = "http://h/a/c:d".toList ∧
      relativeTo "http://h/a/b".toList "http://h/a/c:d".toList = .ok "c:d".toList ∧
      resolve "http://h/a/b".toList "c:d".toList = .ok "c:d".toList ∧
      parse "http://h/a/".toList = .ok ⟨"http".toList, "h".toList, "/a/".toList, [], [], []⟩ ∧
      isPlainPath "/a/".toList = true ∧
      text ⟨"http".toList, "h".toList, "/a/".toList, [], [], []⟩ = "http://h/a/".toList ∧
      relativeTo "http://h/a/b".toList "http://h/a/".toList = .ok [] ∧
      resolve "http://h/a/b".toList [] = .ok "http://h/a/b".toList := by
  let address : Reference := ⟨"http".toList, "h".toList, "/a/b".toList, [], [], []⟩
  let target : Reference := ⟨"http".toList, "h".toList, "/a/c:d".toList, [], [], []⟩
  let directory : Reference := ⟨"http".toList, "h".toList, "/a/".toList, [], [], []⟩
  have web : address.isWeb = true := by decide
  have readBase : parse "http://h/a/b".toList = .ok address := by decide +kernel
  have read : parse "http://h/a/c:d".toList = .ok target := by decide +kernel
  have readDirectory : parse "http://h/a/".toList = .ok directory := by decide +kernel
  have made := relativeTo_eq readBase web read rfl rfl
  have madeDirectory := relativeTo_eq readBase web readDirectory rfl rfl
  refine ⟨readBase, by decide +kernel, read, by decide +kernel, by decide +kernel, made.trans ?_,
    ?_, readDirectory, by decide +kernel, by decide +kernel, madeDirectory.trans ?_,
    resolve_nil readBase web⟩
  · decide +kernel
  · decide +kernel
  · decide +kernel

end Relating

end UriTemplates.Reference
