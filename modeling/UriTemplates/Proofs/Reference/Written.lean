import Mathlib.Data.List.TakeWhile
import UriTemplates.Proofs.Reference.Reading

/-!
# References read back from their text

Reading leaves out tabs, line ends and what is no more than a space at the start, and takes the
scheme and the authority off before it divides the rest. So there is something to say of every
reference that has been read (`Reference.isRead_of_parseWithin`), and this is enough to read an
address of the web back from its text (`Reference.parse_text`). A reference without scheme and
authority is read the same way in a text that is not taken to have a scheme
(`Reference.parse_afterAuthority`).
-/

namespace UriTemplates.Reference

/-- The schemes of the web. -/
def webSchemes : List Text :=
  ["http".toList, "https".toList]

/-- Whether a reference has a scheme of the web and an authority. -/
def isWeb (reference : Reference) : Bool :=
  webSchemes.contains reference.scheme && !reference.authority.isEmpty

/-- Whether a text has no character that is left out wherever it stands. -/
def IsTidy (text : Text) : Prop :=
  ∀ c ∈ text, c ≠ '\t' ∧ c ≠ '\r' ∧ c ≠ '\n'

/-- What holds of a reference that has been read. -/
structure IsRead (reference : Reference) : Prop where
  tidy : IsTidy (reference.authority ++ reference.afterAuthority)
  separated : reference.IsSeparated
  inside : ∀ c ∈ reference.authority, endsAuthority c = false
  checked : checkAuthority reference.authority = .ok ()

/-- An address of the web has one of its two schemes and an authority. -/
theorem isWeb_iff {reference : Reference} : reference.isWeb = true ↔
    (reference.scheme = "http".toList ∨ reference.scheme = "https".toList) ∧
      reference.authority ≠ [] := by
  simp [isWeb, webSchemes]

theorem scheme_ne_nil {reference : Reference} (web : reference.isWeb = true) :
    reference.scheme ≠ [] := by
  obtain ⟨same | same, -⟩ := isWeb_iff.mp web <;> rw [same] <;> decide

/-- In the web, the last segment of a path can have parameters. -/
theorem parameterSchemes_web {reference : Reference} (web : reference.isWeb = true) :
    parameterSchemes.contains reference.scheme = true := by
  obtain ⟨same | same, -⟩ := isWeb_iff.mp web <;> rw [same] <;> decide

section Cleaning

variable {text : Text}

theorem IsTidy.sublist {part : Text} (tidy : IsTidy text) (sub : part.Sublist text) :
    IsTidy part :=
  fun c member => tidy c (sub.subset member)

/-- A cleaned text is tidy. -/
theorem isTidy_cleaned (text : Text) : IsTidy (cleaned text) := by
  intro c member
  have kept := (List.mem_filter.mp member).2
  simpa [and_assoc] using kept

/-- A tidy text is kept as it is, unless it starts with a space or a control character. -/
theorem cleaned_eq_self (tidy : IsTidy text) (start : ∀ c ∈ text.head?, ' ' < c) :
    cleaned text = text := by
  have whole : text.dropWhile (· ≤ ' ') = text := by
    cases text with
    | nil => rfl
    | cons c rest =>
      have above : ¬ c ≤ ' ' := Char.not_le.mpr (start c rfl)
      exact List.dropWhile_cons_of_neg (by simpa using above)
  rw [cleaned, whole, List.filter_eq_self]
  intro c member
  simpa [and_assoc] using tidy c member

end Cleaning

section Scheme

/-- Whether a text has a scheme does not depend on the one that it is given if it has none. -/
theorem splitScheme_cases (text : Text) : (∀ default, splitScheme default text = (default, text)) ∨
    ∃ scheme rest, scheme ≠ [] ∧ rest.Sublist text ∧ (∃ c ∈ text.head?, c.isAlpha = true) ∧
      ∀ default, splitScheme default text = (scheme, rest) := by
  rcases Text.cut_cases ':' text with ⟨-, cut⟩ | ⟨before, after, split, -, cut⟩
  · refine .inl fun default => ?_
    rw [splitScheme, cut]
    cases text <;> rfl
  · cases before with
    | nil =>
      refine .inl fun default => ?_
      rw [splitScheme, cut]
    | cons c scheme =>
      by_cases able : c.isAlpha && scheme.all isSchemeChar
      · refine .inr ⟨(c :: scheme).map Char.toLower, after, List.cons_ne_nil _ _, ?_, ?_, ?_⟩
        · rw [split]
          exact (List.sublist_cons_self _ _).trans (List.sublist_append_right _ _)
        · rw [split]
          exact ⟨c, rfl, (Bool.and_eq_true_iff.mp able).1⟩
        · intro default
          simp only [splitScheme, cut]
          rw [if_pos able]
      · refine .inl fun default => ?_
        simp only [splitScheme, cut]
        rw [if_neg able]

/-- What follows the scheme is part of the text. -/
theorem splitScheme_sublist (default text : Text) :
    (splitScheme default text).2.Sublist text := by
  rcases splitScheme_cases text with bare | ⟨scheme, rest, -, part, -, within⟩
  · rw [bare default]
  · rw [within default]
    exact part

/-- A text that is read without a scheme has whatever scheme it is given. -/
theorem splitScheme_of_nil {text : Text} (without : (splitScheme [] text).1 = [])
    (default : Text) : splitScheme default text = (default, text) := by
  rcases splitScheme_cases text with bare | ⟨scheme, rest, some_, -, -, within⟩
  · exact bare default
  · rw [within []] at without
    exact (some_ without).elim

/-- A scheme starts with a letter. -/
theorem splitScheme_of_head {text : Text} (mark : ∀ c ∈ text.head?, c.isAlpha = false)
    (default : Text) : splitScheme default text = (default, text) := by
  rcases splitScheme_cases text with bare | ⟨scheme, rest, -, -, ⟨c, first, letter⟩, -⟩
  · exact bare default
  · rw [mark c first] at letter
    cases letter

/-- A scheme of the web is read before its colon. -/
theorem splitScheme_web {scheme : Text}
    (web : scheme = "http".toList ∨ scheme = "https".toList) (default rest : Text) :
    splitScheme default (scheme ++ ':' :: rest) = (scheme, rest) := by
  have apart : ':' ∉ scheme := by
    rcases web with rfl | rfl <;> decide
  rw [splitScheme, Text.cut_append apart]
  rcases web with rfl | rfl <;> rfl

end Scheme

section Authority

variable {authority rest text : Text}

/-- An authority that is read has passed its check, ends before the path, and is part of the text
with what follows. -/
theorem splitAuthority_of_ok (split : splitAuthority text = .ok (authority, rest)) :
    (authority ++ rest).Sublist text ∧ (∀ c ∈ authority, endsAuthority c = false) ∧
      checkAuthority authority = .ok () := by
  unfold splitAuthority at split
  split at split
  · rename_i text
    obtain ⟨⟨⟩, checked, found⟩ := bind_eq_ok_iff.mp split
    obtain ⟨rfl, rfl⟩ := Prod.mk.inj (return_eq_ok_iff.mp found)
    refine ⟨?_, fun c member => ?_, checked⟩
    · rw [List.takeWhile_append_dropWhile]
      exact (List.sublist_cons_self _ _).trans (List.sublist_cons_self _ _)
    · simpa using List.mem_takeWhile_imp member
  · obtain ⟨rfl, rfl⟩ := Prod.mk.inj (Except.ok.inj split)
    exact ⟨.refl _, by simp, rfl⟩

/-- An authority is read back before a character that ends it. -/
theorem splitAuthority_append (inside : ∀ c ∈ authority, endsAuthority c = false)
    (checked : checkAuthority authority = .ok ())
    (ended : ∀ c ∈ rest.head?, endsAuthority c = true) :
    splitAuthority ('/' :: '/' :: (authority ++ rest)) = .ok (authority, rest) := by
  have within : ∀ c ∈ authority, (!endsAuthority c) = true := by
    intro c member
    rw [inside c member, Bool.not_false]
  have stop : rest.takeWhile (!endsAuthority ·) = [] ∧
      rest.dropWhile (!endsAuthority ·) = rest := by
    cases rest with
    | nil => exact ⟨rfl, rfl⟩
    | cons c rest => simp [ended c rfl]
  simp only [splitAuthority]
  rw [List.takeWhile_append_of_pos within, List.dropWhile_append_of_pos within, stop.1, stop.2,
    List.append_nil, checked]
  rfl

/-- A text that starts with no slash has no authority. -/
theorem splitAuthority_of_head (rooted : text.head? ≠ some '/') :
    splitAuthority text = .ok ([], text) := by
  unfold splitAuthority
  split
  · exact (rooted rfl).elim
  · rfl

end Authority

section Reading

variable {default text : Text} {reference : Reference}

/-- The scheme of a reference is the one at the start of its text. -/
theorem scheme_of_parseWithin (read : parseWithin default text = .ok reference) :
    reference.scheme = (splitScheme default (cleaned text)).1 := by
  obtain ⟨authority, rest, -, rfl⟩ := parseWithin_eq_ok_iff.mp read
  rfl

/-- **What is known of a reference that has been read.** -/
theorem isRead_of_parseWithin (parameters : parameterSchemes.contains reference.scheme = true)
    (read : parseWithin default text = .ok reference) : reference.IsRead := by
  obtain ⟨authority, rest, split, rfl⟩ := parseWithin_eq_ok_iff.mp read
  obtain ⟨part, inside, checked⟩ := splitAuthority_of_ok split
  have tidy : IsTidy (authority ++ rest) :=
    (isTidy_cleaned text).sublist (part.trans (splitScheme_sublist default _))
  exact {
    tidy := tidy.sublist ((sublist_afterAuthority parameters).append_left authority)
    separated := isSeparated_ofRest parameters
    inside
    checked }

/-- A reference without a scheme is read within any scheme as it is read alone. -/
theorem parseWithin_of_parse (parameters : parameterSchemes.contains default = true)
    (read : parse text = .ok reference) (noScheme : reference.scheme = []) :
    parseWithin default text = .ok { reference with scheme := default } := by
  obtain ⟨authority, rest, split, rfl⟩ := parseWithin_eq_ok_iff.mp read
  have bare := splitScheme_of_nil noScheme
  rw [bare []] at split
  refine parseWithin_eq_ok_iff.mpr ⟨authority, rest, ?_, ?_⟩
  · rw [bare default]
    exact split
  · have alone : parameterSchemes.contains [] = true := by decide
    rw [bare [], bare default, ofRest_eq parameters, ofRest_eq alone]

/-- A scheme of its own is the same within any other. -/
theorem parseWithin_of_scheme (read : parse text = .ok reference)
    (scheme : reference.scheme ≠ []) : parseWithin default text = .ok reference := by
  obtain ⟨authority, rest, split, rfl⟩ := parseWithin_eq_ok_iff.mp read
  rcases splitScheme_cases (cleaned text) with bare | ⟨own, later, -, -, -, within⟩
  · rw [bare []] at scheme
    exact (scheme rfl).elim
  · rw [within []] at split ⊢
    exact parseWithin_eq_ok_iff.mpr ⟨authority, rest, by rw [within default]; exact split,
      by rw [within default]⟩

end Reading

section Text

variable {reference : Reference}

/-- An address of the web is written with its scheme, two slashes and its authority in front. -/
theorem text_of_web (web : reference.isWeb = true)
    (absolute : reference.path.head? = some '/') :
    reference.text = reference.scheme ++
      ':' :: '/' :: '/' :: (reference.authority ++ reference.afterAuthority) := by
  have authority := (isWeb_iff.mp web).2
  have written := scheme_ne_nil web
  obtain ⟨rest, path⟩ := List.head?_eq_some_iff.mp absolute
  simp [text, writesAuthority, withAuthority, afterAuthority, written, authority, path]

/-- A reference without scheme and authority is written as what follows them. -/
theorem text_of_relative (noScheme : reference.scheme = [])
    (noAuthority : reference.authority = []) : reference.text = reference.afterAuthority := by
  simp [text, writesAuthority, afterAuthority, noScheme, noAuthority]

/-- What follows an authority starts with a character that ends it. -/
theorem endsAuthority_of_head (absolute : reference.path.head? = some '/') :
    ∀ c ∈ reference.afterAuthority.head?, endsAuthority c = true := by
  obtain ⟨rest, path⟩ := List.head?_eq_some_iff.mp absolute
  rw [afterAuthority, path]
  rintro _ ⟨⟩
  rfl

/-- **An address of the web is read back from its text.** -/
theorem parse_text (web : reference.isWeb = true) (absolute : reference.path.head? = some '/')
    (read : reference.IsRead) : parse reference.text = .ok reference := by
  obtain ⟨scheme, -⟩ := isWeb_iff.mp web
  have front : IsTidy (reference.scheme ++ [':', '/', '/']) := by
    have each : (reference.scheme ++ [':', '/', '/']).all
        (fun c => c ≠ '\t' ∧ c ≠ '\r' ∧ c ≠ '\n') = true := by
      rcases scheme with same | same <;> rw [same] <;> decide
    exact fun c member => of_decide_eq_true (List.all_eq_true.mp each c member)
  have tidy : IsTidy reference.text := by
    have whole := List.forall_mem_append.mpr ⟨front, read.tidy⟩
    rw [List.append_assoc] at whole
    rw [text_of_web web absolute]
    exact whole
  have start : ∀ c ∈ reference.text.head?, ' ' < c := by
    rw [text_of_web web absolute]
    rcases scheme with same | same <;> rw [same] <;> rintro _ ⟨⟩ <;> decide
  refine parseWithin_eq_ok_iff.mpr ⟨reference.authority, reference.afterAuthority, ?_, ?_⟩
  · rw [cleaned_eq_self tidy start, text_of_web web absolute, splitScheme_web scheme]
    exact splitAuthority_append read.inside read.checked (endsAuthority_of_head absolute)
  · rw [cleaned_eq_self tidy start, text_of_web web absolute, splitScheme_web scheme,
      ofRest_afterAuthority (parameterSchemes_web web) read.separated]

/-- Separated addresses of the web with one scheme and authority are written differently. -/
theorem eq_of_text_eq {other : Reference} (web : reference.isWeb = true)
    (sameScheme : other.scheme = reference.scheme)
    (sameAuthority : other.authority = reference.authority)
    (absolute : reference.path.head? = some '/') (absoluteOther : other.path.head? = some '/')
    (separated : reference.IsSeparated) (separatedOther : other.IsSeparated)
    (same : other.text = reference.text) : other = reference := by
  have webOther : other.isWeb = true := by
    rw [isWeb, sameScheme, sameAuthority]
    exact web
  rw [text_of_web web absolute, text_of_web webOther absoluteOther, sameScheme, sameAuthority,
    List.append_cancel_left_eq, List.cons.injEq, List.cons.injEq, List.cons.injEq,
    List.append_cancel_left_eq] at same
  calc other = ofRest other.scheme other.authority other.afterAuthority :=
        (ofRest_afterAuthority (parameterSchemes_web webOther) separatedOther).symm
    _ = ofRest reference.scheme reference.authority reference.afterAuthority := by
        rw [sameScheme, sameAuthority, same.2.2.2]
    _ = reference := ofRest_afterAuthority (parameterSchemes_web web) separated

/-- What follows an authority starts with the path or with a mark. -/
theorem head?_afterAuthority {c : Char} (first : c ∈ reference.afterAuthority.head?) :
    c ∈ reference.path.head? ∨ c ∈ [';', '?', '#'] := by
  rcases head?_append_introduced first with front | rfl
  · rcases head?_append_introduced front with front | rfl
    · rcases head?_append_introduced front with path | rfl
      · exact .inl path
      · exact .inr (by decide)
    · exact .inr (by decide)
  · exact .inr (by decide)

/-- **A reference without scheme and authority is read back from its text**, if the text is not
taken to have a scheme or an authority. -/
theorem parse_afterAuthority (noScheme : reference.scheme = [])
    (noAuthority : reference.authority = []) (separated : reference.IsSeparated)
    (tidy : IsTidy reference.afterAuthority) (rooted : reference.path.head? ≠ some '/')
    (start : ∀ c ∈ reference.afterAuthority.head?, ' ' < c)
    (bare : (splitScheme [] reference.afterAuthority).1 = []) :
    parse reference.afterAuthority = .ok reference := by
  have kept := cleaned_eq_self tidy start
  have rootedText : reference.afterAuthority.head? ≠ some '/' := by
    intro first
    rcases head?_afterAuthority first with path | mark
    · exact rooted path
    · revert mark
      decide
  have alone := splitScheme_of_nil bare []
  have parameters : parameterSchemes.contains reference.scheme = true := by
    rw [noScheme]
    decide
  have back := ofRest_afterAuthority parameters separated
  rw [noScheme, noAuthority] at back
  refine parseWithin_eq_ok_iff.mpr ⟨[], reference.afterAuthority, ?_, ?_⟩
  · rw [kept, alone]
    exact splitAuthority_of_head rootedText
  · rw [kept, alone, back]

end Text

end UriTemplates.Reference
