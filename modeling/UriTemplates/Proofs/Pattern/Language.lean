import UriTemplates.Proofs.Pattern.Rendered
import UriTemplates.Proofs.Regex.Kleene

/-!
# The texts that patterns match

The texts of a pattern are put together from those of its fragments: one after the other, as
alternatives, or repeatedly with separators (`Pattern.language`). The expression that a pattern is
written as does the same at every node (`Pattern.language_regex`), with two exceptions. A separator
is written directly before the element, so a bar in it leaves only its last alternative to be
followed by the element, and alternatives of which there are none are written as nothing, which
matches the empty text (`Pattern.Joining.pasted`). Where neither happens, what a pattern is written
as matches the texts of the pattern (`Pattern.exists_language_text`).
-/

namespace UriTemplates.Pattern

open Computability

variable {κ : Type}

/-- How the texts of a node are put together from those of its parts. -/
structure Joining where
  /-- The texts of alternatives. -/
  either : List (Language Char) → Language Char
  /-- The texts of an element with a separator before it. -/
  separated : Regex → Language Char → Language Char

namespace Joining

/-- Alternatives match what one of them matches, and a separator comes before every further
element. -/
def apart : Joining where
  either := List.sum
  separated separator element := separator.language * element

/-- What is written as alternatives matches the empty text if there are none of them, and what is
written before an element belongs to it only from its last bar on. -/
def pasted : Joining where
  either languages := if languages.isEmpty then 1 else languages.sum
  separated separator element :=
    (separator.alternatives.1.map Regex.language).sum +
      separator.alternatives.2.language * element

end Joining

mutual

/-- The texts of a pattern, put together from those of its fragments. -/
def languageBy (joining : Joining) : Pattern κ → Language Char
  | plain regex => regex.language
  | capture _ inner => inner.languageBy joining
  | seq nodes => (languagesBy joining nodes).prod
  | choice options => joining.either (languagesBy joining options)
  | optional inner _ => 1 + inner.languageBy joining
  | repeated element separator _ requiresMore =>
    let further := joining.separated separator (element.languageBy joining)
    element.languageBy joining * if requiresMore then further * further∗ else further∗

/-- The texts of each pattern of a list. -/
def languagesBy (joining : Joining) : List (Pattern κ) → List (Language Char)
  | [] => []
  | node :: nodes => node.languageBy joining :: languagesBy joining nodes

end

/-- The texts of patterns are those of each pattern. -/
theorem languagesBy_eq (joining : Joining) (nodes : List (Pattern κ)) :
    languagesBy joining nodes = nodes.map (languageBy joining) := by
  induction nodes with
  | nil => rfl
  | cons node nodes ih => rw [languagesBy, ih, List.map_cons]

/-- **The texts of a pattern**: those of its nodes one after the other, those of any alternative,
those of a node or the empty text, and those of an element with further elements, each after a
separator. -/
def language : Pattern κ → Language Char :=
  languageBy .apart

/-- What nodes are written as matches their texts if this is so for each node. -/
theorem map_language_regex {nodes : List (Pattern κ)} {joining : Joining}
    (same : ∀ node ∈ nodes, node.regex.language = node.languageBy joining) :
    (nodes.map regex).map Regex.language = languagesBy joining nodes := by
  rw [languagesBy_eq, List.map_map]
  exact List.map_congr_left same

/-- **What a pattern is written as matches what is pasted together** from its fragments. -/
theorem language_regex (pattern : Pattern κ) :
    pattern.regex.language = pattern.languageBy .pasted := by
  induction pattern using induction_nodes with
  | plain regex => rfl
  | capture key inner same => exact same
  | seq nodes same =>
    rw [regex, body, Regex.language_group, groups_eq_map,
      Regex.language_spliceAll (isUndivided_map_regex nodes), map_language_regex same, languageBy]
  | choice options same =>
    rw [regex, body, Regex.language_group, groups_eq_map, languageBy, ← map_language_regex same]
    by_cases empty : options = []
    · subst empty
      exact Regex.language_empty
    · rw [Regex.language_oneOf (by simpa using empty)]
      exact (if_neg (by simpa using empty)).symm
  | optional inner isLazy same =>
    rw [languageBy, ← same]
    exact Regex.language_loop_optional _ isLazy
  | repeated element separator isLazy requiresMore same =>
    have further : (Regex.group (separator.splice (.group element.body))).language =
        Joining.pasted.separated separator (element.languageBy .pasted) := by
      rw [Regex.language_group, Regex.language_splice separator rfl, ← same]
      rfl
    rw [languageBy, ← further, ← same]
    refine (Regex.language_andThen _ _).trans (congrArg (element.regex.language * ·) ?_)
    cases requiresMore with
    | false => exact Regex.language_loop_star _ isLazy
    | true => exact Regex.language_loop_plus _ isLazy

/-- Whether a node keeps apart what it puts together: there are alternatives, and no bar divides a
separator. -/
def KeepsApart : Pattern κ → Prop
  | choice options => options ≠ []
  | repeated _ separator _ _ => separator.isUndivided = true
  | _ => True

/-- A separator without a bar is followed by the element, whether it is pasted or kept apart. -/
theorem separated_pasted {separator : Regex} (undivided : separator.isUndivided = true)
    (element : Language Char) :
    Joining.pasted.separated separator element = Joining.apart.separated separator element := by
  have whole : separator.alternatives = ([], separator) := by
    cases separator with
    | alt => cases undivided
    | _ => rfl
  simp only [Joining.pasted, Joining.apart, whole]
  exact zero_add _

/-- Nodes that are put together to the same texts are so as a list. -/
theorem languagesBy_congr {nodes : List (Pattern κ)} {joining other : Joining}
    (same : ∀ node ∈ nodes, node.languageBy joining = node.languageBy other) :
    languagesBy joining nodes = languagesBy other nodes := by
  rw [languagesBy_eq, languagesBy_eq]
  exact List.map_congr_left same

/-- What is pasted together is what is put together if every node keeps it apart. -/
theorem languageBy_pasted (pattern : Pattern κ) (apart : ∀ node ∈ pattern.nodes, node.KeepsApart) :
    pattern.languageBy .pasted = pattern.language := by
  refine induction_where (motive := fun pattern => pattern.languageBy .pasted = pattern.language)
    ?plain ?capture ?seq ?choice ?optional ?repeated pattern apart
  case plain => exact fun regex _ => rfl
  case capture => exact fun key inner same => same
  case seq =>
    intro nodes same
    exact congrArg List.prod (languagesBy_congr same)
  case choice =>
    intro options (nonempty : options ≠ []) same
    have some : (languagesBy .pasted options).isEmpty ≠ true := by
      rw [languagesBy_eq]
      simpa using nonempty
    rw [languageBy]
    exact (if_neg some).trans (congrArg List.sum (languagesBy_congr same))
  case optional =>
    intro inner isLazy same
    exact congrArg (1 + ·) same
  case repeated =>
    intro element separator isLazy requiresMore undivided same
    rw [language, languageBy, languageBy, same, ← language, separated_pasted undivided]

/-- **What a pattern is written as matches the texts of the pattern.** It is read as an expression
that matches what is pasted together from the fragments, and these are the texts of the pattern
where every node keeps apart what it puts together. -/
theorem exists_language_text (pattern : Pattern κ)
    (written : ∀ node ∈ pattern.nodes, ∀ fragment ∈ node.fragment?, fragment.IsWritten) :
    ∃ regex, Regex.ofWritten? pattern.regex.text = some regex ∧
      (∀ text, regex.isMatch text = pattern.regex.isMatch text) ∧
      regex.language = pattern.languageBy .pasted ∧
      ((∀ node ∈ pattern.nodes, node.KeepsApart) → regex.language = pattern.language) := by
  obtain ⟨regex, read, same⟩ := exists_ofWritten?_text pattern written
  have sameLanguage : regex.language = pattern.languageBy .pasted := by
    rw [← language_regex]
    ext text
    rw [Regex.mem_language, Regex.mem_language, same.isMatch_eq]
  exact ⟨regex, read, same.isMatch_eq, sameLanguage, fun apart =>
    sameLanguage.trans (languageBy_pasted pattern apart)⟩

/-- Elements `x` with a separator between them. -/
def severalX (separator : Regex) : Pattern Unit :=
  repeated (plain (.ofChar 'x')) separator false false

/-- A comma keeps elements apart. -/
theorem exists_language_text_comma :
    (∀ node ∈ (severalX (.ofChar ',')).nodes, ∀ fragment ∈ node.fragment?, fragment.IsWritten) ∧
      (∀ node ∈ (severalX (.ofChar ',')).nodes, node.KeepsApart) ∧
      ∃ regex, Regex.ofWritten? "(?:(?:x)(?:,(?:x))*)".toList = some regex ∧
        regex.language = (severalX (.ofChar ',')).language := by
  have written : ∀ node ∈ (severalX (.ofChar ',')).nodes, ∀ fragment ∈ node.fragment?,
      fragment.IsWritten := by
    refine List.forall_mem_cons.mpr ⟨?_, List.forall_mem_singleton.mpr ?_⟩
    · rintro _ ⟨⟩
      exact ⟨[','], rfl⟩
    · rintro _ ⟨⟩
      exact ⟨['x'], rfl⟩
  have apart : ∀ node ∈ (severalX (.ofChar ',')).nodes, node.KeepsApart :=
    List.forall_mem_cons.mpr ⟨rfl, List.forall_mem_singleton.mpr trivial⟩
  obtain ⟨regex, read, -, -, same⟩ := exists_language_text (severalX (.ofChar ',')) written
  exact ⟨written, apart, regex, read, same apart⟩

/-- A bar does not: `x` only follows the separator `b` and not the separator `a`. And what is
written for no alternatives matches the empty text, although they have no texts. -/
theorem language_text_bar :
    Regex.ofWritten? ['a', '|', 'b'] = some (.alt (.ofChar 'a') (.ofChar 'b')) ∧
      (Regex.alt (.ofChar 'a') (.ofChar 'b')).isMatch [] = false ∧
      (severalX (.alt (.ofChar 'a') (.ofChar 'b'))).regex.text =
        "(?:(?:x)(?:a|b(?:x))*)".toList ∧
      ['x', 'a', 'x'] ∈ (severalX (.alt (.ofChar 'a') (.ofChar 'b'))).language ∧
      (severalX (.alt (.ofChar 'a') (.ofChar 'b'))).regex.isMatch ['x', 'a', 'x'] = false ∧
      [] ∉ (choice ([] : List (Pattern Unit))).language ∧
      (choice ([] : List (Pattern Unit))).regex.isMatch [] = true := by
  have single : ['x'] ∈ (Regex.ofChar 'x').language := by
    rw [Regex.mem_language]
    decide +kernel
  have bar : ['a'] ∈ (Regex.alt (.ofChar 'a') (.ofChar 'b')).language := by
    rw [Regex.mem_language]
    decide +kernel
  have further := Language.append_mem_mul bar single
  refine ⟨rfl, by decide +kernel, by decide +kernel, ?_, by decide +kernel, id, by decide +kernel⟩
  exact Language.append_mem_mul single ⟨[['a', 'x']], rfl, List.forall_mem_singleton.mpr further⟩

end UriTemplates.Pattern
