import UriTemplates.Proofs.Steps
import UriTemplates.Proofs.Text.Fields
import UriTemplates.Reference.Basic

/-!
# Reading references back

What follows the authority of a reference is divided at its marks (`Reference.ofRest`), and what is
read there is separated by them (`Reference.isSeparated_ofRest`), so it is read back from what it is
written as (`Reference.ofRest_afterAuthority`). Reading may leave out characters, but it adds none
(`Reference.sublist_afterAuthority`).
-/

namespace UriTemplates.Reference

/-- What is written after the authority of a reference. -/
def afterAuthority (reference : Reference) : Text :=
  reference.path ++ introduced ';' reference.parameters ++ introduced '?' reference.query ++
    introduced '#' reference.fragment

/-- A reference of which everything but what follows the authority has been read. -/
def ofRest (scheme authority rest : Text) : Reference :=
  let (rest, fragment) := Text.cut '#' rest
  let (path, query) := Text.cut '?' rest
  let (path, parameters) :=
    if parameterSchemes.contains scheme then splitParameters path else (path, [])
  { scheme, authority, path, parameters, query := query.getD [], fragment := fragment.getD [] }

/-- A reference is read if its authority is, and then all of its components are. -/
theorem parseWithin_eq_ok_iff {default text : Text} {reference : Reference} :
    parseWithin default text = .ok reference ↔ ∃ authority rest,
      splitAuthority (splitScheme default (cleaned text)).2 = .ok (authority, rest) ∧
        reference = ofRest (splitScheme default (cleaned text)).1 authority rest := by
  have steps : parseWithin default text = (do
      let (authority, rest) ← splitAuthority (splitScheme default (cleaned text)).2
      return ofRest (splitScheme default (cleaned text)).1 authority rest) := rfl
  rw [steps, bind_eq_ok_iff]
  constructor
  · rintro ⟨⟨authority, rest⟩, split, read⟩
    exact ⟨authority, rest, split, (return_eq_ok_iff.mp read).symm⟩
  · rintro ⟨authority, rest, split, rfl⟩
    exact ⟨(authority, rest), split, rfl⟩

/-- Whether the marks between the components after the authority are the first ones there. -/
structure IsSeparated (reference : Reference) : Prop where
  path : '?' ∉ reference.path ∧ '#' ∉ reference.path
  segment : ∀ segment ∈ (Text.fields '/' reference.path).getLast?, ';' ∉ segment
  parameters : '/' ∉ reference.parameters ∧ '?' ∉ reference.parameters ∧ '#' ∉ reference.parameters
  query : '#' ∉ reference.query

section Components

variable {mark : Char} {text : Text}

/-- A component holds the same characters with the mark in front of it, but for the mark. -/
theorem notMem_introduced {c : Char} {component : Text} (other : c ≠ mark)
    (apart : c ∉ component) : c ∉ introduced mark component := by
  unfold introduced
  split
  · exact List.not_mem_nil
  · simp [other, apart]

/-- A component is read back after its mark. -/
theorem cut_introduced {front : Text} (apart : mark ∉ front) (component : Text) :
    (Text.cut mark (front ++ introduced mark component)).1 = front ∧
      (Text.cut mark (front ++ introduced mark component)).2.getD [] = component := by
  unfold introduced
  split
  · rename_i empty
    rw [List.append_nil, Text.cut_of_notMem apart]
    exact ⟨rfl, (List.isEmpty_iff.mp empty).symm⟩
  · rw [Text.cut_append apart]
    exact ⟨rfl, rfl⟩

theorem introduced_eq_nil_iff {component : Text} :
    introduced mark component = [] ↔ component = [] := by
  simp [introduced]

/-- Text before a component starts as it does alone, or with the mark of the component. -/
theorem head?_append_introduced {c : Char} {front component : Text}
    (first : c ∈ (front ++ introduced mark component).head?) : c ∈ front.head? ∨ c = mark := by
  cases front with
  | nil =>
    unfold introduced at first
    split at first
    · cases first
    · exact .inr (Option.some.inj first).symm
  | cons next front => exact .inl first

/-- What stands before the first mark does not hold it. -/
theorem notMem_cut (mark : Char) (text : Text) : mark ∉ (Text.cut mark text).1 := by
  rcases Text.cut_cases mark text with ⟨apart, cut⟩ | ⟨before, after, -, apart, cut⟩
  · rwa [cut]
  · rwa [cut]

/-- Cutting leaves out nothing but a mark before an empty component. -/
theorem sublist_cut (mark : Char) (text : Text) :
    ((Text.cut mark text).1 ++ introduced mark ((Text.cut mark text).2.getD [])).Sublist text := by
  rcases Text.cut_cases mark text with ⟨-, cut⟩ | ⟨before, after, rfl, -, cut⟩
  · simp [cut, introduced]
  · rw [cut, Option.getD_some, introduced]
    split
    · rw [List.append_nil]
      exact List.sublist_append_left _ _
    · exact .refl _

/-- A component is part of what it is written as. -/
theorem sublist_introduced (mark : Char) (component : Text) :
    component.Sublist (introduced mark component) := by
  unfold introduced
  split
  · rename_i empty
    exact (List.isEmpty_iff.mp empty).symm ▸ .refl _
  · exact List.sublist_cons_self _ _

/-- The parts of a text that is written with a mark between them. -/
theorem sublist_of_introduced {front component : Text}
    (part : (front ++ introduced mark component).Sublist text) :
    front.Sublist text ∧ component.Sublist text :=
  ⟨(List.sublist_append_left _ _).trans part,
    (sublist_introduced mark component).trans ((List.sublist_append_right _ _).trans part)⟩

end Components

/-- Nothing is written after the authority if all components there are empty. -/
theorem afterAuthority_eq_nil_iff {reference : Reference} : reference.afterAuthority = [] ↔
    reference.path = [] ∧ reference.parameters = [] ∧ reference.query = [] ∧
      reference.fragment = [] := by
  simp only [afterAuthority, List.append_eq_nil_iff, introduced_eq_nil_iff, and_assoc]

section Parameters

/-- Whether a text is empty or ends with a slash. -/
def EndsSegment (front : Text) : Prop :=
  front = [] ∨ ∃ directory, front = directory ++ ['/']

/-- A path is its last segment after the others. -/
theorem exists_last_segment (path : Text) : ∃ front segment,
    path = front ++ segment ∧ EndsSegment front ∧ '/' ∉ segment := by
  rcases Text.cutLast_cases '/' path with ⟨apart, -⟩ | ⟨before, after, rfl, apart, -⟩
  · exact ⟨[], path, rfl, .inl rfl, apart⟩
  · exact ⟨before ++ ['/'], after, by simp, .inr ⟨before, rfl⟩, apart⟩

variable {front segment : Text}

/-- What follows the last slash is the last segment. -/
theorem getLast?_fields (ends : EndsSegment front) (apart : '/' ∉ segment) :
    (Text.fields '/' (front ++ segment)).getLast? = some segment := by
  rcases ends with rfl | ⟨directory, rfl⟩
  · rw [List.nil_append, Text.fields_of_notMem apart]
    rfl
  · rw [List.append_assoc, List.singleton_append, Text.fields_append_cons,
      Text.fields_of_notMem apart, List.getLast?_concat]

/-- Parameters are what follows the first mark in the last segment. -/
theorem splitParameters_append (ends : EndsSegment front) (apart : '/' ∉ segment) :
    splitParameters (front ++ segment) =
      (front ++ (Text.cut ';' segment).1, (Text.cut ';' segment).2.getD []) := by
  rcases ends with rfl | ⟨directory, rfl⟩
  · simp [splitParameters, Text.cutLast_of_notMem apart]
  · rw [List.append_assoc, List.singleton_append, splitParameters, Text.cutLast_append apart]
    simp

/-- Parameters are split from the path that they are written after. -/
theorem splitParameters_introduced {path parameters : Text}
    (plain : ∀ segment ∈ (Text.fields '/' path).getLast?, ';' ∉ segment)
    (apart : '/' ∉ parameters) :
    splitParameters (path ++ introduced ';' parameters) = (path, parameters) := by
  obtain ⟨front, segment, rfl, ends, last⟩ := exists_last_segment path
  have unmarked := plain segment (getLast?_fields ends last)
  have inside : '/' ∉ segment ++ introduced ';' parameters := by
    rw [List.mem_append, not_or]
    exact ⟨last, notMem_introduced (by decide) apart⟩
  obtain ⟨before, after⟩ := cut_introduced unmarked parameters
  rw [List.append_assoc, splitParameters_append ends inside, before, after]

/-- Splitting off the parameters leaves out nothing but a mark before empty ones. -/
theorem sublist_splitParameters (path : Text) :
    ((splitParameters path).1 ++ introduced ';' (splitParameters path).2).Sublist path := by
  obtain ⟨front, segment, rfl, ends, apart⟩ := exists_last_segment path
  rw [splitParameters_append ends apart, List.append_assoc]
  exact (sublist_cut ';' segment).append_left front

/-- The last segment of a path without its parameters does not hold a semicolon. -/
theorem segment_splitParameters (path : Text) :
    ∀ segment ∈ (Text.fields '/' (splitParameters path).1).getLast?, ';' ∉ segment := by
  obtain ⟨front, segment, rfl, ends, apart⟩ := exists_last_segment path
  have inside : '/' ∉ (Text.cut ';' segment).1 := fun member =>
    apart ((sublist_of_introduced (sublist_cut ';' segment)).1.subset member)
  rw [splitParameters_append ends apart, getLast?_fields ends inside]
  rintro _ ⟨⟩
  exact notMem_cut ';' segment

/-- Parameters do not hold a slash. -/
theorem slash_notMem_splitParameters (path : Text) : '/' ∉ (splitParameters path).2 := by
  obtain ⟨front, segment, rfl, ends, apart⟩ := exists_last_segment path
  rw [splitParameters_append ends apart]
  exact fun member => apart ((sublist_of_introduced (sublist_cut ';' segment)).2.subset member)

end Parameters

section Rest

variable {scheme authority rest : Text}

/-- What follows an authority is divided at its marks. -/
theorem ofRest_eq (parameters : parameterSchemes.contains scheme = true)
    (authority rest : Text) : ofRest scheme authority rest =
      { scheme, authority
        path := (splitParameters (Text.cut '?' (Text.cut '#' rest).1).1).1
        parameters := (splitParameters (Text.cut '?' (Text.cut '#' rest).1).1).2
        query := (Text.cut '?' (Text.cut '#' rest).1).2.getD []
        fragment := (Text.cut '#' rest).2.getD [] } := by
  simp only [ofRest, parameters, ↓reduceIte]

/-- **Separated components are read back.** -/
theorem ofRest_afterAuthority {reference : Reference}
    (parameters : parameterSchemes.contains reference.scheme = true)
    (separated : reference.IsSeparated) :
    ofRest reference.scheme reference.authority reference.afterAuthority = reference := by
  obtain ⟨noSlash, noQuery, noFragment⟩ := separated.parameters
  have path : '?' ∉ reference.path ++ introduced ';' reference.parameters := by
    rw [List.mem_append, not_or]
    exact ⟨separated.path.1, notMem_introduced (by decide) noQuery⟩
  have front : '#' ∉ reference.path ++ introduced ';' reference.parameters ++
      introduced '?' reference.query := by
    rw [List.mem_append, List.mem_append, not_or, not_or]
    exact ⟨⟨separated.path.2, notMem_introduced (by decide) noFragment⟩,
      notMem_introduced (by decide) separated.query⟩
  obtain ⟨beforeFragment, fragment⟩ := cut_introduced front reference.fragment
  obtain ⟨beforeQuery, query⟩ := cut_introduced path reference.query
  rw [ofRest_eq parameters, afterAuthority, beforeFragment, fragment, beforeQuery, query,
    splitParameters_introduced separated.segment noSlash]

/-- What is written of the components that are read is a part of the text. -/
theorem sublist_afterAuthority (parameters : parameterSchemes.contains scheme = true) :
    (ofRest scheme authority rest).afterAuthority.Sublist rest := by
  rw [ofRest_eq parameters, afterAuthority]
  exact ((((sublist_splitParameters _).append_right _).trans
    (sublist_cut '?' _)).append_right _).trans (sublist_cut '#' rest)

/-- **Components that are read are separated.** -/
theorem isSeparated_ofRest (parameters : parameterSchemes.contains scheme = true) :
    (ofRest scheme authority rest).IsSeparated := by
  rw [ofRest_eq parameters]
  have noFragment : '#' ∉ (Text.cut '#' rest).1 := notMem_cut '#' rest
  generalize (Text.cut '#' rest).1 = front at noFragment ⊢
  obtain ⟨inFront, query⟩ := sublist_of_introduced (sublist_cut '?' front)
  have noQuery : '?' ∉ (Text.cut '?' front).1 := notMem_cut '?' front
  generalize (Text.cut '?' front).1 = unqueried at inFront noQuery ⊢
  obtain ⟨path, inPath⟩ := sublist_of_introduced (sublist_splitParameters unqueried)
  exact {
    path := ⟨fun member => noQuery (path.subset member),
      fun member => noFragment (inFront.subset (path.subset member))⟩
    segment := segment_splitParameters unqueried
    parameters := ⟨slash_notMem_splitParameters unqueried,
      fun member => noQuery (inPath.subset member),
      fun member => noFragment (inFront.subset (inPath.subset member))⟩
    query := fun member => noFragment (query.subset member) }

end Rest

end UriTemplates.Reference
