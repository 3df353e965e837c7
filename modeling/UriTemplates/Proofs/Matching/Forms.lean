import UriTemplates.Proofs.Matching.Refusal

/-!
# The forms of bindings

Hints decide the form of every value that a match binds (`Value.Suits`), with one exception: the
bare name of a path parameter stands for the list of an empty text even if hints declare the
variable to be a map (`Template.BindsBareName`). A binding stems from what was found at an
occurrence of its variable (`Template.exists_finding_of_mem`), and what is found there has the form
of the contents that were captured (`Field.ShowsItems.suits_of_finding`).
-/

namespace UriTemplates

open Captures (textsAt)

namespace Value

/-- Whether a value is a text. -/
def isText : Value → Bool
  | text _ => true
  | _ => false

/-- Whether a value is a list. -/
def isList : Value → Bool
  | list _ => true
  | _ => false

/-- Whether a value is a map. -/
def isMap : Value → Bool
  | map _ => true
  | _ => false

/-- Whether a value has a form that hints leave to the variable that it is bound to. -/
structure Suits (value : Value) (hints : Hints) (v : Variable) : Prop where
  text_of_truncated : v.length?.isSome = true → value.isText = true
  list_of_listed : v.name ∈ hints.lists → v.name ∉ hints.maps → value.isList = true
  map_of_mapped : v.name ∈ hints.maps → v.name ∉ hints.lists → value.isMap = true
  not_text_of_exploded : v.isExploded = true → value.isText = false
  nonempty : value.isEmptyComposite = false

variable {hints : Hints} {v : Variable}

/-- A text suits a variable that hints leave open. -/
theorem suits_text {written : Text} (unlisted : v.name ∉ hints.lists)
    (unmapped : v.name ∉ hints.maps) (whole : v.isExploded = false) :
    (text written).Suits hints v where
  text_of_truncated _ := rfl
  list_of_listed listed := (unlisted listed).elim
  map_of_mapped mapped := (unmapped mapped).elim
  not_text_of_exploded apart := by simp [whole] at apart
  nonempty := rfl

/-- A list suits a variable that may not only be a map. -/
theorem suits_list {items : List Text} (untruncated : v.length? = none)
    (free : v.name ∈ hints.maps → v.name ∈ hints.lists) (nonempty : items ≠ []) :
    (list items).Suits hints v where
  text_of_truncated truncated := by simp [untruncated] at truncated
  list_of_listed _ _ := rfl
  map_of_mapped mapped unlisted := (unlisted (free mapped)).elim
  not_text_of_exploded _ := rfl
  nonempty := by simpa [isEmptyComposite] using nonempty

/-- A map suits a variable that may not only be a list. -/
theorem suits_map {entries : OrderedMap Text Text} (untruncated : v.length? = none)
    (free : v.name ∈ hints.lists → v.name ∈ hints.maps) (nonempty : entries.entries ≠ []) :
    (map entries).Suits hints v where
  text_of_truncated truncated := by simp [untruncated] at truncated
  list_of_listed listed unmapped := (unmapped (free listed)).elim
  map_of_mapped _ _ := rfl
  not_text_of_exploded _ := rfl
  nonempty := by simpa [isEmptyComposite, OrderedMap.isEmpty] using nonempty

end Value

namespace Binding

variable {evidence : Evidence} {hints : Hints} {v : Variable} {value : Value}

/-- The value of captured texts is the only one of them, or the list of them. -/
theorem textsFinding_eq_value {values : List Text}
    (found : textsFinding hints v values = .value value) :
    (v.length?.isSome = true ∨ mayBeText hints v = true) ∧
        (∃ text, value = .text (Percent.decode text)) ∨
      v.length? = none ∧ value = .list (values.map Percent.decode) := by
  unfold textsFinding at found
  split at found
  · rename_i length text modifier
    cases found
    exact .inl ⟨.inl (by simp [Variable.length?, modifier]), text, rfl⟩
  · cases found
  · rename_i text plain
    have untruncated := Field.length?_eq_none plain
    split at found
    · rename_i free
      cases found
      exact .inl ⟨.inr free, text, rfl⟩
    · cases found
      exact .inr ⟨untruncated, rfl⟩
  · rename_i plain _
    cases found
    exact .inr ⟨Field.length?_eq_none plain, rfl⟩

/-- A value is found in texts, unless keys are captured of a variable that is not truncated. -/
theorem finding_eq_value {operator : Operator} {part index : Nat}
    (found : finding operator part evidence hints index v = .ok (.value value)) :
    ∃ values, (evidence index .value).getD [] = values ∧ values ≠ [] ∧
      isRepeated operator v (evidence index .name) = false ∧
      ((v.length? = none → (evidence index .key).getD [] = []) ∧
          textsFinding hints v values = .value value ∨
        v.length? = none ∧ ∃ keys, evidence index .key = some keys ∧
          mapFinding part index v values keys (evidence index .item) = .ok (.value value)) := by
  unfold finding at found
  split at found
  · cases found
  rename_i first values captured
  refine ⟨first :: values, captured, List.cons_ne_nil _ _, ?_⟩
  split at found
  · cases found
  rename_i unrepeated
  refine ⟨Bool.eq_false_iff.mpr unrepeated, ?_⟩
  split at found
  · rename_i truncated
    refine .inl ⟨fun untruncated => ?_, Except.ok.inj found⟩
    rw [untruncated] at truncated
    cases truncated
  rename_i untruncated
  rw [Bool.not_eq_true, Option.isSome_eq_false_iff, Option.isNone_iff_eq_none] at untruncated
  split at found
  · rename_i keyless
    exact .inl ⟨fun _ => keyless, Except.ok.inj found⟩
  · rename_i key keys keyed
    exact .inr ⟨untruncated, key :: keys, eq_some_of_getD_eq_cons keyed, found⟩

/-- The value of captured entries is a map, which has an entry for every value. -/
theorem mapFinding_eq_value {part index : Nat} {values keys items : List Text}
    {entries : List (Text × Text)} (read : entries? v.name values keys items = some entries)
    (found : mapFinding part index v values keys (some items) = .ok (.value value)) :
    ∃ map : OrderedMap Text Text, value = .map map ∧ map.entries.length = entries.length := by
  simp only [mapFinding, read] at found
  split at found
  · cases found
  · rename_i map distinct
    cases found
    refine ⟨map, rfl, ?_⟩
    rw [distinctMap?_eq_some_iff.mp distinct, List.length_map]

end Binding

/-- What is truncated is not exploded. -/
theorem Variable.isExploded_of_length? {v : Variable} (truncated : v.length?.isSome = true) :
    v.isExploded = false := by
  cases modifier : v.modifier with
  | exploded => simp [length?, modifier] at truncated
  | _ => simp [isExploded, modifier]

namespace Field.ShowsItems

variable {field : Field} {contents : List Content} {captures : Captures Site} {hints : Hints}
  (shows : field.ShowsItems contents captures)

include shows

/-- A content is captured with its keys only if the field may be a map. -/
theorem map_of_key {keys : List Text}
    (keyed : captures.evidence field.part field.index .key = some keys) :
    field.forms.map = true := by
  obtain ⟨same, nonempty⟩ := Captures.texts?_eq_some_iff.mp keyed
  obtain ⟨key, member⟩ := List.exists_mem_of_ne_nil keys nonempty
  rw [← shows.textsAt_key.symm.trans same] at member
  obtain ⟨pair, inside, -⟩ := List.mem_map.mp member
  obtain ⟨content, among, own⟩ := List.mem_flatMap.mp inside
  cases content with
  | texts written => cases own
  | entries written => exact (shows.admits _ among).1.2.2.1

/-- Without keys, only texts are captured. -/
theorem exists_texts
    (keyless : (captures.evidence field.part field.index .key).getD [] = []) :
    ∀ content ∈ contents, ∃ written, content = .texts written := by
  intro content member
  cases content with
  | texts written => exact ⟨written, rfl⟩
  | entries written =>
    rw [Captures.evidence, Captures.getD_texts?] at keyless
    have nothing := shows.textsAt_key.symm.trans keyless
    rw [List.map_eq_nil_iff, List.flatMap_eq_nil_iff] at nothing
    exact ((shows.admits _ member).1.1 (nothing _ member)).elim

/-- Texts of a field that may only be a map are the bare name of a path parameter. -/
theorem values_of_mapped (untruncated : field.occurrence.length? = none)
    (noText : field.forms.text = false) (noList : field.forms.list = false)
    (keyless : (captures.evidence field.part field.index .key).getD [] = [])
    (unrepeated : Binding.isRepeated field.operator field.occurrence
      (captures.evidence field.part field.index .name) = false)
    (some_ : textsAt captures (field.site .value) ≠ []) :
    field.operator = .parameter ∧ field.occurrence.modifier = .plain ∧
      textsAt captures (field.site .value) = [[]] := by
  rw [shows.textsAt_value] at some_ ⊢
  have texts := shows.exists_texts keyless
  have each : ∀ written, .texts written ∈ contents → field.occurrence.modifier = .plain ∧
      field.operator = .parameter ∧ written = [[]] := by
    intro written member
    have admitted := (shows.admits _ member).1.2.2
    unfold AdmitsTexts at admitted
    cases modifier : field.occurrence.modifier with
    | truncated length => simp [Variable.length?, modifier] at untruncated
    | exploded => simp [modifier, noText, noList] at admitted
    | plain => simpa [modifier, noText, noList] using admitted
  obtain ⟨value, inside⟩ := List.exists_mem_of_ne_nil _ some_
  obtain ⟨content, member, -⟩ := List.mem_flatMap.mp inside
  obtain ⟨written, rfl⟩ := texts content member
  obtain ⟨plain, parameter, rfl⟩ := each written member
  have single := shows.length_le_one (isExploded_of_plain plain) unrepeated
  obtain ⟨only, rfl⟩ := List.length_eq_one_iff.mp
    (Nat.le_antisymm single (List.length_pos_of_mem member))
  obtain rfl := List.mem_singleton.mp member
  exact ⟨parameter, plain, rfl⟩

/-- What is found in texts has a form that hints leave to the variable, unless it is the bare name
of a path parameter. -/
theorem suits_of_texts (formed : field.forms = hints.forms field.occurrence)
    (consistent : hints.contradicts field.occurrence = false)
    (unrepeated : Binding.isRepeated field.operator field.occurrence
      (captures.evidence field.part field.index .name) = false)
    (some_ : textsAt captures (field.site .value) ≠ [])
    (keyless : field.occurrence.length? = none →
      (captures.evidence field.part field.index .key).getD [] = []) {value : Value}
    (found : Binding.textsFinding hints field.occurrence (textsAt captures (field.site .value)) =
      .value value) :
    value.Suits hints field.occurrence ∨
      field.operator = .parameter ∧ field.occurrence.modifier = .plain ∧
        field.occurrence.name ∈ hints.maps ∧ field.occurrence.name ∉ hints.lists ∧
        value = .list [[]] := by
  rcases Binding.textsFinding_eq_value found with
    ⟨truncated | free, text, rfl⟩ | ⟨untruncated, rfl⟩
  · obtain ⟨unlisted, unmapped⟩ : field.occurrence.name ∉ hints.lists ∧
        field.occurrence.name ∉ hints.maps := by
      simpa [Hints.contradicts, truncated] using consistent
    exact .inl (Value.suits_text unlisted unmapped (Variable.isExploded_of_length? truncated))
  · obtain ⟨⟨whole, unlisted⟩, unmapped⟩ : (field.occurrence.isExploded = false ∧
        field.occurrence.name ∉ hints.lists) ∧ field.occurrence.name ∉ hints.maps := by
      simpa only [Binding.mayBeText, Bool.and_eq_true, Bool.not_eq_true', List.contains_eq_mem,
        decide_eq_false_iff_not] using free
    exact .inl (Value.suits_text unlisted unmapped whole)
  · by_cases free : field.occurrence.name ∈ hints.maps → field.occurrence.name ∈ hints.lists
    · exact .inl (Value.suits_list untruncated free (mt List.map_eq_nil_iff.mp some_))
    · obtain ⟨mapped, unlisted⟩ := Classical.not_imp.mp free
      obtain ⟨parameter, plain, bare⟩ := shows.values_of_mapped untruncated
        (by simp [formed, Hints.forms, mapped]) (by simp [formed, Hints.forms, mapped, unlisted])
        (keyless untruncated) unrepeated some_
      have decoded : Percent.decode (Percent.encode true []) = [] := Percent.decode_encode []
      rw [bare]
      exact .inr ⟨parameter, plain, mapped, unlisted, congrArg (Value.list [·]) decoded⟩

/-- What is found in entries is a map that is not empty, where hints leave it open. -/
theorem suits_of_entries (formed : field.forms = hints.forms field.occurrence)
    (unrepeated : Binding.isRepeated field.operator field.occurrence
      (captures.evidence field.part field.index .name) = false)
    (some_ : textsAt captures (field.site .value) ≠ [])
    (untruncated : field.occurrence.length? = none) {keys : List Text}
    (keyed : captures.evidence field.part field.index .key = some keys) {value : Value}
    (found : Binding.mapFinding field.part field.index field.occurrence
      (textsAt captures (field.site .value)) keys (captures.evidence field.part field.index .item) =
        .ok (.value value)) : value.Suits hints field.occurrence := by
  obtain ⟨values, items, entries, valued, itemized, -, read, each⟩ :=
    shows.exists_paired keyed unrepeated
  obtain rfl : textsAt captures (field.site .value) = values :=
    (Captures.texts?_eq_some_iff.mp valued).1
  rw [itemized] at found
  obtain ⟨map, rfl, sizes⟩ := Binding.mapFinding_eq_value read found
  have mapped := shows.map_of_key keyed
  refine Value.suits_map untruncated (fun listed => ?_) ?_
  · simpa [formed, Hints.forms, listed] using mapped
  · rwa [← List.length_pos_iff, sizes, each.length_eq, List.length_pos_iff]

/-- **What is found of a field** has a form that hints leave to its variable, unless it is the bare
name of a path parameter. -/
theorem suits_of_finding (formed : field.forms = hints.forms field.occurrence)
    (consistent : hints.contradicts field.occurrence = false) {value : Value}
    (found : Binding.finding field.operator field.part (captures.evidence field.part) hints
      field.index field.occurrence = .ok (.value value)) :
    value.Suits hints field.occurrence ∨
      field.operator = .parameter ∧ field.occurrence.modifier = .plain ∧
        field.occurrence.name ∈ hints.maps ∧ field.occurrence.name ∉ hints.lists ∧
        value = .list [[]] := by
  obtain ⟨values, captured, some_, unrepeated, read⟩ := Binding.finding_eq_value found
  obtain rfl : textsAt captures (field.site .value) = values := by
    rwa [Captures.evidence, Captures.getD_texts?] at captured
  rcases read with ⟨keyless, read⟩ | ⟨untruncated, keys, keyed, read⟩
  · exact shows.suits_of_texts formed consistent unrepeated some_ keyless read
  · exact .inl (shows.suits_of_entries formed unrepeated some_ untruncated keyed read)

end Field.ShowsItems

/-- A binding of an expression is found at an occurrence of its variable. -/
theorem Expression.exists_finding_of_mem {expression : Expression} {part : Nat}
    {evidence : Evidence} {hints : Hints} {bindings : List Binding}
    (bound : expression.bindings part evidence hints = .ok (some bindings)) {binding : Binding}
    (member : binding ∈ bindings) :
    ∃ position, expression.occurrences[position]? = some binding.occurrence ∧
      Binding.finding expression.operator part evidence hints position binding.occurrence =
        .ok (.value binding.value) := by
  obtain ⟨found, accepted, -, rfl⟩ := bindings_eq_some_iff.mp bound
  obtain ⟨result, among, kept⟩ := List.mem_filterMap.mp member
  obtain rfl := Binding.ofFinding?_eq_some_iff.mp kept
  have each := (List.forall₂_and_left _ _).mpr
    ⟨fun _ => id, Binding.findings?_eq_some_iff.mp accepted⟩
  obtain ⟨⟨_, position⟩, occurs, rfl, known, -⟩ := exists_of_forall₂ each.flip _ among
  exact ⟨position, List.mem_zipIdx_iff_getElem?.mp occurs, known⟩

namespace Template

variable {template : Template} {hints : Hints} {uri : Text} {found : Match}

/-- A binding of parts is found in one of their expressions. -/
theorem exists_finding_of_mem {captures : Captures Site} {parts : List Part} {index : Nat}
    {bindings : List Binding}
    (bound : bindingsFrom captures hints index parts = .ok (some bindings)) {binding : Binding}
    (member : binding ∈ bindings) :
    ∃ offset expression position, parts[offset]? = some (.expression expression) ∧
      expression.occurrences[position]? = some binding.occurrence ∧
      Binding.finding expression.operator (index + offset) (captures.evidence (index + offset))
        hints position binding.occurrence = .ok (.value binding.value) := by
  induction parts generalizing index bindings with
  | nil =>
    cases bound
    cases member
  | cons part parts ih =>
    -- What is found later stands one place further on.
    have further : ∀ later, bindingsFrom captures hints (index + 1) parts = .ok (some later) →
        binding ∈ later → ∃ offset expression position,
          (part :: parts)[offset]? = some (.expression expression) ∧
          expression.occurrences[position]? = some binding.occurrence ∧
          Binding.finding expression.operator (index + offset)
            (captures.evidence (index + offset)) hints position binding.occurrence =
              .ok (.value binding.value) := by
      intro later boundLater inside
      obtain ⟨offset, expression, position, placed, occurs, known⟩ := ih boundLater inside
      rw [Nat.add_right_comm, Nat.add_assoc] at known
      exact ⟨offset + 1, expression, position, placed, occurs, known⟩
    cases part with
    | literal part => exact further bindings bound member
    | expression expression =>
      obtain ⟨here, later, rfl, boundHere, boundLater⟩ := bindingsFrom_expression.mp bound
      rcases List.mem_append.mp member with inside | inside
      · obtain ⟨position, occurs, known⟩ := expression.exists_finding_of_mem boundHere inside
        exact ⟨0, expression, position, rfl, occurs, known⟩
      · exact further later boundLater inside

/-- Whether a binding is the list of an empty text that the bare name of a path parameter stands
for, though hints declare the variable to be a map. -/
structure BindsBareName (template : Template) (hints : Hints) (binding : Binding) : Prop where
  parameter : ∃ expression, Part.expression expression ∈ template.parts ∧
    expression.operator = .parameter ∧ binding.occurrence ∈ expression.occurrences
  plain : binding.occurrence.modifier = .plain
  mapped : binding.name ∈ hints.maps
  unlisted : binding.name ∉ hints.lists
  value_eq : binding.value = .list [[]]

/-- **Hints decide the form of every binding**, but for the bare name of a path parameter: where a
variable is truncated a text is bound, where its name is only among the lists a list, where it is
only among the maps a map, and where it is exploded no text. No list or map that is bound is
empty. -/
theorem match?_forms (matched : template.match? hints uri = .ok (some found)) {name : Text}
    {binding : Binding} (bound : found.bindings.get? name = some binding) :
    binding.name = name ∧ binding.occurrence ∈ template.occurrences ∧
      (binding.value.Suits hints binding.occurrence ∨ template.BindsBareName hints binding) := by
  obtain ⟨captures, bindings, captured, made, -, merged⟩ := match?_eq_some_iff.mp matched
  obtain ⟨named, represents⟩ := (Bindings.represent_ofList merged).present name binding bound
  obtain ⟨index, expression, position, placed, occurs, known⟩ :=
    exists_finding_of_mem made represents.mem
  rw [Nat.zero_add] at known
  obtain ⟨contents, shows⟩ := exists_contents captured placed occurs
  have part := List.mem_of_getElem? placed
  have inside := List.mem_of_getElem? occurs
  have among : binding.occurrence ∈ template.occurrences :=
    List.mem_flatMap.mpr ⟨.expression expression, part, inside⟩
  have consistent : hints.contradicts binding.occurrence = false := by
    by_contra contradicted
    obtain ⟨v, first⟩ := Option.isSome_iff_exists.mp
      (List.find?_isSome.mpr ⟨_, among, by simpa using contradicted⟩)
    cases matched.symm.trans (match?_of_contradicts first uri)
  refine ⟨named, among, (shows.suits_of_finding rfl consistent known).imp id ?_⟩
  rintro ⟨parameter, plain, mapped, unlisted, value⟩
  exact ⟨⟨expression, part, parameter, inside⟩, plain, mapped, unlisted, value⟩

/-- A list, a truncated text and a map of one query. -/
theorem match?_forms_query :
    let template : Template := ⟨[.expression ⟨.query, [⟨['l'], .exploded, rfl, rfl⟩,
      ⟨['p'], .truncated 2, rfl, rfl⟩, ⟨['m'], .exploded, rfl, rfl⟩], by simp⟩]⟩
    let hints : Hints := { lists := [['l']], maps := [['m']] }
    ∃ found, template.match? hints
        ['?', 'l', '=', '1', '&', 'l', '=', '&', 'p', '=', 'a', 'b', '&', 'k', '=', 'v'] =
          .ok (some found) ∧
      found.bindings.keys = [['l'], ['p'], ['m']] ∧
      ∀ name binding, found.bindings.get? name = some binding →
        binding.value.Suits hints binding.occurrence := by
  intro template hints
  let bindings : Bindings :=
    ⟨[(['l'], ⟨⟨['l'], .exploded, rfl, rfl⟩, .list [['1'], []]⟩),
      (['p'], ⟨⟨['p'], .truncated 2, rfl, rfl⟩, .text ['a', 'b']⟩),
      (['m'], ⟨⟨['m'], .exploded, rfl, rfl⟩, .map ⟨[(['k'], ['v'])], by decide⟩⟩)], by decide⟩
  have matched : template.match? hints
      ['?', 'l', '=', '1', '&', 'l', '=', '&', 'p', '=', 'a', 'b', '&', 'k', '=', 'v'] =
        .ok (some ⟨template, bindings⟩) := by decide +kernel
  refine ⟨_, matched, rfl, fun name binding bound => ?_⟩
  obtain ⟨-, -, suits | ⟨⟨expression, member, parameter, -⟩, -⟩⟩ := match?_forms matched bound
  · exact suits
  · obtain rfl := Part.expression.inj (List.mem_singleton.mp member)
    cases parameter

/-- The bare name of a path parameter is bound to a list, though hints declare it to be a map. -/
theorem match?_bareName :
    let v : Variable := ⟨['x'], .plain, rfl, rfl⟩
    let template : Template := ⟨[.expression ⟨.parameter, [v], by simp⟩]⟩
    let hints : Hints := { maps := [['x']] }
    ∃ found binding, template.match? hints [';', 'x'] = .ok (some found) ∧
      found.bindings.get? ['x'] = some binding ∧ binding.occurrence = v ∧
      v.name ∈ hints.maps ∧ v.name ∉ hints.lists ∧ binding.value = .list [[]] ∧
      ¬ binding.value.Suits hints binding.occurrence := by
  intro v template hints
  have matched : template.match? hints [';', 'x'] =
      .ok (some ⟨template, ⟨[(['x'], ⟨v, .list [[]]⟩)], by decide⟩⟩) := by decide +kernel
  refine ⟨_, ⟨v, .list [[]]⟩, matched, rfl, rfl, by decide, by decide, rfl, fun suits => ?_⟩
  cases suits.map_of_mapped (by decide) (by decide)

end Template

end UriTemplates
