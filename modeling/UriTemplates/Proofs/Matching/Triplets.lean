import UriTemplates.Proofs.Matching.Refusal
import UriTemplates.Proofs.Matching.Reordering
import UriTemplates.Proofs.Template.Triplets

/-!
# Matches do not see the case of triplets

Two texts that only differ in the case of triplets have the same match
(`Template.match?_uppercased`). The first reading is the same but for the case
(`Template.ignoresCase_pattern`), and what is found of it only depends on decoded texts, unless
captured texts are compared to tell which of them have a key. This does not happen where an exploded
variable with a name is declared to be either a list or a map: then every key has one value
(`Field.length_keys_of_shows`).
-/

namespace UriTemplates

open Captures (textsAt)
open Percent (uppercased)

/-- Captured texts with all triplets in upper case. -/
def Evidence.uppercased (evidence : Evidence) : Evidence :=
  fun index facet => (evidence index facet).map (List.map Percent.uppercased)

namespace Captures

variable {κ : Type} [DecidableEq κ]

/-- Captures with uppercased triplets show the uppercased texts. -/
theorem textsAt_uppercased (captures : Captures κ) (key : κ) :
    textsAt captures.uppercased key = (textsAt captures key).map Percent.uppercased := by
  induction captures with
  | nil => rfl
  | cons mark captures ih =>
    have cons : uppercased (mark :: captures) =
        (mark.1, mark.2.map Percent.uppercased) :: uppercased captures := rfl
    rw [cons, textsAt_cons, textsAt_cons, List.map_append, ih]
    congr 1
    split
    · cases mark.2 <;> rfl
    · rfl

/-- Captures with uppercased triplets are uppercased evidence. -/
theorem evidence_uppercased (captures : Captures Site) (part : Nat) :
    captures.uppercased.evidence part = (captures.evidence part).uppercased := by
  funext index facet
  rw [evidence, Evidence.uppercased, evidence]
  cases known : texts? captures ⟨part, index, facet⟩ with
  | none =>
    have nothing : textsAt captures ⟨part, index, facet⟩ = [] := by
      rw [← getD_texts?, known, Option.getD_none]
    rw [Option.map_none, Option.eq_none_iff_forall_ne_some]
    intro texts found
    obtain ⟨same, nonempty⟩ := texts?_eq_some_iff.mp found
    rw [textsAt_uppercased, nothing] at same
    exact nonempty same.symm
  | some texts =>
    obtain ⟨same, nonempty⟩ := texts?_eq_some_iff.mp known
    exact texts?_eq_some_iff.mpr
      ⟨by rw [textsAt_uppercased, same], mt List.map_eq_nil_iff.mp nonempty⟩

end Captures

namespace Binding

variable {hints : Hints} {v : Variable}

/-- Texts that are found are decoded. -/
theorem textsFinding_uppercased (values : List Text) :
    textsFinding hints v (values.map uppercased) = textsFinding hints v values := by
  unfold textsFinding
  cases v.modifier with
  | truncated length =>
    match values with
    | [] => rfl
    | [value] => simp [Percent.decode_uppercased]
    | _ :: _ :: _ => rfl
  | exploded =>
    match values with
    | [] => rfl
    | [value] => simp [Percent.decode_uppercased]
    | _ :: _ :: _ => simp [Percent.decode_uppercased]
  | plain =>
    match values with
    | [] => rfl
    | [value] => simp [Percent.decode_uppercased]
    | _ :: _ :: _ => simp [Percent.decode_uppercased]

/-- The case of triplets does not matter for the map that entries decode to. -/
theorem distinctMap?_uppercased (entries : List (Text × Text)) :
    distinctMap? (entries.map (Prod.map uppercased uppercased)) = distinctMap? entries := by
  rw [distinctMap?, List.foldlM_map]
  simp only [Prod.map_fst, Prod.map_snd, Percent.decode_uppercased]
  rfl

/-- Where every value has a key, only decoded texts matter. -/
theorem mapFinding_uppercased {values keys : List Text} (paired : values.length = keys.length)
    (part index : Nat) (items : Option (List Text)) :
    mapFinding part index v (values.map uppercased) (keys.map uppercased)
        (items.map (List.map uppercased)) =
      mapFinding part index v values keys items := by
  cases items with
  | none => rfl
  | some items =>
    have read : entries? v.name (values.map uppercased) (keys.map uppercased)
        (items.map uppercased) =
          some ((keys.zip items).map (Prod.map uppercased uppercased)) := by
      rw [entries?, if_pos (by simpa using paired), List.zip_map]
    have same : entries? v.name values keys items = some (keys.zip items) := by
      rw [entries?, if_pos paired]
    simp only [mapFinding, Option.map_some, read, same, distinctMap?_uppercased]

/-- **What is found does not depend on the case of triplets**, where every key has one value. -/
theorem finding_uppercased {operator : Operator} {part index : Nat} {evidence : Evidence}
    (paired : isRepeated operator v (evidence index .name) = false →
      (evidence index .key).getD [] ≠ [] →
        ((evidence index .value).getD []).length = ((evidence index .key).getD []).length) :
    finding operator part evidence.uppercased hints index v =
      finding operator part evidence hints index v := by
  have texts : ∀ facet, (evidence.uppercased index facet).getD [] =
      ((evidence index facet).getD []).map uppercased := by
    intro facet
    rw [Evidence.uppercased]
    cases evidence index facet <;> rfl
  have repeated : isRepeated operator v (evidence.uppercased index .name) =
      isRepeated operator v (evidence index .name) := by
    rw [isRepeated, isRepeated, texts, List.length_map]
  unfold finding
  rw [texts .value, texts .key, repeated]
  cases captured : (evidence index .value).getD [] with
  | nil => rfl
  | cons value values =>
    rw [captured] at paired
    simp only [List.map_cons]
    split
    · rfl
    rename_i unrepeated
    split
    · exact congrArg Except.ok (textsFinding_uppercased (value :: values))
    cases keyed : (evidence index .key).getD [] with
    | nil => exact congrArg Except.ok (textsFinding_uppercased (value :: values))
    | cons key keys =>
      rw [keyed] at paired
      exact mapFinding_uppercased (paired (Bool.eq_false_iff.mpr unrepeated) (List.cons_ne_nil _ _))
        part index (evidence index .item)

end Binding

namespace Field

variable {field : Field} {captures : Captures Site}

/-- Items of one content show the content. -/
theorem ShowsItems.shows {content : Option Content}
    (shows : field.ShowsItems (content.toList.flatMap field.steps) captures) :
    field.Shows content captures := by
  intro facet
  rw [shows.texts, List.flatMap_assoc]
  refine List.flatMap_congr fun known _ => ?_
  rw [field.marks_eq_steps known, Captures.textsAt_flatMap]

/-- A content that has keys has one value for each of them. -/
theorem length_keys_of_shows {content : Option Content} (shows : field.Shows content captures)
    (keyed : (captures.evidence field.part field.index .key).getD [] ≠ []) :
    ((captures.evidence field.part field.index .value).getD []).length =
      ((captures.evidence field.part field.index .key).getD []).length := by
  rw [keys_of_shows shows] at keyed ⊢
  rw [values_of_shows shows]
  cases content with
  | none => rfl
  | some content =>
    cases content with
    | texts written => exact (keyed rfl).elim
    | entries written => simp [units, Content.keys]

end Field

namespace Expression

variable {expression : Expression} {part : Nat} {hints : Hints} {captures : Captures Site}
  {text : Text} {marks : List (Site × Option Text)}

/-- What is captured of a field is captured of a single content, provided that its name is not
written too often and that hints declare an exploded variable with a name to be either a list or a
map. -/
theorem exists_shown_content
    (derived : (patternOf expression.operator (expression.fields part hints)).readings.Derives text
      marks)
    (shown : ∀ site, site.part = part → textsAt captures site = textsAt marks site)
    (formed : expression.operator.isNamed = true → ∀ v ∈ expression.occurrences,
      v.isExploded = true → (v.name ∈ hints.lists ↔ v.name ∉ hints.maps))
    {field : Field} (member : field ∈ expression.fields part hints)
    (unrepeated : Binding.isRepeated expression.operator field.occurrence
      (captures.evidence part field.index .name) = false) :
    ∃ content : Option Content, field.Shows content captures := by
  have isOf := expression.isOf_fields part hints field member
  have here := part_of_mem_fields member
  cases named : expression.operator.isNamed with
  | false =>
    obtain ⟨content, shows⟩ := exists_content_unnamed named derived shown member
    exact ⟨content, shows.shows⟩
  | true =>
    obtain ⟨contents, shows⟩ := exists_contents derived shown member
    obtain ⟨content, -, rfl⟩ := Field.exists_content_of_steps (isOf.operator_eq ▸ isOf)
      shows.admits (fun exploded => by
        obtain ⟨v, occurs, index, rfl⟩ := exists_of_mem_fields member
        exact Hints.forms_of_exploded exploded (formed named v occurs exploded))
      fun whole => shows.length_le_one whole (by rwa [isOf.operator_eq, here])
    exact ⟨content, shows.shows⟩

/-- **The bindings of an expression** do not depend on the case of triplets. -/
theorem bindings_uppercased
    (derived : (patternOf expression.operator (expression.fields part hints)).readings.Derives text
      marks)
    (shown : ∀ site, site.part = part → textsAt captures site = textsAt marks site)
    (formed : expression.operator.isNamed = true → ∀ v ∈ expression.occurrences,
      v.isExploded = true → (v.name ∈ hints.lists ↔ v.name ∉ hints.maps)) :
    expression.bindings part (captures.uppercased.evidence part) hints =
      expression.bindings part (captures.evidence part) hints := by
  rw [bindings, bindings, Binding.findings?_congr]
  intro v occurs
  rw [Captures.evidence_uppercased]
  refine Binding.finding_uppercased fun unrepeated keyed => ?_
  have member := expression.field_mem_fields hints part (List.mem_zipIdx_iff_getElem?.mp occurs)
  have here := part_of_mem_fields member
  obtain ⟨content, shows⟩ := exists_shown_content derived shown formed member unrepeated
  exact Field.length_keys_of_shows shows keyed

end Expression

namespace Template

variable {template : Template} {hints : Hints} {uri other : Text}

/-- Captures that give every expression the same bindings give all of them the same. -/
theorem bindingsFrom_congr {captures others : Captures Site} {parts : List Part} {index : Nat}
    (same : ∀ (offset : Nat) (expression : Expression),
      parts[offset]? = some (.expression expression) →
      expression.bindings (index + offset) (captures.evidence (index + offset)) hints =
        expression.bindings (index + offset) (others.evidence (index + offset)) hints) :
    bindingsFrom captures hints index parts = bindingsFrom others hints index parts := by
  induction parts generalizing index with
  | nil => rfl
  | cons part parts ih =>
    have later : bindingsFrom captures hints (index + 1) parts =
        bindingsFrom others hints (index + 1) parts := by
      refine ih fun offset expression placed => ?_
      have here := same (offset + 1) expression (by simpa using placed)
      rwa [show index + 1 + offset = index + (offset + 1) by omega]
    cases part with
    | literal part => exact later
    | expression part =>
      have here := same 0 part rfl
      rw [Nat.add_zero] at here
      rw [bindingsFrom, bindingsFrom, here, later]

/-- **A text in upper case has the same match**, whatever case its triplets have. -/
theorem match?_uppercased_self (plain : ∀ part ∈ template.parts, part.IsUnencoded)
    (formed : ∀ expression, Part.expression expression ∈ template.parts →
      expression.operator.isNamed = true → ∀ v ∈ expression.occurrences, v.isExploded = true →
        (v.name ∈ hints.lists ↔ v.name ∉ hints.maps)) (uri : Text) :
    template.match? hints (uppercased uri) = template.match? hints uri := by
  cases built : template.pattern hints with
  | error error =>
    rw [match?, match?, built]
    rfl
  | ok pattern =>
    rw [match?_eq_ofCaptures built, match?_eq_ofCaptures built,
      (ignoresCase_pattern plain built).whole?_uppercased]
    cases read : pattern.readings.whole? uri with
    | none => rfl
    | some captures =>
      obtain ⟨patterns, each, rfl⟩ := pattern_eq_ok_iff.mp built
      rw [Option.map_some, ofCaptures, ofCaptures, bindingsFrom_congr]
      intro offset expression placed
      rw [Nat.zero_add]
      obtain ⟨span, marks, derived, shown⟩ := Part.exists_derives_of_getElem? each
        (Readings.derives_of_whole? read) (fun _ _ => rfl) placed
      rw [Nat.zero_add] at derived shown
      exact Expression.bindings_uppercased derived shown
        (formed expression (List.mem_of_getElem? placed))

/-- **The case of triplets does not matter.** Where no percent sign stands in the literal texts and
the names of a template, and every exploded variable of an expression with names is declared to be
either a list or a map, two texts that only differ in the case of triplets have the same match, or
none, or the same error. -/
theorem match?_uppercased (plain : ∀ part ∈ template.parts, part.IsUnencoded)
    (formed : ∀ expression, Part.expression expression ∈ template.parts →
      expression.operator.isNamed = true → ∀ v ∈ expression.occurrences, v.isExploded = true →
        (v.name ∈ hints.lists ↔ v.name ∉ hints.maps))
    (same : uppercased uri = uppercased other) :
    template.match? hints uri = template.match? hints other := by
  rw [← match?_uppercased_self plain formed uri, same, match?_uppercased_self plain formed other]

/-- A truncated text of one code point and an item of a list, both encoded. -/
theorem match?_uppercased_query :
    ∃ found, Template.match?
      ⟨[.literal ⟨['x'], rfl⟩, .expression ⟨.query, [⟨['p'], .truncated 1, rfl, rfl⟩,
        ⟨['l'], .exploded, rfl, rfl⟩], by simp⟩]⟩ { lists := [['l']] }
      ['x', '?', 'p', '=', '%', 'c', '3', '%', 'A', '9', '&', 'l', '=', '%', '2', 'f'] =
        .ok (some found) ∧
      Template.match?
      ⟨[.literal ⟨['x'], rfl⟩, .expression ⟨.query, [⟨['p'], .truncated 1, rfl, rfl⟩,
        ⟨['l'], .exploded, rfl, rfl⟩], by simp⟩]⟩ { lists := [['l']] }
      ['x', '?', 'p', '=', '%', 'C', '3', '%', 'a', '9', '&', 'l', '=', '%', '2', 'F'] =
        .ok (some found) ∧
      found.bindings.values.entries = [(['p'], .text ['é']), (['l'], .list [['/']])] := by
  let p : Variable := ⟨['p'], .truncated 1, rfl, rfl⟩
  let l : Variable := ⟨['l'], .exploded, rfl, rfl⟩
  let query : Expression := ⟨.query, [p, l], by simp⟩
  let template : Template := ⟨[.literal ⟨['x'], rfl⟩, .expression query]⟩
  let hints : Hints := { lists := [['l']] }
  let uri : Text :=
    ['x', '?', 'p', '=', '%', 'c', '3', '%', 'A', '9', '&', 'l', '=', '%', '2', 'f']
  let other : Text :=
    ['x', '?', 'p', '=', '%', 'C', '3', '%', 'a', '9', '&', 'l', '=', '%', '2', 'F']
  let bindings : Bindings :=
    ⟨[(['p'], ⟨p, .text ['é']⟩), (['l'], ⟨l, .list [['/']]⟩)], by decide⟩
  have matched : template.match? hints uri = .ok (some ⟨template, bindings⟩) := by decide +kernel
  have literal : '%' ∉ ['x'] := by decide
  have names : '%' ∉ p.name ∧ '%' ∉ l.name := by decide
  have plain : ∀ part ∈ template.parts, part.IsUnencoded :=
    forall_mem_pair.mpr ⟨literal, forall_mem_pair.mpr names⟩
  have formed : ∀ expression, Part.expression expression ∈ template.parts →
      expression.operator.isNamed = true → ∀ v ∈ expression.occurrences, v.isExploded = true →
        (v.name ∈ hints.lists ↔ v.name ∉ hints.maps) := by
    intro expression member _ v occurs exploded
    obtain rfl : expression = query := by simpa [template] using member
    rcases List.mem_pair.mp occurs with rfl | rfl
    · cases exploded
    · decide
  have same : uppercased uri = uppercased other := by decide +kernel
  exact ⟨_, matched, (match?_uppercased plain formed same).symm.trans matched, rfl⟩

end Template

end UriTemplates
