import UriTemplates.Proofs.Matching.Findings

/-!
# Why a match is refused

Hints are refused that declare a truncated variable to be a list or a map, before the URI is looked
at, and the first such variable of the template is named (`Template.match?_of_contradicts`). Other
hints give a pattern, and what it captures can always be read: only bindings of a name that occurs
twice may contradict each other (`Template.match?_of_consistent`). Both together are
`Template.match?_outcome`, with what makes captures readable: where a map is captured, every value
has one entry, and every key comes with an item and is used.
-/

namespace UriTemplates

namespace Hints

/-- Whether hints declare a variable to be a list or a map though its value is truncated. -/
def contradicts (hints : Hints) (v : Variable) : Bool :=
  v.length?.isSome && (hints.lists.contains v.name || hints.maps.contains v.name)

/-- Why hints are refused for a variable that they contradict: a list is named before a map. -/
def refusal (hints : Hints) (v : Variable) : Error :=
  .truncatedDeclared v.name (if v.name ∈ hints.lists then .list else .map)

/-- A contradicted truncation is refused in the words of the hint. -/
theorem contradiction?_eq (hints : Hints) (v : Variable) :
    Expression.contradiction? hints v =
      if hints.contradicts v then some (hints.refusal v) else none := by
  unfold Expression.contradiction? contradicts refusal
  cases v.length? with
  | none => rfl
  | some length =>
    by_cases listed : v.name ∈ hints.lists
    · simp [listed]
    · by_cases mapped : v.name ∈ hints.maps
      · simp [listed, mapped]
      · simp [listed, mapped]

end Hints

variable {hints : Hints}

/-- The first variable that hints contradict is the one that is refused. -/
theorem Expression.findSome?_contradiction? (hints : Hints) (occurrences : List Variable) :
    occurrences.findSome? (contradiction? hints) =
      (occurrences.find? hints.contradicts).map hints.refusal := by
  induction occurrences with
  | nil => rfl
  | cons v rest ih =>
    rw [List.findSome?_cons, hints.contradiction?_eq, List.find?_cons]
    cases hints.contradicts v with
    | true => rfl
    | false => exact ih

/-- A part has a pattern unless hints contradict one of its variables, and then the first of these
is refused. -/
theorem Part.pattern_eq (part : Part) (index : Nat) (hints : Hints) :
    match part.occurrences.find? hints.contradicts with
    | some v => part.pattern index hints = .error (hints.refusal v)
    | none => ∃ pattern, part.pattern index hints = .ok pattern := by
  cases part with
  | literal part => exact ⟨_, rfl⟩
  | expression part =>
    simp only [Part.occurrences, Part.pattern, Expression.pattern,
      Expression.findSome?_contradiction?]
    cases part.occurrences.find? hints.contradicts with
    | some v => rfl
    | none => exact ⟨_, rfl⟩

/-- Parts have patterns unless hints contradict one of their variables, and then the first such
variable is named. -/
theorem Part.patterns_eq (parts : List Part) (index : Nat) (hints : Hints) :
    match (parts.flatMap Part.occurrences).find? hints.contradicts with
    | some v => Part.patterns index hints parts = .error (hints.refusal v)
    | none => ∃ patterns, Part.patterns index hints parts = .ok patterns := by
  induction parts generalizing index with
  | nil => exact ⟨[], rfl⟩
  | cons part parts ih =>
    have here := part.pattern_eq index hints
    have later := ih (index + 1)
    rw [List.flatMap_cons, List.find?_append, Part.patterns]
    cases found : part.occurrences.find? hints.contradicts with
    | some v =>
      rw [found] at here
      simp only at here
      rw [here]
      rfl
    | none =>
      rw [found] at here
      obtain ⟨first, built⟩ := here
      rw [built, Option.none_or]
      cases foundLater : (parts.flatMap Part.occurrences).find? hints.contradicts with
      | some v =>
        rw [foundLater] at later
        simp only at later
        rw [later]
        rfl
      | none =>
        rw [foundLater] at later
        obtain ⟨rest, builtLater⟩ := later
        exact ⟨first :: rest, by rw [builtLater]; rfl⟩

namespace Template

variable {template : Template} {uri : Text}

/-- **Hints that contradict a truncated variable are refused**, whatever the URI is. -/
theorem match?_of_contradicts {v : Variable}
    (first : template.occurrences.find? hints.contradicts = some v) (uri : Text) :
    template.match? hints uri = .error (hints.refusal v) := by
  have built := Part.patterns_eq template.parts 0 hints
  rw [occurrences] at first
  rw [first] at built
  rw [match?, pattern, built]
  rfl

/-- **Other hints are not refused**, and only bindings of a name that occurs twice can contradict
each other. -/
theorem match?_of_consistent (consistent : template.occurrences.find? hints.contradicts = none)
    (uri : Text) :
    (∃ result, template.match? hints uri = .ok result) ∨
      ∃ name, template.match? hints uri = .error (.inconsistentBinding name) ∧
        2 ≤ (template.occurrences.map Variable.name).count name := by
  have built := Part.patterns_eq template.parts 0 hints
  rw [occurrences] at consistent
  rw [consistent] at built
  obtain ⟨patterns, built⟩ := built
  have pattern := pattern_eq_ok_iff.mpr ⟨patterns, built, rfl⟩
  rw [match?_eq_ofCaptures pattern]
  cases read : (Pattern.seq patterns).readings.whole? uri with
  | none => exact .inl ⟨none, rfl⟩
  | some captures =>
    obtain ⟨result, bound, inOrder, -⟩ :=
      exists_bindingsFrom built (Readings.derives_of_whole? read) fun _ _ => rfl
    cases result with
    | none => exact .inl ⟨none, by rw [ofCaptures, bound]; rfl⟩
    | some bindings =>
      refine (ofCaptures_of_bindings bound (inOrder bindings rfl)).imp_left ?_
      rintro ⟨found, given⟩
      exact ⟨some found, given⟩

/-- Why a match is refused: hints contradict a variable, or bindings contradict each other. -/
theorem match?_eq_error {error : Error} (refused : template.match? hints uri = .error error) :
    (∃ v ∈ template.occurrences, hints.contradicts v = true ∧ error = hints.refusal v) ∨
      ∃ name, error = .inconsistentBinding name ∧
        2 ≤ (template.occurrences.map Variable.name).count name := by
  cases first : template.occurrences.find? hints.contradicts with
  | some v =>
    rw [match?_of_contradicts first uri] at refused
    exact .inl ⟨v, List.mem_of_find?_eq_some first, List.find?_some first,
      (Except.error.inj refused).symm⟩
  | none =>
    rcases match?_of_consistent first uri with ⟨result, same⟩ | ⟨name, same, twice⟩
    · cases same.symm.trans refused
    · exact .inr ⟨name, (Except.error.inj (same.symm.trans refused)).symm, twice⟩

/-- **The outcome of a match.** It is refused just where hints declare a truncated variable to be a
list or a map: the first such variable is named, as a list if it is declared to be both. Else there
is a match, or none, or a name that occurs twice has bindings that contradict each other. Nothing
that is captured fails to be read: where keys are captured of a variable whose name was not written
too often, there are as many items, every value has one entry, and every pair of a key and an item
is used. -/
theorem match?_outcome (template : Template) (hints : Hints) (uri : Text) :
    (match template.occurrences.find? hints.contradicts with
      | some v => ∃ error, template.match? hints uri = .error error ∧
          error = .truncatedDeclared v.name (if v.name ∈ hints.lists then .list else .map) ∧
          error.message = String.join ["Cannot treat variable '", v.name.toString,
            "' with a prefix modifier as a ", if v.name ∈ hints.lists then "list" else "map"]
      | none => (∃ result, template.match? hints uri = .ok result) ∨
          ∃ name, template.match? hints uri = .error (.inconsistentBinding name) ∧
            2 ≤ (template.occurrences.map Variable.name).count name) ∧
    ∀ captures, template.capture hints uri = .ok (some captures) →
      ∀ index expression, template.parts[index]? = some (.expression expression) →
        ∀ position v keys, expression.occurrences[position]? = some v →
          captures.evidence index position .key = some keys →
          Binding.isRepeated expression.operator v
            (captures.evidence index position .name) = false →
          ∃ values items entries,
            captures.evidence index position .value = some values ∧
            captures.evidence index position .item = some items ∧ items.length = keys.length ∧
            Binding.entries? v.name values keys items = some entries ∧
            entries.length = values.length ∧
            Binding.Paired v.name values (keys.zip items) entries := by
  constructor
  · cases first : template.occurrences.find? hints.contradicts with
    | some v =>
      refine ⟨_, match?_of_contradicts first uri, rfl, ?_⟩
      rw [Hints.refusal, Error.message]
      split_ifs with listed
      · rfl
      · rfl
    | none => exact match?_of_consistent first uri
  · intro captures captured index expression placed position v keys occurs keyed unrepeated
    obtain ⟨contents, shows⟩ := exists_contents captured placed occurs
    obtain ⟨values, items, entries, valued, itemized, paired, read, each⟩ :=
      shows.exists_paired keyed unrepeated
    exact ⟨values, items, entries, valued, itemized, paired, read, each.length_eq, each⟩

/-- An item under the name of the variable stands before the entry of another key. -/
theorem match?_outcome_mixed :
    ∃ captures entries,
      Template.capture ⟨[.expression ⟨.query, [⟨['v'], .exploded, rfl, rfl⟩], by simp⟩]⟩ {}
        ['?', 'v', '=', 'a', '&', 'k', '=', 'b'] = .ok (some captures) ∧
      captures.evidence 0 0 .key = some [['k']] ∧
      Binding.entries? ['v'] [['a'], ['k', '=', 'b']] [['k']] [['b']] = some entries ∧
      Binding.Paired ['v'] [['a'], ['k', '=', 'b']] [(['k'], ['b'])] entries := by
  let v : Variable := ⟨['v'], .exploded, rfl, rfl⟩
  let query : Expression := ⟨.query, [v], by simp⟩
  let template : Template := ⟨[.expression query]⟩
  let uri : Text := ['?', 'v', '=', 'a', '&', 'k', '=', 'b']
  let captures : Captures Site :=
    [(⟨0, 0, .name⟩, some ['v']), (⟨0, 0, .value⟩, some ['a']),
      (⟨0, 0, .value⟩, some ['k', '=', 'b']), (⟨0, 0, .key⟩, some ['k']),
      (⟨0, 0, .item⟩, some ['b'])]
  have captured : template.capture {} uri = .ok (some captures) := by decide +kernel
  obtain ⟨values, items, entries, valued, itemized, -, read, -, paired⟩ :=
    (match?_outcome template {} uri).2 captures captured 0 query rfl 0 v [['k']] rfl rfl rfl
  obtain rfl : [['a'], ['k', '=', 'b']] = values := Option.some.inj valued
  obtain rfl : [['b']] = items := Option.some.inj itemized
  exact ⟨captures, entries, captured, rfl, read, paired⟩

end Template

end UriTemplates
