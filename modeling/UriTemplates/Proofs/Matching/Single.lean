import UriTemplates.Proofs.Matching.Retrieval
import UriTemplates.Proofs.Template.Runs

/-!
# The round trip of a single variable

An expression without names whose only variable is not truncated gives its value back
(`Template.match_single`), provided that the texts of the value do not hold what is written
between them (`Operator.SetsApart`). This only matters where the characters between the texts
are not percent-encoded.
-/

namespace UriTemplates

/-- The texts that a list or a map holds. -/
def Value.texts : Value → List Text
  | .list items => items
  | .map known => known.entries.flatMap fun entry => [entry.1, entry.2]
  | _ => []

/-- The keys of a map. -/
def Value.keys : Value → List Text
  | .map known => known.keys
  | _ => []

namespace Operator

/-- Whether the texts of a value do not hold the characters that an operator leaves as they are
and writes between them. -/
structure SetsApart (operator : Operator) (v : Variable) (value : Value) : Prop where
  comma : operator.allowsReserved = true → ∀ text ∈ value.texts, ',' ∉ text
  equals : operator.allowsReserved = true → v.isExploded = true → ∀ key ∈ value.keys, '=' ∉ key
  dot : operator = .label → v.isExploded = true → ∀ text ∈ value.texts, '.' ∉ text

/-- An encoded text does not hold a reserved character that the text itself does not hold. -/
theorem notMem_encode {operator : Operator} {c : Char} (refused : Percent.isKept false c = false)
    (notPercent : c ≠ '%') (notDigit : Text.isHexDigit c = false) {text : Text}
    (apart : operator.allowsReserved = true → c ∉ text) : c ∉ operator.encode text := by
  rw [encode]
  cases reserved : operator.allowsReserved with
  | false => exact (Percent.written_encode text).notMem refused notPercent
  | true => exact Percent.notMem_encode notPercent notDigit (apart reserved)

/-- Without names, values are separated by commas, or by the symbol of a label or of a path. -/
theorem separator_of_unnamed {operator : Operator} (unnamed : operator.isNamed = false) :
    operator.separator = ',' ∨ operator = .label ∧ operator.separator = '.' ∨
      operator = .path ∧ operator.separator = '/' := by
  cases operator with
  | simple => exact .inl rfl
  | reserved => exact .inl rfl
  | fragment => exact .inl rfl
  | label => exact .inr (.inl ⟨rfl, rfl⟩)
  | path => exact .inr (.inr ⟨rfl, rfl⟩)
  | _ => cases unnamed

theorem contribution_of_untruncated {operator : Operator} {v : Variable}
    (untruncated : v.length? = none) (value : Value) :
    ∃ contributed, operator.contribution v value = .ok contributed := by
  cases value with
  | undefined => exact ⟨_, rfl⟩
  | text text => exact ⟨_, rfl⟩
  | list items =>
    simp only [contribution, untruncated, Option.isSome_none, Bool.false_eq_true, ↓reduceIte]
    split_ifs
    · exact ⟨_, rfl⟩
    · exact ⟨_, rfl⟩
  | map map =>
    simp only [contribution, untruncated, Option.isSome_none, Bool.false_eq_true, ↓reduceIte]
    split_ifs
    · exact ⟨_, rfl⟩
    · exact ⟨_, rfl⟩

end Operator

namespace Field

variable {field : Field} {value : Value}

/-- What is written for a text of a value that is set apart does not hold the separator of items. -/
theorem itemSeparator_notMem (unnamed : field.operator.isNamed = false)
    (apart : field.operator.SetsApart field.occurrence value) :
    ∀ text ∈ value.texts, field.itemSeparator ∉ field.operator.encode text := by
  intro text member
  have comma : ',' ∉ field.operator.encode text := Operator.notMem_encode (by decide) (by decide)
    (by decide) fun reserved => apart.comma reserved text member
  unfold itemSeparator
  split_ifs with exploded
  · rcases Operator.separator_of_unnamed unnamed with same | ⟨label, same⟩ | ⟨path, same⟩
    · rw [same]
      exact comma
    · rw [same]
      exact Percent.notMem_encode (by decide) (by decide) (apart.dot label exploded text member)
    · rw [same, path]
      exact (Percent.written_encode text).notMem (by decide) (by decide)
  · exact comma

/-- What is written for a key of a value that is set apart does not hold the character after keys.
-/
theorem keySeparator_notMem (apart : field.operator.SetsApart field.occurrence value) {key : Text}
    (isKey : key ∈ value.keys) (isText : key ∈ value.texts) :
    field.keySeparator ∉ field.operator.encode key := by
  unfold keySeparator
  split_ifs with exploded
  · exact Operator.notMem_encode (by decide) (by decide) (by decide) fun reserved =>
      apart.equals reserved exploded key isKey
  · exact Operator.notMem_encode (by decide) (by decide) (by decide) fun reserved =>
      apart.comma reserved key isText

/-- **A value is read as it was written**, if hints say what it is and its texts are set
apart. -/
theorem whole?_unnamed {hints : Hints} {content : Content}
    (unnamed : field.operator.isNamed = false) (untruncated : field.occurrence.length? = none)
    (forms : field.forms = hints.forms field.occurrence)
    (tells : hints.Tells field.occurrence value)
    (apart : field.operator.SetsApart field.occurrence value)
    (known : field.content? value = some content) :
    field.unnamed.readings.whole? (field.written content) = some (field.marks content) := by
  have separated := itemSeparator_notMem unnamed apart
  cases value with
  | undefined => cases known
  | text text =>
    obtain ⟨noList, noMap⟩ := tells.text text rfl
    obtain rfl := Option.some.inj known
    refine whole?_unnamed_text unnamed untruncated ?_ (field.isWritten_encode _)
    simp [forms, Hints.forms, tells.whole_of_text rfl, noList, noMap]
  | list items =>
    obtain ⟨isList, noMap⟩ := tells.list items rfl
    simp only [content?, Operator.content?] at known
    split_ifs at known with empty
    obtain rfl := Option.some.inj known
    refine whole?_unnamed_list unnamed untruncated ?_ ?_ (by simpa using empty) ?_ ?_
    · simp [forms, Hints.forms, isList]
    · simp [forms, Hints.forms, isList]
    · exact List.forall_mem_map.mpr fun item _ => field.isWritten_encode item
    · exact List.forall_mem_map.mpr fun item member => separated item member
  | map map =>
    obtain ⟨isMap, noList⟩ := tells.map map rfl
    simp only [content?, Operator.content?] at known
    split_ifs at known with empty
    obtain rfl := Option.some.inj known
    refine whole?_unnamed_map unnamed untruncated ?_ ?_ ?_ ?_ ?_ ?_
    · simp [forms, Hints.forms, isMap]
    · simp [forms, Hints.forms, isMap, noList]
    · simp [forms, Hints.forms, isMap]
    · simpa [OrderedMap.isEmpty] using empty
    · exact List.forall_mem_map.mpr fun entry _ =>
        ⟨field.isWritten_encode _, field.isWritten_encode _⟩
    · refine List.forall_mem_map.mpr fun entry member => ?_
      have texts : entry.1 ∈ (Value.map map).texts ∧ entry.2 ∈ (Value.map map).texts :=
        ⟨List.mem_flatMap.mpr ⟨entry, member, by simp⟩,
          List.mem_flatMap.mpr ⟨entry, member, by simp⟩⟩
      exact ⟨keySeparator_notMem apart (List.mem_map_of_mem member) texts.1,
        separated _ texts.2⟩

end Field

/-- An expression without names and with a single field reads what the field reads. -/
theorem Expression.whole?_patternOf_single {operator : Operator} {field : Field}
    (unnamed : operator.isNamed = false) (same : field.operator = operator) {text : Text}
    {marks : List (Site × Option Text)} (read : field.unnamed.readings.whole? text = some marks) :
    (patternOf operator [field]).readings.whole? (operator.assemble [text]) = some marks := by
  have after : ∀ symbol, (Pattern.seq [.literal symbol, field.unnamed]).readings.whole?
      (symbol ++ text) = some marks := by
    intro symbol
    rw [Pattern.whole?_seq_literal, Pattern.readings_seq_single, read]
  have segment : (Pattern.seq [field.segment]).readings.whole? (operator.symbol ++ text) =
      some marks := by
    rw [Pattern.readings_seq_single, Field.segment, same]
    split_ifs
    · exact after _
    · exact Pattern.whole?_optional_of_whole? (after _)
  have assembled : operator.assemble [text] = operator.first ++ text := by
    simp [Operator.assemble]
  rw [assembled]
  cases operator with
  | simple => exact Pattern.whole?_optional_of_whole? read
  | reserved => exact Pattern.whole?_optional_of_whole? read
  | fragment => exact Pattern.whole?_optional_of_whole? (after ['#'])
  | label => exact segment
  | path => exact segment
  | _ => cases unnamed

/-- Without a truncation, a value that contributes is kept whole. -/
theorem Variable.kept?_of_untruncated {v : Variable} (untruncated : v.length? = none)
    {value : Value} (defined : value ≠ .undefined) (nonempty : value.isEmptyComposite = false) :
    v.kept? value = some value := by
  cases value with
  | undefined => exact (defined rfl).elim
  | text text => simp [kept?, kept, untruncated]
  | list items =>
    have some_ : items.isEmpty = false := nonempty
    simp [kept?, some_]
  | map map =>
    have some_ : map.isEmpty = false := nonempty
    simp [kept?, some_]

namespace Template

variable {template : Template} {before after : List Literal} {expression : Expression}
  {environment : Environment} {hints : Hints} {v : Variable} {value : Value}

/-- **Round trip of a single variable.** An expression without names whose only variable is not
truncated, with literal text around it, expands with any value that leaves a trace, and matching
the expansion binds the variable to just this value, if hints say what the value is and its
texts do not hold what is written between them. -/
theorem match_single
    (parts : template.parts = Part.literals before ++ .expression expression :: Part.literals after)
    (unnamed : expression.operator.isNamed = false) (single : expression.occurrences = [v])
    (untruncated : v.length? = none) (bound : environment.value v.name = value)
    (defined : value ≠ .undefined) (nonempty : value.isEmptyComposite = false)
    (tells : hints.Tells v value) (apart : expression.operator.SetsApart v value) :
    ∃ (expansion : Text) (bindings : Bindings),
      template.expand environment = .ok expansion ∧
        template.match? hints expansion = .ok (some ⟨template, bindings⟩) ∧
        bindings.values.entries = [(v.name, value)] := by
  subst bound
  have own : ∀ w ∈ expression.occurrences, w = v := by simp [single]
  obtain ⟨expansion, expanded⟩ : ∃ expansion, template.expand environment = .ok expansion := by
    refine exists_expand_iff.mpr fun other member => Expression.exists_expand_iff.mpr ?_
    obtain rfl : other = expression := by simpa [parts, Part.literals] using member
    intro w occurs
    rw [own w occurs]
    exact Operator.contribution_of_untruncated untruncated _
  have kept := Variable.kept?_of_untruncated untruncated defined nonempty
  have read : ∀ text, expression.expand environment = .ok text →
      (Expression.patternOf expression.operator
        (expression.fields before.length hints)).readings.whole? text =
          some (expression.selection before.length hints environment).marks := by
    intro text expandedHere
    let field := expression.field before.length hints v 0
    have some_ : (field.content? (environment.value v.name)).isSome = true :=
      Field.isSome_content? defined nonempty
    obtain ⟨content, known⟩ := Option.isSome_iff_exists.mp some_
    have selected : expression.selection before.length hints environment =
        [(field, some content)] := by
      rw [Expression.selection_single before.length hints single, ← known]
    rw [expression.expand_eq before.length hints expandedHere, selected,
      Expression.fields_single before.length hints single]
    simpa [Selection.contributions, Selection.marks] using
      Expression.whole?_patternOf_single unnamed rfl
        (Field.whole?_unnamed unnamed untruncated rfl tells apart known)
  obtain ⟨bindings, matched, entries⟩ := match?_between parts (by simp [single])
    (fun w occurs => own w occurs ▸ .of_tells tells) expanded read
  refine ⟨expansion, bindings, expanded, matched, entries.trans ?_⟩
  simp [Environment.restricted, single, kept]

/-- An exploded map whose items hold what stands after its keys, and whose last entry is
empty, before a literal comma. -/
theorem match_single_fragment :
    ∃ found, Template.match?
      ⟨[.literal ⟨['p'], rfl⟩, .expression ⟨.fragment, [⟨['v'], .exploded, rfl, rfl⟩], by simp⟩,
        .literal ⟨[',', 'q'], rfl⟩]⟩ { maps := [['v']] }
      ['p', '#', 'a', '/', 'b', '=', '1', '=', '2', ',', '=', ',', 'q'] = .ok (some found) ∧
      found.bindings.values.entries =
        [(['v'], .map ⟨[(['a', '/', 'b'], ['1', '=', '2']), ([], [])], by decide⟩)] := by
  let v : Variable := ⟨['v'], .exploded, rfl, rfl⟩
  let expression : Expression := ⟨.fragment, [v], by simp⟩
  let template : Template :=
    ⟨Part.literals [⟨['p'], rfl⟩] ++ .expression expression :: Part.literals [⟨[',', 'q'], rfl⟩]⟩
  let value : Value := .map ⟨[(['a', '/', 'b'], ['1', '=', '2']), ([], [])], by decide⟩
  let environment : Environment := ⟨[(['v'], value)], by decide⟩
  have tells : Hints.Tells { maps := [['v']] } v value :=
    ⟨nofun, fun _ _ => by decide, nofun, nofun, fun _ => by decide,
      fun hinted => absurd hinted (by decide)⟩
  have apart : expression.operator.SetsApart v value :=
    ⟨fun _ => by decide, fun _ _ => by decide, fun label => absurd label (by decide)⟩
  have bound : environment.value v.name = value := rfl
  have known : template.expand environment = .ok ['p', '#', 'a', '/', 'b', '=', '1', '=', '2', ',',
      '=', ',', 'q'] := by decide +kernel
  obtain ⟨expansion, bindings, expanded, matched, entries⟩ :=
    match_single rfl rfl rfl rfl bound nofun rfl tells apart
  obtain rfl := Except.ok.inj (expanded.symm.trans known)
  exact ⟨⟨template, bindings⟩, matched, entries⟩

end Template

end UriTemplates
