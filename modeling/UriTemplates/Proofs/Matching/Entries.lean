import UriTemplates.Proofs.Binding.Mixed
import UriTemplates.Proofs.Expansion.Language
import UriTemplates.Proofs.Matching.Findings
import UriTemplates.Proofs.Template.Determined

/-!
# Entries under any name

Without hints, an exploded variable with a name takes items under any name: an item under its own
name is read as a text of a list, every other one as an entry of a map (`Field.whole?_entries`).
Where a match finds entries of both kinds, it binds a map. The map has just the entries of the URI
in their order, and expands to the URI, unless an item under the name of the variable comes before
an item with its text for a key and no text of its own (`Template.match?_entries`).
-/

namespace UriTemplates

open Captures (textsAt)

/-- An item as a key and a text, which is empty where the item has no equals sign. -/
def Text.entry (item : Text) : Text × Text :=
  ((cut '=' item).1, (cut '=' item).2.getD [])

/-- The entries that a text of an expression with names is made of. -/
def Operator.entriesOf (operator : Operator) : Text → List (Text × Text)
  | [] => []
  | _ :: items => (Text.fields operator.separator items).map Text.entry

/-- Entries as an expression with names writes them. -/
def Operator.writtenEntries (operator : Operator) (entries : List (Text × Text)) : Text :=
  operator.assemble (entries.map fun entry => operator.withName entry.1 entry.2)

/-- A text after a key without an equals sign is taken apart into this key and the text. -/
theorem Text.entry_withName {operator : Operator} (named : operator.isNamed = true) {key : Text}
    (apart : '=' ∉ key) (text : Text) : Text.entry (operator.withName key text) = (key, text) := by
  by_cases parameter : operator = .parameter
  · rw [Field.withName_of_parameter parameter, Field.parameterSuffix]
    split_ifs with empty
    · simp [entry, cut_of_notMem apart, empty]
    · simp [entry, cut_append apart]
  · rw [Field.withName_of_query named parameter]
    simp [entry, cut_append apart]

namespace Field

variable {field : Field} {entry : Text × Text} {entries : List (Text × Text)}

/-- What entries are written as does not hold the separator. -/
theorem separator_notMem_withName (named : field.operator.isNamed = true)
    (written : ∀ entry ∈ entries, field.IsWritten entry.1 ∧ field.IsWritten entry.2) :
    ∀ item ∈ entries.map (fun entry => field.operator.withName entry.1 entry.2),
      field.operator.separator ∉ item := by
  intro item member
  obtain ⟨entry, found, rfl⟩ := List.mem_map.mp member
  have apart := Operator.isApart_separator named
  exact notMem_withName apart (notMem_of_isWritten apart (written entry found).1)
    (notMem_of_isWritten apart (written entry found).2)

/-- **Entries are found again** in what they are written as. -/
theorem entriesOf_writtenEntries (named : field.operator.isNamed = true) (nonempty : entries ≠ [])
    (written : ∀ entry ∈ entries, field.IsWritten entry.1 ∧ field.IsWritten entry.2) :
    field.operator.entriesOf (field.operator.writtenEntries entries) = entries := by
  have single : ∃ c, field.operator.first = [c] := by
    cases operator : field.operator <;> simp_all [Operator.isNamed, Operator.first]
  obtain ⟨c, first⟩ := single
  rw [Operator.writtenEntries, Operator.assemble, if_neg (by simpa using nonempty), first,
    List.singleton_append, Operator.entriesOf, Text.fields_joined (by simpa using nonempty)
      (separator_notMem_withName named written), List.map_map]
  refine (List.map_congr_left fun entry member => ?_).trans (List.map_id entries)
  exact Text.entry_withName named (equals_notMem named (written entry member).1) entry.2

/-- The content that an exploded field has for an entry: a text if the entry stands under its
name. -/
def ofEntry (field : Field) (entry : Text × Text) : Content :=
  if entry.1 = field.occurrence.name then .texts [entry.2] else .entries [entry]

/-- An item of an exploded field is written as an entry. -/
theorem exists_entry (named : field.operator.isNamed = true)
    (exploded : field.occurrence.isExploded = true) {content : Content}
    (admitted : field.AdmitsItem content) :
    ∃ entry : Text × Text, (field.IsWritten entry.1 ∧ field.IsWritten entry.2) ∧
      field.written content = field.operator.withName entry.1 entry.2 := by
  have single := admitted.2 exploded
  cases content with
  | texts texts =>
    obtain ⟨text, rfl⟩ := List.length_eq_one_iff.mp single
    exact ⟨(field.occurrence.name, text), ⟨field.occurrence.written_name _,
      admitted.1.2.1 text List.mem_cons_self⟩, written_text_of_exploded exploded text⟩
  | entries entries =>
    obtain ⟨entry, rfl⟩ := List.length_eq_one_iff.mp single
    exact ⟨entry, admitted.1.2.1 entry List.mem_cons_self,
      written_entry_of_exploded named exploded entry⟩

/-- A field that may only be a list. -/
def listed (field : Field) : Field :=
  { field with forms := ⟨false, true, false⟩ }

/-- A field that may only be a map. -/
def mapped (field : Field) : Field :=
  { field with forms := ⟨false, false, true⟩ }

/-- An exploded field is read as an item of a list before it is read as an entry of a map. -/
theorem whole?_named_either (exploded : field.occurrence.isExploded = true)
    (forms : field.forms = ⟨false, true, true⟩) (text : Text) :
    field.named.readings.whole? text =
      (field.listed.named.readings.whole? text).or (field.mapped.named.readings.whole? text) := by
  have modifier := modifier_of_exploded exploded
  have options : ∀ asText asList asMap : Pattern Site,
      (field.options asText asList asMap).readings.whole? text =
        ((field.listed.options asText asList asMap).readings.whole? text).or
          ((field.mapped.options asText asList asMap).readings.whole? text) := by
    intro asText asList asMap
    have both : field.options asText asList asMap = .amongst [asList, asMap] := by
      simp [Field.options, forms]
    rw [both, Pattern.whole?_amongst, List.findSome?_cons]
    cases read : asList.readings.whole? text <;>
      simp [Field.options, listed, mapped, Pattern.amongst, read]
  have operator : field.listed.operator = field.operator ∧ field.mapped.operator = field.operator :=
    ⟨rfl, rfl⟩
  have modifiers : field.listed.occurrence.modifier = .exploded ∧
      field.mapped.occurrence.modifier = .exploded := ⟨modifier, modifier⟩
  unfold Field.named
  rw [operator.1, operator.2]
  split_ifs
  · simp only [parameterItem, modifier, modifiers.1, modifiers.2]
    exact options _ _ _
  · simp only [queryItem, modifier, modifiers.1, modifiers.2]
    exact options _ _ _

/-- A text is the content of an item under the name of an exploded field that may be a list. -/
theorem admitsItem_text (exploded : field.occurrence.isExploded = true)
    (formed : field.forms.list = true) {text : Text} (written : field.IsWritten text) :
    field.AdmitsItem (.texts [text]) := by
  refine ⟨⟨List.cons_ne_nil _ _, by simpa using written, ?_⟩, fun _ => rfl⟩
  simp only [AdmitsTexts, modifier_of_exploded exploded]
  exact .inl formed

/-- An entry is the content of an item of an exploded field that may be a map. -/
theorem admitsItem_entry (exploded : field.occurrence.isExploded = true)
    (formed : field.forms.map = true)
    (written : field.IsWritten entry.1 ∧ field.IsWritten entry.2) :
    field.AdmitsItem (.entries [entry]) :=
  ⟨⟨List.cons_ne_nil _ _, by simpa using written, formed,
    by simp [Variable.length?, modifier_of_exploded exploded]⟩, fun _ => rfl⟩

/-- Where an exploded field may only be a list, an item under another name is not read. -/
theorem whole?_listed_eq_none (named : field.operator.isNamed = true)
    (written : field.IsWritten entry.1) (other : entry.1 ≠ field.occurrence.name)
    (exploded : field.occurrence.isExploded = true) :
    field.listed.named.readings.whole? (field.operator.withName entry.1 entry.2) = none := by
  have listedNamed : field.listed.operator.isNamed = true := named
  have listedExploded : field.listed.occurrence.isExploded = true := exploded
  rw [Readings.whole?_eq_none_iff]
  intro marks derived
  obtain ⟨content, admitted, same, -⟩ := (derives_named listedNamed (.inl rfl)).mp derived
  cases content with
  | texts texts =>
    obtain ⟨text, rfl⟩ := List.length_eq_one_iff.mp (admitted.2 exploded)
    rw [written_text_of_exploded listedExploded] at same
    exact other (Operator.withName_injective named (equals_notMem named written)
      (equals_notMem_name named) same).1
  | entries entries => cases admitted.1.2.2.1

/-- **An item under the name of an exploded field** is read as a text, every other one as an
entry. -/
theorem whole?_named_ofEntry (named : field.operator.isNamed = true)
    (exploded : field.occurrence.isExploded = true) (forms : field.forms = ⟨false, true, true⟩)
    (written : field.IsWritten entry.1 ∧ field.IsWritten entry.2) :
    field.named.readings.whole? (field.operator.withName entry.1 entry.2) =
      some (field.marks (field.ofEntry entry)) := by
  have listedNamed : field.listed.operator.isNamed = true := named
  have mappedNamed : field.mapped.operator.isNamed = true := named
  have listedExploded : field.listed.occurrence.isExploded = true := exploded
  have mappedExploded : field.mapped.occurrence.isExploded = true := exploded
  rw [whole?_named_either exploded forms, ofEntry]
  split_ifs with own
  · have read := whole?_named_of_admits listedNamed (.inl rfl)
      ⟨fun _ => ⟨rfl, .inr rfl⟩, fun whole => by simp [listedExploded] at whole⟩
      (admitsItem_text listedExploded rfl written.2)
    rw [written_text_of_exploded listedExploded] at read
    change field.listed.named.readings.whole?
      (field.operator.withName field.occurrence.name entry.2) = _ at read
    rw [own, read, Option.some_or]
    rfl
  · have read := whole?_named_of_admits mappedNamed (.inr rfl)
      ⟨fun _ => ⟨rfl, .inl rfl⟩, fun whole => by simp [mappedExploded] at whole⟩
      (admitsItem_entry mappedExploded rfl written)
    rw [written_entry_of_exploded mappedNamed mappedExploded] at read
    rw [whole?_listed_eq_none named written.1 own exploded, Option.none_or]
    exact read

/-- A field that is exploded and no text admits every written entry as one of its items. -/
theorem admitsItem_ofEntry (exploded : field.occurrence.isExploded = true)
    (forms : field.forms = ⟨false, true, true⟩)
    (written : field.IsWritten entry.1 ∧ field.IsWritten entry.2) :
    field.AdmitsItem (field.ofEntry entry) := by
  unfold ofEntry
  split_ifs
  · exact admitsItem_text exploded (by rw [forms]) written.2
  · exact admitsItem_entry exploded (by rw [forms]) written

/-- Captures of entries show the contents of the entries. -/
theorem showsItems_ofEntry (named : field.operator.isNamed = true)
    (exploded : field.occurrence.isExploded = true) (forms : field.forms = ⟨false, true, true⟩)
    (written : ∀ entry ∈ entries, field.IsWritten entry.1 ∧ field.IsWritten entry.2) :
    field.ShowsItems (entries.map field.ofEntry)
      (entries.flatMap fun entry => field.marks (field.ofEntry entry)) where
  admits content member := by
    obtain ⟨entry, found, rfl⟩ := List.mem_map.mp member
    exact admitsItem_ofEntry exploded forms (written entry found)
  texts facet := by rw [Captures.textsAt_flatMap, List.flatMap_map]
  once unnamed := by
    rw [named] at unnamed
    cases unnamed

/-- The values that are captured of entries. -/
theorem units_ofEntry (field : Field) (entries : List (Text × Text)) :
    (entries.map field.ofEntry).flatMap field.units =
      entries.map (Binding.captured field.occurrence.name field.entryText) := by
  rw [List.flatMap_map, List.map_eq_flatMap]
  refine List.flatMap_congr fun entry _ => ?_
  unfold ofEntry Binding.captured
  split_ifs <;> rfl

/-- The pairs that are captured of entries. -/
theorem pairs_ofEntry (field : Field) (entries : List (Text × Text)) :
    (entries.map field.ofEntry).flatMap Content.pairs =
      Binding.foreign field.occurrence.name entries := by
  induction entries with
  | nil => rfl
  | cons entry entries ih =>
    rw [List.map_cons, List.flatMap_cons, ih, Binding.foreign, Binding.foreign, List.filter_cons]
    by_cases own : entry.1 = field.occurrence.name
    · simp [ofEntry, own, Content.pairs]
    · simp [ofEntry, own, Content.pairs]

/-- **What is found of entries** of which some stand under other names: a map of the entries that
are paired, if there is one. -/
theorem finding_ofEntry {captures : Captures Site} (hints : Hints)
    (exploded : field.occurrence.isExploded = true)
    (shows : field.ShowsItems (entries.map field.ofEntry) captures)
    (other : ∃ entry ∈ entries, entry.1 ≠ field.occurrence.name) :
    ∃ found, Binding.entries? field.occurrence.name
        (entries.map (Binding.captured field.occurrence.name field.entryText))
        ((Binding.foreign field.occurrence.name entries).map Prod.fst)
        ((Binding.foreign field.occurrence.name entries).map Prod.snd) = some found ∧
      Binding.Paired field.occurrence.name
        (entries.map (Binding.captured field.occurrence.name field.entryText))
        (Binding.foreign field.occurrence.name entries) found ∧
      Binding.finding field.operator field.part (captures.evidence field.part) hints field.index
        field.occurrence = .ok (Content.finding hints field.occurrence (.entries found)) := by
  have texts := shows.textsAt_value
  have keys := shows.textsAt_key
  have items := shows.textsAt_item
  rw [units_ofEntry] at texts
  rw [pairs_ofEntry] at keys items
  have some_ : Binding.foreign field.occurrence.name entries ≠ [] := by
    obtain ⟨entry, member, differs⟩ := other
    exact List.ne_nil_of_mem (List.mem_filter.mpr ⟨member, by simpa using differs⟩)
  have keyed : captures.evidence field.part field.index .key =
      some ((Binding.foreign field.occurrence.name entries).map Prod.fst) :=
    Captures.texts?_eq_some_iff.mpr ⟨keys, by simpa using some_⟩
  have unrepeated : Binding.isRepeated field.operator field.occurrence
      (captures.evidence field.part field.index .name) = false := by
    simp [Binding.isRepeated, exploded]
  obtain ⟨values, pairItems, found, valued, itemized, -, read, paired⟩ :=
    shows.exists_paired keyed unrepeated
  obtain ⟨rfl, nonempty⟩ : values = _ ∧ values ≠ [] := by
    obtain ⟨same, nonempty⟩ := Captures.texts?_eq_some_iff.mp valued
    exact ⟨same.symm.trans texts, nonempty⟩
  obtain rfl : pairItems = _ := (Captures.texts?_eq_some_iff.mp itemized).1.symm.trans items
  refine ⟨found, read, ?_, ?_⟩
  · rwa [List.zip_map', List.map_id'] at paired
  · obtain ⟨value, later, same⟩ := List.exists_cons_of_ne_nil nonempty
    obtain ⟨pair, pairs, foreign⟩ := List.exists_cons_of_ne_nil some_
    have untruncated : field.occurrence.length?.isSome = false := by
      simp [Variable.length?, modifier_of_exploded exploded]
    rw [same] at valued read
    rw [foreign] at keyed itemized read
    simp only [Binding.finding, valued, Option.getD_some, unrepeated, untruncated, keyed,
      List.map_cons, Bool.false_eq_true, ↓reduceIte, itemized, Binding.mapFinding]
    rw [← List.map_cons, ← List.map_cons, read]
    cases known : Binding.distinctMap? found <;> simp [Content.finding, known]

/-- **The first reading of entries** reads every item as it is read alone. -/
theorem whole?_entries (named : field.operator.isNamed = true)
    (exploded : field.occurrence.isExploded = true) (forms : field.forms = ⟨false, true, true⟩)
    (nonempty : entries ≠ [])
    (written : ∀ entry ∈ entries, field.IsWritten entry.1 ∧ field.IsWritten entry.2) :
    (Expression.patternOf field.operator [field]).readings.whole?
        (field.operator.writtenEntries entries) =
      some (entries.flatMap fun entry => field.marks (field.ofEntry entry)) := by
  have each : ∀ known ∈ [field], known.IsOf field.operator := by
    intro known member
    obtain rfl := List.mem_singleton.mp member
    exact ⟨rfl, .inl (by rw [forms])⟩
  have read : (entries.map fun entry => field.operator.withName entry.1 entry.2).mapM
      (Pattern.amongst ([field].map Field.named)).readings.whole? =
        some (entries.map fun entry => field.marks (field.ofEntry entry)) := by
    rw [mapM_eq_some_iff, List.forall₂_map_left_iff, List.forall₂_map_right_iff, List.forall₂_same]
    exact fun entry member => whole?_named_ofEntry named exploded forms (written entry member)
  rw [Operator.writtenEntries, Operator.assemble, if_neg (by simpa using nonempty),
    Expression.whole?_items named each (by simpa using nonempty)
      (separator_notMem_withName named written), read, Option.map_some, List.flatMap_def]

/-- What an exploded field alone reads are entries, or nothing. -/
theorem exists_entries_of_derives (named : field.operator.isNamed = true)
    (exploded : field.occurrence.isExploded = true) (formed : field.forms.list = true) {text : Text}
    {marks : List (Site × Option Text)}
    (derived : (Expression.patternOf field.operator [field]).readings.Derives text marks) :
    ∃ entries : List (Text × Text), text = field.operator.writtenEntries entries ∧
      ∀ entry ∈ entries, field.IsWritten entry.1 ∧ field.IsWritten entry.2 := by
  have each : ∀ known ∈ [field], known.IsOf field.operator := by
    intro known member
    obtain rfl := List.mem_singleton.mp member
    exact ⟨rfl, .inl formed⟩
  obtain ⟨steps, known, rfl, -⟩ :=
    (Expression.derives_patternOf_named named each).mp derived
  obtain ⟨entries, same, written⟩ : ∃ entries : List (Text × Text),
      steps.map (fun step => step.1.written step.2) =
        entries.map (fun entry => field.operator.withName entry.1 entry.2) ∧
      ∀ entry ∈ entries, field.IsWritten entry.1 ∧ field.IsWritten entry.2 := by
    apply exists_eq_map
    intro item member
    obtain ⟨step, found, rfl⟩ := List.mem_map.mp member
    obtain ⟨among, admitted⟩ := known step found
    rw [List.mem_singleton.mp among] at admitted ⊢
    obtain ⟨entry, written, same⟩ := exists_entry named exploded admitted
    exact ⟨entry, written, same⟩
  exact ⟨entries, congrArg _ same, written⟩

end Field

namespace Expression

variable {expression : Expression} {v : Variable} {map : OrderedMap Text Text}

/-- An exploded map is expanded entry by entry. -/
theorem expand_map {environment : Environment} (single : expression.occurrences = [v])
    (exploded : v.isExploded = true) (named : expression.operator.isNamed = true)
    (value : environment.value v.name = .map map) (nonempty : map.entries ≠ []) :
    expression.expand environment = .ok (expression.operator.writtenEntries
      (map.entries.map fun entry =>
        (expression.operator.encode entry.1, expression.operator.encode entry.2))) := by
  have modifier : v.modifier = .exploded := by simpa [Variable.isExploded] using exploded
  have contributed : expression.operator.contribution v (environment.value v.name) =
      .ok (some (expression.operator.mapContribution v map.entries)) := by
    have some_ : map.isEmpty = false := by simpa [OrderedMap.isEmpty] using nonempty
    rw [value]
    simp [Operator.contribution, Variable.length?, modifier, some_]
  refine expand_eq_ok_iff.mpr ⟨[some _], by rw [single, List.mapM_cons, contributed]; rfl, ?_⟩
  simp [Operator.writtenEntries, Operator.assemble, Operator.mapContribution, exploded,
    Operator.entryContribution, named, nonempty, Function.comp_def]

/-- What is bound of entries of which some stand under other names: a map of the entries that are
paired. -/
theorem exists_map_of_bindings {captures : Captures Site} {bindings : List Binding}
    {entries : List (Text × Text)} (single : expression.occurrences = [v])
    (exploded : v.isExploded = true)
    (shows : (expression.field 0 {} v 0).ShowsItems
      (entries.map (expression.field 0 {} v 0).ofEntry) captures)
    (other : ∃ entry ∈ entries, entry.1 ≠ v.name)
    (bound : expression.bindings 0 (captures.evidence 0) {} = .ok (some bindings)) :
    ∃ found map, Binding.entries? v.name
        (entries.map (Binding.captured v.name (expression.field 0 {} v 0).entryText))
        ((Binding.foreign v.name entries).map Prod.fst)
        ((Binding.foreign v.name entries).map Prod.snd) = some found ∧
      Binding.Paired v.name
        (entries.map (Binding.captured v.name (expression.field 0 {} v 0).entryText))
        (Binding.foreign v.name entries) found ∧
      map.entries = found.map Binding.decodedEntry ∧ bindings = [⟨v, .map map⟩] := by
  obtain ⟨found, read, paired, finding⟩ := Field.finding_ofEntry {} exploded shows other
  obtain ⟨findings, accepted, -, rfl⟩ := bindings_eq_some_iff.mp bound
  have each := Binding.findings?_eq_some_iff.mp accepted
  rw [single, List.zipIdx_singleton, List.forall₂_cons_left_iff] at each
  obtain ⟨⟨w, result⟩, later, ⟨same, known, possible⟩, none, rfl⟩ := each
  cases none
  obtain rfl : w = v := same
  obtain rfl : result = _ := Except.ok.inj (known.symm.trans finding)
  simp only [Content.finding] at possible ⊢
  cases distinct : Binding.distinctMap? found with
  | none =>
    rw [distinct] at possible
    exact (possible rfl).elim
  | some map =>
    exact ⟨found, map, read, paired, Binding.distinctMap?_eq_some_iff.mp distinct, rfl⟩

end Expression

/-- A name without triplets is its own encoding. -/
theorem Variable.encode_name {v : Variable} (plain : '%' ∉ v.name) (operator : Operator) :
    operator.encode v.name = v.name := by
  refine Percent.encode_eq_self_iff.mpr fun c member => ?_
  obtain kept | rfl := (v.written_name operator.allowsReserved).isKept_or c member
  · exact kept
  · exact (plain member).elim

namespace Template

variable {template : Template} {expression : Expression} {v : Variable} {uri : Text}
  {found : Match}

/-- What is matched by an exploded variable alone are entries, and what is bound is bound of the
captures of the entries. -/
theorem exists_entries_of_match (parts : template.parts = [.expression expression])
    (named : expression.operator.isNamed = true) (single : expression.occurrences = [v])
    (exploded : v.isExploded = true) (matched : template.match? {} uri = .ok (some found))
    (some_ : expression.operator.entriesOf uri ≠ []) :
    ∃ entries captures bindings, uri = expression.operator.writtenEntries entries ∧
      expression.operator.entriesOf uri = entries ∧
      (∀ entry ∈ entries, Percent.Written expression.operator.allowsReserved entry.1 ∧
        Percent.Written expression.operator.allowsReserved entry.2) ∧
      (expression.field 0 {} v 0).ShowsItems
        (entries.map (expression.field 0 {} v 0).ofEntry) captures ∧
      expression.bindings 0 (captures.evidence 0) {} = .ok (some bindings) ∧
      Bindings.ofList bindings = .ok found.bindings := by
  let field := expression.field 0 {} v 0
  have forms : field.forms = ⟨false, true, true⟩ := by
    simp [field, Expression.field, Hints.forms, exploded]
  have pattern : template.pattern {} =
      .ok (.seq [Expression.patternOf expression.operator [field]]) := by
    refine pattern_eq_ok_iff.mpr ⟨_, ?_, rfl⟩
    rw [parts]
    refine Part.patterns_cons.mpr ⟨_, _, rfl, Expression.pattern_eq_ok_iff.mpr
      ⟨fun w _ => (Hints.fits_none w .undefined).contradiction?_eq_none, ?_⟩, rfl⟩
    rw [Expression.fields_single 0 {} single]
  obtain ⟨captures, bindings, captured, bound, -, merged⟩ := match?_eq_some_iff.mp matched
  have read : (Expression.patternOf expression.operator [field]).readings.whole? uri =
      some captures := by
    rw [capture, pattern] at captured
    have first := (captures?_pattern pattern uri).symm.trans captured
    rwa [Pattern.readings_seq_single, Except.ok.injEq] at first
  obtain ⟨entries, split, written⟩ : ∃ entries : List (Text × Text),
      uri = expression.operator.writtenEntries entries ∧
        ∀ entry ∈ entries, field.IsWritten entry.1 ∧ field.IsWritten entry.2 :=
    Field.exists_entries_of_derives named exploded (by rw [forms]) (Readings.derives_of_whole? read)
  subst split
  have nonempty : entries ≠ [] := by
    rintro rfl
    exact some_ rfl
  have marks : some captures =
      some (entries.flatMap fun entry => field.marks (field.ofEntry entry)) :=
    read.symm.trans (Field.whole?_entries named exploded forms nonempty written)
  obtain rfl := Option.some.inj marks
  rw [parts] at bound
  obtain ⟨here, later, rfl, boundHere, boundLater⟩ := bindingsFrom_expression.mp bound
  cases boundLater
  rw [List.append_nil] at merged
  exact ⟨entries, _, here, rfl, Field.entriesOf_writtenEntries named nonempty written, written,
    Field.showsItems_ofEntry named exploded forms written, boundHere, merged⟩

/-- A map expands to canonical entries just if it has them decoded. -/
theorem expand_eq_writtenEntries_iff {environment : Environment} {map : OrderedMap Text Text}
    {entries : List (Text × Text)} (parts : template.parts = [.expression expression])
    (named : expression.operator.isNamed = true) (single : expression.occurrences = [v])
    (exploded : v.isExploded = true) (value : environment.value v.name = .map map)
    (nonempty : map.entries ≠ []) (some_ : entries ≠ [])
    (written : ∀ entry ∈ entries, Percent.Written expression.operator.allowsReserved entry.1 ∧
      Percent.Written expression.operator.allowsReserved entry.2)
    (canonical : ∀ entry ∈ entries,
      expression.operator.encode (Percent.decode entry.1) = entry.1 ∧
        expression.operator.encode (Percent.decode entry.2) = entry.2) :
    template.expand environment = .ok (expression.operator.writtenEntries entries) ↔
      map.entries = entries.map Binding.decodedEntry := by
  let field := expression.field 0 {} v 0
  let encoded := map.entries.map fun entry =>
    (expression.operator.encode entry.1, expression.operator.encode entry.2)
  have expanded :
      template.expand environment = .ok (expression.operator.writtenEntries encoded) := by
    rw [expand, parts, List.mapM_cons, Part.expand,
      Expression.expand_map single exploded named value nonempty]
    exact congrArg Except.ok (List.append_nil _)
  have writtenEncoded : ∀ entry ∈ encoded, field.IsWritten entry.1 ∧ field.IsWritten entry.2 := by
    intro entry member
    obtain ⟨original, -, rfl⟩ := List.mem_map.mp member
    exact ⟨Percent.written_encode _, Percent.written_encode _⟩
  have writtenField : ∀ entry ∈ entries, field.IsWritten entry.1 ∧ field.IsWritten entry.2 :=
    written
  have injective : expression.operator.writtenEntries encoded =
      expression.operator.writtenEntries entries ↔ encoded = entries := by
    refine ⟨fun same => ?_, congrArg _⟩
    have first : expression.operator.entriesOf (expression.operator.writtenEntries encoded) = _ :=
      Field.entriesOf_writtenEntries named (by simpa [encoded] using nonempty) writtenEncoded
    have second : expression.operator.entriesOf (expression.operator.writtenEntries entries) = _ :=
      Field.entriesOf_writtenEntries named some_ writtenField
    rw [← first, same, second]
  rw [expanded, Except.ok.injEq, injective]
  constructor
  · intro same
    rw [← same, List.map_map]
    refine ((List.map_congr_left fun entry _ => ?_).trans (List.map_id _)).symm
    exact Prod.ext (Percent.decode_encode entry.1) (Percent.decode_encode entry.2)
  · intro same
    change map.entries.map _ = entries
    rw [same, List.map_map]
    refine (List.map_congr_left fun entry member => ?_).trans (List.map_id entries)
    exact Prod.ext (canonical entry member).1 (canonical entry member).2

/-- **Entries under any name.** Where an exploded variable with a name, whose name has no triplets,
matches a URI without hints, and the keys and texts of the URI are canonical, some of them under
another key than the name of the variable, a map is bound. Whether it has just the entries of the
URI in their order, and whether it expands to the URI, is the same question: it must not be that an
item under the name of the variable comes right before an item that has the text of the former for
its key and no text of its own. -/
theorem match?_entries (parts : template.parts = [.expression expression])
    (named : expression.operator.isNamed = true) (single : expression.occurrences = [v])
    (exploded : v.isExploded = true) (plain : '%' ∉ v.name)
    (matched : template.match? {} uri = .ok (some found))
    (other : ∃ entry ∈ expression.operator.entriesOf uri, entry.1 ≠ v.name)
    (canonical : ∀ entry ∈ expression.operator.entriesOf uri,
      expression.operator.encode (Percent.decode entry.1) = entry.1 ∧
        expression.operator.encode (Percent.decode entry.2) = entry.2) :
    ∃ map, found.bindings.values.entries = [(v.name, .map map)] ∧
      (map.entries = (expression.operator.entriesOf uri).map Binding.decodedEntry ↔
        ∀ key, ¬ [(v.name, key), (key, [])] <:+: expression.operator.entriesOf uri) ∧
      (template.expand found.bindings.values = .ok uri ↔
        ∀ key, ¬ [(v.name, key), (key, [])] <:+: expression.operator.entriesOf uri) := by
  have some_ : expression.operator.entriesOf uri ≠ [] := by
    obtain ⟨entry, member, -⟩ := other
    exact List.ne_nil_of_mem member
  obtain ⟨entries, captures, bindings, split, same, written, shows, bound, merged⟩ :=
    exists_entries_of_match parts named single exploded matched some_
  rw [same] at other canonical some_ ⊢
  obtain ⟨paired, map, read, each, mapped, rfl⟩ :=
    Expression.exists_map_of_bindings single exploded shows other bound
  obtain ⟨bound_, value⟩ := Bindings.values_of_single merged
  have sizes : paired.length = entries.length := each.length_eq.trans (List.length_map _)
  have nonempty : map.entries ≠ [] := by
    rw [mapped, Ne, List.map_eq_nil_iff, ← List.length_eq_zero_iff, sizes, List.length_eq_zero_iff]
    exact some_
  have decoded : ∀ entry ∈ entries,
      Percent.decode entry.1 = Percent.decode v.name → entry.1 = v.name := by
    intro entry member same
    have own : Percent.decode v.name = v.name := by
      conv_lhs => rw [← Variable.encode_name plain expression.operator]
      exact Percent.decode_encode _
    rw [← (canonical entry member).1, same, own, Variable.encode_name plain]
  have order : map.entries = entries.map Binding.decodedEntry ↔
      ∀ key, ¬ [(v.name, key), (key, [])] <:+: entries := by
    rw [mapped]
    refine Binding.entries?_mixed (fun entry _ => Field.isWrittenEntry_entryText exploded entry)
      (fun entry member => ?_) decoded read each (mapped ▸ map.distinct)
    have text : (expression.field 0 {} v 0).IsWritten entry.2 := (written entry member).2
    exact Field.equals_notMem named text
  refine ⟨map, bound_, order, ?_⟩
  rw [split, expand_eq_writtenEntries_iff parts named single exploded value nonempty some_ written
    canonical]
  exact order

/-- A text under the name of the variable, and an entry without a text. -/
theorem match?_entries_bare :
    ∃ found, Template.match?
      ⟨[.expression ⟨.parameter, [⟨['v'], .exploded, rfl, rfl⟩], by simp⟩]⟩ {}
      [';', 'v', '=', 'a', ';', 'k'] = .ok (some found) ∧
      found.bindings.values.entries =
        [(['v'], .map ⟨[(['v'], ['a']), (['k'], [])], by decide⟩)] ∧
      Template.expand ⟨[.expression ⟨.parameter, [⟨['v'], .exploded, rfl, rfl⟩], by simp⟩]⟩
        found.bindings.values = .ok [';', 'v', '=', 'a', ';', 'k'] := by
  let v : Variable := ⟨['v'], .exploded, rfl, rfl⟩
  let expression : Expression := ⟨.parameter, [v], by simp⟩
  let template : Template := ⟨[.expression expression]⟩
  let uri : Text := [';', 'v', '=', 'a', ';', 'k']
  have entries : expression.operator.entriesOf uri = [(['v'], ['a']), (['k'], [])] := by
    decide +kernel
  obtain ⟨found, matched⟩ : ∃ found, template.match? {} uri = .ok (some found) :=
    ⟨⟨template, ⟨[(['v'], ⟨v, .map ⟨[(['v'], ['a']), (['k'], [])], by decide⟩⟩)], by decide⟩⟩,
      by decide +kernel⟩
  have canonical : ∀ entry ∈ expression.operator.entriesOf uri,
      expression.operator.encode (Percent.decode entry.1) = entry.1 ∧
        expression.operator.encode (Percent.decode entry.2) = entry.2 := by
    rw [entries]
    decide +kernel
  have apart : ∀ key, ¬ [(v.name, key), (key, [])] <:+: expression.operator.entriesOf uri := by
    intro key found
    rw [entries] at found
    have same := found.eq_of_length rfl
    simp [v] at same
    exact absurd (same.1.symm.trans same.2) (by decide)
  obtain ⟨map, bound, same, expands⟩ := match?_entries rfl rfl rfl rfl (by decide) matched
    ⟨(['k'], []), by rw [entries]; simp, by decide⟩ canonical
  have listed : map.entries = [(['v'], ['a']), (['k'], [])] := by
    rw [same.mpr apart, entries]
    decide +kernel
  have known : map = ⟨[(['v'], ['a']), (['k'], [])], by decide⟩ := OrderedMap.ext_entries listed
  exact ⟨found, matched, known ▸ bound, expands.mpr apart⟩

/-- The text under the name of the variable is taken for the item after it, which has that text
for its key and no text of its own. -/
theorem match?_entries_misled :
    let template : Template :=
      ⟨[.expression ⟨.query, [⟨['v'], .exploded, rfl, rfl⟩], by simp⟩]⟩
    let bindings : Bindings := ⟨[(['v'], ⟨⟨['v'], .exploded, rfl, rfl⟩,
      .map ⟨[(['k'], []), (['v'], ['k', '='])], by decide⟩⟩)], by decide⟩
    template.match? {} ['?', 'v', '=', 'k', '&', 'k', '='] = .ok (some ⟨template, bindings⟩) ∧
      template.expand bindings.values ≠ .ok ['?', 'v', '=', 'k', '&', 'k', '='] := by
  decide +kernel

end Template

end UriTemplates
