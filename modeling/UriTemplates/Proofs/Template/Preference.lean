import UriTemplates.Proofs.Pattern.Interchange
import UriTemplates.Proofs.Template.Determined
import Mathlib.Data.List.Forall2

/-!
# What fields prefer to be

A field that may be a list is read as texts before it is read as a map. Where every map is
written like some texts, this leaves no text to the map, so the first reading of an expression is
the same without that option (`Expression.alike_preferred`). Only the entries of an exploded map
are written in a way of their own, provided that an equals sign stands in no value
(`Field.marksEntries`).
-/

namespace UriTemplates

namespace Field

open Readings (Derives Alike)

variable {field : Field} {content : Content}

/-- Whether a field writes the entries of a map as no texts are written. -/
def marksEntries (field : Field) : Bool :=
  field.occurrence.isExploded && !field.operator.allowsReserved

/-- A field without the option of a map, unless it writes entries as no texts are written. -/
def preferred (field : Field) : Field :=
  { field with forms := { field.forms with map := field.forms.map && field.marksEntries } }

/-- What a map is written as without marked entries is what some texts are written as. -/
theorem exists_texts_of_admits (listed : field.forms.list = true)
    (unmarked : field.marksEntries = false) (admitted : field.Admits content) :
    ∃ texts, field.preferred.Admits (.texts texts) ∧
      field.preferred.written (.texts texts) = field.written content := by
  cases content with
  | texts texts => exact ⟨texts, admitted, rfl⟩
  | entries entries =>
    obtain ⟨nonempty, written, -, untruncated⟩ := admitted
    cases modifier : field.occurrence.modifier with
    | truncated length => simp [Variable.length?, modifier] at untruncated
    | plain =>
      have whole := isExploded_of_plain modifier
      have apart : field.preferred.occurrence.isExploded = false := whole
      refine ⟨entries.flatMap fun entry => [entry.1, entry.2],
        ⟨flatMap_entries_ne_nil nonempty, ?_, ?_⟩, ?_⟩
      · intro text member
        obtain ⟨entry, found, among⟩ := List.mem_flatMap.mp member
        rcases List.mem_pair.mp among with rfl | rfl
        · exact (written entry found).1
        · exact (written entry found).2
      · have plain : field.preferred.occurrence.modifier = .plain := modifier
        simp only [AdmitsTexts, plain]
        exact .inl listed
      · rw [written_of_whole whole, written_of_whole apart, joined_entries whole]
        rfl
    | exploded =>
      have exploded := isExploded_of modifier
      have apart : field.preferred.occurrence.isExploded = true := exploded
      have reserved : field.operator.allowsReserved = true := by
        simpa [marksEntries, exploded] using unmarked
      have unnamed : field.operator.isNamed = false := by
        rw [Bool.eq_false_iff]
        intro named
        rw [Operator.allowsReserved_of_named named] at reserved
        cases reserved
      have bare := withName_of_unnamed unnamed field.occurrence.name
      have entryText_eq : ∀ entry : Text × Text,
          field.entryText entry = entry.1 ++ '=' :: entry.2 := by
        simp [entryText, exploded, Operator.entryContribution, unnamed]
      refine ⟨entries.map field.entryText, ⟨by simpa using nonempty, ?_, ?_⟩, ?_⟩
      · intro text member
        obtain ⟨entry, found, rfl⟩ := List.mem_map.mp member
        rw [entryText_eq]
        obtain ⟨key, item⟩ := written entry found
        exact key.append (.kept (by rw [reserved]; rfl) item)
      · have plain : field.preferred.occurrence.modifier = .exploded := modifier
        simp only [AdmitsTexts, plain]
        exact .inl listed
      · have items : field.preferred.items (.texts (entries.map field.entryText)) =
            field.items (.entries entries) := by
          simp only [items, apart, exploded, ↓reduceIte]
          exact (congrArg (List.map · _) bare).trans (List.map_id _)
        exact congrArg (Text.joined field.operator.separator) items

/-- The option of a map, if there is one, comes last. -/
theorem readings_options (listed : field.forms.list = true) (asText asList asMap : Pattern Site) :
    (field.options asText asList asMap).readings =
        (field.preferred.options asText asList asMap).readings ∨
      field.marksEntries = false ∧ ∃ last : Pattern Site,
        (field.options asText asList asMap).readings =
          (field.preferred.options asText asList asMap).readings.orElse last.readings := by
  cases mapped : field.forms.map with
  | false => exact .inl (by simp [options, preferred, mapped])
  | true =>
    cases marked : field.marksEntries with
    | true => exact .inl (by simp [options, preferred, mapped, marked])
    | false =>
      refine .inr ⟨rfl, asMap, ?_⟩
      simp only [options, preferred, listed, mapped, marked, Bool.and_false, Bool.false_eq_true,
        ↓reduceIte, List.append_nil, Pattern.readings_amongst]
      exact Pattern.readings_choice_append _ asMap

/-- A field without names is read like the field that it prefers to be, or else like it or as a
map. -/
theorem readings_unnamed (listed : field.forms.list = true) :
    field.unnamed.readings = field.preferred.unnamed.readings ∨
      field.marksEntries = false ∧ ∃ asMap : Pattern Site, field.unnamed.readings =
        field.preferred.unnamed.readings.orElse asMap.readings := by
  have same : field.preferred.occurrence.modifier = field.occurrence.modifier := rfl
  cases modifier : field.occurrence.modifier with
  | truncated length =>
    left
    simp only [unnamed, same, modifier]
    rfl
  | plain =>
    simp only [unnamed, same, modifier]
    exact readings_options listed _ _ _
  | exploded =>
    simp only [unnamed, same, modifier]
    exact readings_options listed _ _ _

/-- A field with its name is read like the field that it prefers to be, or else like it or as a
map. -/
theorem readings_named (listed : field.forms.list = true) :
    field.named.readings = field.preferred.named.readings ∨
      field.marksEntries = false ∧ ∃ asMap : Pattern Site, field.named.readings =
        field.preferred.named.readings.orElse asMap.readings := by
  have same : field.preferred.occurrence.modifier = field.occurrence.modifier := rfl
  have operator : field.preferred.operator = field.operator := rfl
  unfold named
  rw [operator]
  split
  · cases modifier : field.occurrence.modifier with
    | truncated length =>
      left
      simp only [parameterItem, same, modifier]
      rfl
    | plain =>
      simp only [parameterItem, same, modifier]
      exact readings_options listed _ _ _
    | exploded =>
      simp only [parameterItem, same, modifier]
      exact readings_options listed _ _ _
  · cases modifier : field.occurrence.modifier with
    | truncated length =>
      left
      simp only [queryItem, same, modifier]
      rfl
    | plain =>
      simp only [queryItem, same, modifier]
      exact readings_options listed _ _ _
    | exploded =>
      simp only [queryItem, same, modifier]
      exact readings_options listed _ _ _

/-- An option that reads nothing but contents of the field is never needed, if texts are read that
are written like them. -/
theorem alike_of_orElse (field : Field) {whole chosen asMap : Pattern Site}
    (split : whole.readings = chosen.readings.orElse asMap.readings)
    (reads : ∀ text marks, Derives whole.readings text marks →
      ∃ texts, field.preferred.Admits (.texts texts) ∧
        field.preferred.written (.texts texts) = text)
    (readsTexts : ∀ texts, field.preferred.Admits (.texts texts) →
      ∃ marks, Derives chosen.readings (field.preferred.written (.texts texts)) marks) :
    whole.readings.Alike chosen.readings := by
  rw [split]
  refine Readings.alike_orElse_of_ends (Readings.ends_subset_of_derives chosen.isLocal_readings
    asMap.isLocal_readings fun text marks derived => ?_)
  obtain ⟨texts, admitted, rfl⟩ := reads text marks (by
    rw [split, Readings.derives_orElse]
    exact .inr derived)
  exact readsTexts texts admitted

/-- **A field without names is read like the field that it prefers to be.** -/
theorem alike_unnamed (unnamed : field.operator.isNamed = false)
    (listed : field.forms.list = true) :
    field.unnamed.readings.Alike field.preferred.unnamed.readings := by
  rcases readings_unnamed listed with same | ⟨unmarked, asMap, split⟩
  · rw [same]
    exact Alike.refl _
  · refine field.alike_of_orElse split (fun text marks derived => ?_) fun texts admitted => ?_
    · obtain ⟨content, admitted, rfl, -⟩ := (derives_unnamed unnamed).mp derived
      exact exists_texts_of_admits listed unmarked admitted
    · have unnamedToo : field.preferred.operator.isNamed = false := unnamed
      exact ⟨_, (derives_unnamed unnamedToo).mpr ⟨_, admitted, rfl, rfl⟩⟩

/-- **A field with its name is read like the field that it prefers to be.** -/
theorem alike_named (named : field.operator.isNamed = true) (listed : field.forms.list = true) :
    field.named.readings.Alike field.preferred.named.readings := by
  rcases readings_named listed with same | ⟨unmarked, asMap, split⟩
  · rw [same]
    exact Alike.refl _
  · have whole : field.occurrence.isExploded = false := by
      simpa [marksEntries, Operator.allowsReserved_of_named named] using unmarked
    refine field.alike_of_orElse split (fun text marks derived => ?_) fun texts admitted => ?_
    · obtain ⟨content, admitted, rfl, -⟩ := (derives_named named (.inl listed)).mp derived
      exact exists_texts_of_admits listed unmarked admitted.1
    · have formed : field.preferred.forms.list = true := listed
      have namedToo : field.preferred.operator.isNamed = true := named
      have single : field.preferred.occurrence.isExploded = true →
          (Content.texts texts).isSingle := by
        intro apart
        rw [show field.preferred.occurrence = field.occurrence from rfl, whole] at apart
        cases apart
      exact ⟨_, (derives_named namedToo (.inl formed)).mpr ⟨_, ⟨admitted, single⟩, rfl, rfl⟩⟩

variable {fields : List Field}

/-- Of several fields, the first one may come before others, or stand alone, or be left out unless
it is required. -/
theorem someOf_several (field next : Field) (rest : List Field) :
    someOf (field :: next :: rest) =
      if field.isRequired then
        .seq [field.unnamed, .optional (.seq [.literal [','], someOf (next :: rest)]) false]
      else
        .choice [.seq [field.unnamed, .literal [','], someOf (next :: rest)], field.unnamed,
          someOf (next :: rest)] := by
  rw [someOf]
  simp

/-- Fields with commas between them are read like the fields that they prefer to be. -/
theorem alike_someOf
    (each : ∀ field ∈ fields, field.unnamed.readings.Alike field.preferred.unnamed.readings) :
    (someOf fields).readings.Alike (someOf (fields.map preferred)).readings := by
  induction fields with
  | nil => exact Alike.refl _
  | cons field rest ih =>
    obtain ⟨first, later⟩ := List.forall_mem_cons.mp each
    cases rest with
    | nil => exact first
    | cons next rest =>
      have others := ih later
      have comma : (Pattern.literal [','] : Pattern Site).readings.Alike
        (Pattern.literal [','] : Pattern Site).readings := Alike.refl _
      have required : field.preferred.isRequired = field.isRequired := rfl
      rw [List.map_cons] at others
      rw [List.map_cons, List.map_cons, someOf_several field, someOf_several field.preferred,
        required]
      split
      · exact Pattern.alike_seq (.cons first (.cons (Pattern.alike_optional
          (Pattern.alike_seq (.cons comma (.cons others .nil))) false) .nil))
      · exact Pattern.alike_choice (.cons (Pattern.alike_seq
          (.cons first (.cons comma (.cons others .nil)))) (.cons first (.cons others .nil)))

/-- A field after its symbol is read like the field that it prefers to be. -/
theorem alike_segment (same : field.unnamed.readings.Alike field.preferred.unnamed.readings) :
    field.segment.readings.Alike field.preferred.segment.readings := by
  have required : field.preferred.isRequired = field.isRequired := rfl
  have written : (Pattern.seq [.literal field.operator.symbol, field.unnamed]).readings.Alike
      (Pattern.seq [.literal field.preferred.operator.symbol,
        field.preferred.unnamed]).readings :=
    Pattern.alike_seq (.cons (Alike.refl _) (.cons same .nil))
  unfold segment
  rw [required]
  split
  · exact written
  · exact Pattern.alike_optional written false

/-- A preferred content of a field is one that the field may have. -/
theorem admits_of_preferred (admitted : field.preferred.Admits content) :
    field.Admits content := by
  cases content with
  | texts texts => exact admitted
  | entries entries =>
    obtain ⟨nonempty, written, mapped, untruncated⟩ := admitted
    exact ⟨nonempty, written, (Bool.and_eq_true_iff.mp mapped).1, untruncated⟩

/-- Without marked entries a preferred content is made of texts. -/
theorem exists_texts_of_preferred (unmarked : field.marksEntries = false)
    (admitted : field.preferred.Admits content) : ∃ texts, content = .texts texts := by
  cases content with
  | texts texts => exact ⟨texts, rfl⟩
  | entries entries =>
    have mapped := (Bool.and_eq_true_iff.mp admitted.2.2.1).2
    rw [unmarked] at mapped
    cases mapped

end Field

/-- A selection of preferred contents is one for the fields themselves. -/
theorem Selection.exists_of_preferred {fields : List Field} {selection : Selection}
    (isOf : selection.IsOf (fields.map Field.preferred)) :
    ∃ original : Selection, original.IsOf fields ∧ selection.marks = original.marks ∧
      ∀ chosen ∈ original, ∀ content ∈ chosen.2, chosen.1.preferred.Admits content := by
  induction fields generalizing selection with
  | nil => exact ⟨[], isOf_leavingOut [], by rw [isOf_nil_iff.mp isOf], by simp⟩
  | cons field fields ih =>
    obtain ⟨content, later, rfl, admits, isOfLater⟩ := isOf_cons_iff.mp isOf
    obtain ⟨original, isOfOriginal, same, admitsLater⟩ := ih isOfLater
    refine ⟨(field, content) :: original,
      isOfOriginal.cons fun known found => Field.admits_of_preferred (admits known found), ?_,
      List.forall_mem_cons.mpr ⟨admits, admitsLater⟩⟩
    cases content with
    | none => exact same
    | some content => exact congrArg (field.marks content ++ ·) same

namespace Expression

open Readings (Alike)

variable {operator : Operator} {fields : List Field}

/-- **The first reading of an expression** takes no field for a map that could be texts. -/
theorem alike_preferred (each : ∀ field ∈ fields, field.IsOf operator)
    (listed : ∀ field ∈ fields, field.forms.list = true) :
    (patternOf operator fields).readings.Alike
      (patternOf operator (fields.map Field.preferred)).readings := by
  cases named : operator.isNamed with
  | true =>
    rw [patternOf_named named, patternOf_named named]
    have items : List.Forall₂ (fun pattern other : Pattern Site =>
        pattern.readings.Alike other.readings) (fields.map Field.named)
        ((fields.map Field.preferred).map Field.named) := by
      rw [List.map_map, List.forall₂_map_left_iff, List.forall₂_map_right_iff, List.forall₂_same]
      intro field member
      exact Field.alike_named ((each field member).operator_eq ▸ named) (listed field member)
    exact Pattern.alike_optional (Pattern.alike_seq (.cons (Alike.refl _) (.cons
      (Pattern.alike_elements (Pattern.alike_amongst items) operator.separator false) .nil))) false
  | false =>
    have unnamed : ∀ field ∈ fields,
        field.unnamed.readings.Alike field.preferred.unnamed.readings := by
      intro field member
      exact Field.alike_unnamed ((each field member).operator_eq ▸ named) (listed field member)
    have several := Field.alike_someOf unnamed
    have segments : (Pattern.seq (fields.map Field.segment)).readings.Alike
        (Pattern.seq ((fields.map Field.preferred).map Field.segment)).readings := by
      apply Pattern.alike_seq
      rw [List.map_map, List.forall₂_map_left_iff, List.forall₂_map_right_iff, List.forall₂_same]
      exact fun field member => Field.alike_segment (unnamed field member)
    cases operator with
    | simple => exact Pattern.alike_optional several false
    | reserved => exact Pattern.alike_optional several false
    | fragment =>
      exact Pattern.alike_optional
        (Pattern.alike_seq (.cons (Alike.refl _) (.cons several .nil))) false
    | label => exact segments
    | path => exact segments
    | parameter => cases named
    | query => cases named
    | continuation => cases named

variable {text : Text} {marks : List (Site × Option Text)}

/-- The fields that are preferred belong to the same operator. -/
theorem isOf_preferred (each : ∀ field ∈ fields, field.IsOf operator)
    (listed : ∀ field ∈ fields, field.forms.list = true) :
    ∀ field ∈ fields.map Field.preferred, field.IsOf operator := by
  intro field member
  obtain ⟨original, found, rfl⟩ := List.mem_map.mp member
  exact ⟨(each original found).operator_eq, .inl (listed original found)⟩

/-- What is read first where no names are written is a selection of preferred contents. -/
theorem exists_preferred_selection (unnamed : operator.isNamed = false)
    (each : ∀ field ∈ fields, field.IsOf operator) (nonempty : fields ≠ [])
    (listed : ∀ field ∈ fields, field.forms.list = true)
    (read : (patternOf operator fields).readings.whole? text = some marks) :
    ∃ selection : Selection, selection.IsOf fields ∧ marks = selection.marks ∧
      ∀ chosen ∈ selection, ∀ content ∈ chosen.2, chosen.1.preferred.Admits content := by
  rw [(alike_preferred each listed).whole?_eq] at read
  obtain ⟨selection, isOf, -, rfl⟩ := exists_selection_of_derives unnamed
    (isOf_preferred each listed) (by simpa using nonempty) (Readings.derives_of_whole? read)
  exact Selection.exists_of_preferred isOf

/-- What is read first where names are written are items with preferred contents. -/
theorem exists_preferred_steps (named : operator.isNamed = true)
    (each : ∀ field ∈ fields, field.IsOf operator)
    (listed : ∀ field ∈ fields, field.forms.list = true)
    (read : (patternOf operator fields).readings.whole? text = some marks) :
    ∃ steps : List (Field × Content),
      (∀ step ∈ steps, step.1 ∈ fields ∧ step.1.preferred.AdmitsItem step.2) ∧
      text = operator.assemble (steps.map fun step => step.1.written step.2) ∧
      marks = steps.flatMap fun step => step.1.marks step.2 := by
  rw [(alike_preferred each listed).whole?_eq] at read
  obtain ⟨steps, known, rfl, rfl⟩ := (derives_patternOf_named named (isOf_preferred each listed)).mp
    (Readings.derives_of_whole? read)
  obtain ⟨originals, rfl, admits⟩ := exists_eq_map
    (fun step : Field × Content => (step.1.preferred, step.2))
    (fun step => step.1 ∈ fields ∧ step.1.preferred.AdmitsItem step.2) fun step member => by
      obtain ⟨among, admitted⟩ := known step member
      obtain ⟨field, found, same⟩ := List.mem_map.mp among
      exact ⟨(field, step.2), ⟨found, same ▸ admitted⟩, Prod.ext same.symm rfl⟩
  refine ⟨originals, admits, ?_, ?_⟩
  · rw [List.map_map]
    rfl
  · rw [List.flatMap_map]
    rfl

end Expression

end UriTemplates
