import Mathlib.Data.List.Nodup
import Mathlib.Data.List.Perm.Basic
import UriTemplates.Proofs.Binding.Findings

/-!
# Gathering items

The items of an expression with names, gathered by field: a selection with the same items in
the order of the fields (`Selection.exists_of_steps`). A field that is not exploded may have
been read only once, and the items of an exploded field are all texts or all entries.
-/

namespace UriTemplates

/-- Items are kept, in another order, when they are grouped by distinct keys. -/
theorem flatMap_filter_perm {α κ : Type} [DecidableEq κ] {keys : List κ} {items : List α}
    {key : α → κ} (distinct : keys.Nodup) (covered : ∀ item ∈ items, key item ∈ keys) :
    (keys.flatMap fun known => items.filter fun item => key item = known).Perm items := by
  induction keys generalizing items with
  | nil =>
    cases items with
    | nil => exact .nil
    | cons item items => cases covered item List.mem_cons_self
  | cons known keys ih =>
    obtain ⟨new, distinct⟩ := List.nodup_cons.mp distinct
    have others : ∀ other ∈ keys, (items.filter fun item => key item = other) =
        (items.filter fun item => ¬ key item = known).filter fun item => key item = other := by
      intro other member
      rw [List.filter_filter]
      apply List.filter_congr
      intro item _
      have differs : other ≠ known := fun same => new (same ▸ member)
      by_cases same : key item = other
      · simp [same, differs]
      · simp [same]
    have later : (keys.flatMap fun other => items.filter fun item => key item = other).Perm
        (items.filter fun item => ¬ key item = known) := by
      rw [List.flatMap_congr others]
      apply ih distinct
      intro item member
      obtain ⟨found, differs⟩ := List.mem_filter.mp member
      exact (List.mem_cons.mp (covered item found)).resolve_left (by simpa using differs)
    rw [List.flatMap_cons]
    apply (later.append_left _).trans
    simpa using List.filter_append_perm (fun item => decide (key item = known)) items

namespace Field

variable {field : Field} {steps : List Content}

/-- Items of an exploded field that is read as a map are the entries of one content. -/
theorem exists_entries_of_steps (mapped : field.forms.map = true)
    (apart : field.occurrence.isExploded = true) (nonempty : steps ≠ [])
    (admits : ∀ step ∈ steps, field.AdmitsItem step)
    (noText : field.forms.text = false) (noList : field.forms.list = false) :
    ∃ entries, field.Admits (.entries entries) ∧ field.steps (.entries entries) = steps := by
  have modifier := modifier_of_exploded apart
  have entryItems : ∀ step ∈ steps, ∃ entry : Text × Text,
      (field.IsWritten entry.1 ∧ field.IsWritten entry.2) ∧ step = .entries [entry] := by
    intro step member
    obtain ⟨admitted, single⟩ := admits step member
    cases step with
    | texts written =>
      have texts := admitted.2.2
      simp [AdmitsTexts, modifier, noList, noText] at texts
    | entries written =>
      obtain ⟨entry, rfl⟩ := List.length_eq_one_iff.mp (single apart)
      exact ⟨entry, by simpa using admitted.2.1, rfl⟩
  obtain ⟨entries, rfl, known⟩ := exists_eq_map (fun entry => Content.entries [entry]) _ entryItems
  refine ⟨entries, ⟨?_, known, mapped, by simp [Variable.length?, modifier]⟩,
    steps_of_exploded apart _⟩
  rintro rfl
  exact nonempty rfl

/-- Items of an exploded field that is read as a list are the texts of one content. -/
theorem exists_texts_of_steps (listed : field.forms.list = true)
    (apart : field.occurrence.isExploded = true) (nonempty : steps ≠ [])
    (admits : ∀ step ∈ steps, field.AdmitsItem step) (noMap : field.forms.map = false) :
    ∃ texts, field.Admits (.texts texts) ∧ field.steps (.texts texts) = steps := by
  have modifier := modifier_of_exploded apart
  have textItems : ∀ step ∈ steps, ∃ text : Text,
      field.IsWritten text ∧ step = .texts [text] := by
    intro step member
    obtain ⟨admitted, single⟩ := admits step member
    cases step with
    | texts written =>
      obtain ⟨text, rfl⟩ := List.length_eq_one_iff.mp (single apart)
      exact ⟨text, by simpa using admitted.2.1, rfl⟩
    | entries written =>
      have mapped := admitted.2.2.1
      rw [noMap] at mapped
      cases mapped
  obtain ⟨texts, rfl, known⟩ := exists_eq_map (fun text => Content.texts [text]) _ textItems
  refine ⟨texts, ⟨?_, known, ?_⟩, steps_of_exploded apart _⟩
  · rintro rfl
    exact nonempty rfl
  · simp only [AdmitsTexts, modifier]
    exact .inl listed

/-- Items of one field make up a content, provided that an exploded field has only one
form and another field only one item. -/
theorem exists_content_of_steps (isOf : field.IsOf field.operator)
    (admits : ∀ step ∈ steps, field.AdmitsItem step)
    (form : field.occurrence.isExploded = true →
      field.forms.text = false ∧ (field.forms.list = false ∨ field.forms.map = false))
    (once : field.occurrence.isExploded = false → steps.length ≤ 1) :
    ∃ content : Option Content, (∀ known ∈ content, field.Admits known) ∧
      content.toList.flatMap field.steps = steps := by
  by_cases empty : steps = []
  · exact ⟨none, by simp, by simp [empty]⟩
  cases apart : field.occurrence.isExploded with
  | false =>
    have single : steps.length = 1 :=
      Nat.le_antisymm (once apart) (List.length_pos_iff.mpr empty)
    obtain ⟨step, rfl⟩ := List.length_eq_one_iff.mp single
    refine ⟨some step, ?_, by simp [steps_of_whole apart]⟩
    rintro _ ⟨rfl⟩
    exact (admits step List.mem_cons_self).1
  | true =>
    obtain ⟨noText, noList | noMap⟩ := form apart
    · have mapped := isOf.formed.resolve_left (by simp [noList])
      obtain ⟨entries, admitted, same⟩ :=
        exists_entries_of_steps mapped apart empty admits noText noList
      exact ⟨some (.entries entries), by simpa using admitted, by simpa using same⟩
    · have listed := isOf.formed.resolve_right (by simp [noMap])
      obtain ⟨texts, admitted, same⟩ := exists_texts_of_steps listed apart empty admits noMap
      exact ⟨some (.texts texts), by simpa using admitted, by simpa using same⟩

end Field

namespace Selection

/-- If every field has an able content, then there is a selection of able contents. -/
theorem exists_of_forall {fields : List Field} {able : Field → Option Content → Prop}
    (each : ∀ field ∈ fields, ∃ content, able field content) :
    ∃ selection : Selection, selection.map Prod.fst = fields ∧
      ∀ chosen ∈ selection, able chosen.1 chosen.2 := by
  induction fields with
  | nil => exact ⟨[], rfl, by simp⟩
  | cons field fields ih =>
    obtain ⟨⟨content, known⟩, later⟩ := List.forall_mem_cons.mp each
    obtain ⟨selection, same, others⟩ := ih later
    exact ⟨(field, content) :: selection, by rw [List.map_cons, same],
      List.forall_mem_cons.mpr ⟨known, others⟩⟩

/-- The contents of the items of one field, among the items of several fields. -/
def itemsOf (steps : List (Field × Content)) (field : Field) : List Content :=
  (steps.filter fun step => step.1.index = field.index).map Prod.snd

variable {operator : Operator} {fields : List Field} {steps : List (Field × Content)}

theorem eq_of_index_eq (distinct : (fields.map Field.index).Nodup) {first second : Field}
    (member : first ∈ fields) (memberOther : second ∈ fields)
    (same : first.index = second.index) : first = second :=
  List.inj_on_of_nodup_map distinct member memberOther same

/-- The items of one field are items that it may have. -/
theorem admitsItem_of_mem_itemsOf (distinct : (fields.map Field.index).Nodup)
    (known : ∀ step ∈ steps, step.1 ∈ fields ∧ step.1.AdmitsItem step.2) {field : Field}
    (member : field ∈ fields) : ∀ content ∈ itemsOf steps field, field.AdmitsItem content := by
  intro content found
  obtain ⟨step, among, rfl⟩ := List.mem_map.mp found
  obtain ⟨among, same⟩ := List.mem_filter.mp among
  obtain ⟨inside, admitted⟩ := known step among
  rwa [eq_of_index_eq distinct inside member (by simpa using same)] at admitted

/-- What the items of all fields show of one field. -/
theorem textsAt_steps (distinct : (fields.map Field.index).Nodup)
    (known : ∀ step ∈ steps, step.1 ∈ fields) {field : Field} (member : field ∈ fields)
    (facet : Facet) :
    Captures.textsAt (steps.flatMap fun step => step.1.marks step.2) (field.site facet) =
      (itemsOf steps field).flatMap fun content =>
        Captures.textsAt (field.marks content) (field.site facet) := by
  induction steps with
  | nil => rfl
  | cons step steps ih =>
    obtain ⟨here, later⟩ := List.forall_mem_cons.mp known
    rw [List.flatMap_cons, Captures.textsAt_append, ih later]
    by_cases same : step.1.index = field.index
    · rw [eq_of_index_eq distinct here member same]
      simp [itemsOf, same]
    · rw [step.1.textsAt_marks_of_ne step.2 (.inr (Ne.symm same)), List.nil_append]
      simp [itemsOf, same]

/-- **Gathering the items of an expression**: a selection has the same items, and it shows
what the items show. -/
theorem exists_of_steps (each : ∀ field ∈ fields, field.IsOf operator)
    (distinct : (fields.map Field.index).Nodup)
    (known : ∀ step ∈ steps, step.1 ∈ fields ∧ step.1.AdmitsItem step.2)
    (form : ∀ field ∈ fields, field.occurrence.isExploded = true →
      field.forms.text = false ∧ (field.forms.list = false ∨ field.forms.map = false))
    (once : ∀ field ∈ fields, field.occurrence.isExploded = false →
      (itemsOf steps field).length ≤ 1) :
    ∃ selection : Selection, selection.IsOf fields ∧ selection.steps.Perm steps ∧
      ∀ chosen ∈ selection, chosen.1.Shows chosen.2
        (steps.flatMap fun step => step.1.marks step.2) := by
  have inside : ∀ step ∈ steps, step.1 ∈ fields := fun step member => (known step member).1
  have contents : ∀ field ∈ fields, ∃ content : Option Content, field ∈ fields ∧
      (∀ known ∈ content, field.Admits known) ∧
      content.toList.flatMap field.steps = itemsOf steps field := by
    intro field member
    have isOf : field.IsOf field.operator := ⟨rfl, (each field member).formed⟩
    obtain ⟨content, admits, same⟩ := Field.exists_content_of_steps isOf
      (admitsItem_of_mem_itemsOf distinct known member) (form field member) (once field member)
    exact ⟨content, member, admits, same⟩
  obtain ⟨selection, same, chosen⟩ := exists_of_forall contents
  refine ⟨selection, ⟨same, fun pair member => (chosen pair member).2.1⟩, ?_, ?_⟩
  · have grouped : selection.steps =
        (fields.map Field.index).flatMap fun index =>
          steps.filter fun step => step.1.index = index := by
      rw [← same, List.map_map, List.flatMap_map]
      apply List.flatMap_congr
      intro pair member
      obtain ⟨fieldMember, -, gathered⟩ := chosen pair member
      rw [gathered, itemsOf, List.map_map]
      refine (List.map_congr_left fun step found => ?_).trans (List.map_id _)
      obtain ⟨among, sameIndex⟩ := List.mem_filter.mp found
      exact Prod.ext (eq_of_index_eq distinct fieldMember (inside step among)
        (by simpa using Eq.symm (of_decide_eq_true sameIndex))) rfl
    rw [grouped]
    exact flatMap_filter_perm distinct fun step member =>
      List.mem_map_of_mem (inside step member)
  · intro pair member facet
    obtain ⟨fieldMember, -, gathered⟩ := chosen pair member
    rw [textsAt_steps distinct inside fieldMember, ← gathered, List.flatMap_assoc]
    apply List.flatMap_congr
    intro content _
    rw [← Captures.textsAt_flatMap, ← pair.1.marks_eq_steps]

end Selection

end UriTemplates
