import UriTemplates.Binding.Basic
import UriTemplates.Proofs.Template.Items

/-!
# The evidence of a content

What the captures of an expression hold of one field. Captures are kept by site, so those of
the other fields do not show (`Selection.textsAt_marks`), and those of a field with a content
are the parts of the content (`Field.textsAt_value` and its companions).
-/

namespace UriTemplates

/-- If there are items to be had, they have been there. -/
theorem eq_some_of_getD_eq_cons {α : Type} {items : Option (List α)} {first : α} {later : List α}
    (known : items.getD [] = first :: later) : items = some (first :: later) := by
  cases items with
  | none => cases known
  | some items => exact congrArg some known

namespace Captures

variable {κ : Type} [DecidableEq κ]

/-- The texts captured under a key. -/
def textsAt (captures : Captures κ) (key : κ) : List Text :=
  (captures.spans key).filterMap id

/-- The texts under a key are what is captured there, and nothing captured is the same as no texts.
-/
theorem getD_texts? (captures : Captures κ) (key : κ) :
    (captures.texts? key).getD [] = captures.textsAt key := by
  rw [texts?, textsAt]
  cases (captures.spans key).filterMap id <;> rfl

/-- If something is captured under a key, then those are its texts. -/
theorem texts?_eq {captures : Captures κ} {key : κ} (nonempty : captures.textsAt key ≠ []) :
    captures.texts? key = some (captures.textsAt key) := by
  unfold texts?
  unfold textsAt at nonempty ⊢
  split
  · rename_i nothing
    exact (nonempty nothing).elim
  · rfl

/-- A key has texts just if something is captured under it. -/
theorem texts?_eq_some_iff {captures : Captures κ} {key : κ} {texts : List Text} :
    captures.texts? key = some texts ↔ captures.textsAt key = texts ∧ texts ≠ [] := by
  constructor
  · intro known
    have same : captures.textsAt key = texts := by rw [← getD_texts?, known, Option.getD_some]
    refine ⟨same, ?_⟩
    rintro rfl
    rw [texts?, show (captures.spans key).filterMap id = [] from same] at known
    cases known
  · rintro ⟨rfl, nonempty⟩
    exact texts?_eq nonempty

/-- Captures with the same texts at a key are the same evidence there. -/
theorem texts?_congr {captures others : Captures κ} {key : κ}
    (same : captures.textsAt key = others.textsAt key) :
    captures.texts? key = others.texts? key := by
  rw [Option.ext_iff]
  intro texts
  rw [texts?_eq_some_iff, texts?_eq_some_iff, same]

@[simp] theorem textsAt_nil (key : κ) : textsAt ([] : Captures κ) key = [] :=
  rfl

@[simp] theorem textsAt_append (first second : Captures κ) (key : κ) :
    textsAt (first ++ second) key = textsAt first key ++ textsAt second key := by
  simp [textsAt, spans]

/-- A first capture adds its text at its own key and nowhere else. -/
theorem textsAt_cons (mark : κ × Option Text) (captures : Captures κ) (key : κ) :
    textsAt (mark :: captures) key =
      (if mark.1 = key then mark.2.toList else []) ++ textsAt captures key := by
  by_cases same : mark.1 = key
  · cases found : mark.2 <;> simp [textsAt, spans, same, found]
  · simp [textsAt, spans, same]

theorem textsAt_flatMap {α : Type} (items : List α) (record : α → Captures κ) (key : κ) :
    textsAt (items.flatMap record) key = items.flatMap fun item => textsAt (record item) key := by
  induction items with
  | nil => rfl
  | cons item items ih => rw [List.flatMap_cons, List.flatMap_cons, textsAt_append, ih]

/-- Captures under other keys show nothing at a key. -/
theorem textsAt_eq_nil {captures : Captures κ} {key : κ}
    (elsewhere : ∀ mark ∈ captures, mark.1 ≠ key) : textsAt captures key = [] := by
  induction captures with
  | nil => rfl
  | cons mark captures ih =>
    obtain ⟨first, later⟩ := List.forall_mem_cons.mp elsewhere
    rw [textsAt_cons, if_neg first, ih later, List.append_nil]

end Captures

/-- The keys of a content. -/
def Content.keys : Content → List Text
  | texts _ => []
  | entries written => written.map Prod.fst

/-- What the entries of a content hold under their keys. -/
def Content.entryItems : Content → List Text
  | texts _ => []
  | entries written => written.map Prod.snd

namespace Field

open Captures (textsAt textsAt_cons textsAt_nil textsAt_append textsAt_flatMap textsAt_eq_nil)

variable (field : Field) (content : Content)

/-- The site of a facet of a field. -/
def site (facet : Facet) : Site :=
  ⟨field.part, field.index, facet⟩

/-- A mark of a field shows its text at its own facet only. -/
theorem textsAt_mark (facet other : Facet) (text : Text) (captures : Captures Site) :
    textsAt (field.mark facet text :: captures) (field.site other) =
      (if facet = other then [text] else []) ++ textsAt captures (field.site other) := by
  rw [textsAt_cons]
  congr 1
  by_cases same : facet = other
  · simp [mark, site, same]
  · simp [mark, site, same]

/-- The marks of a field belong to sites of this field. -/
theorem site_of_mem_marks : ∀ mark ∈ field.marks content, ∃ facet, mark.1 = field.site facet := by
  have value : ∀ mark ∈ field.valueMarks content, ∃ facet, mark.1 = field.site facet := by
    intro mark member
    cases content with
    | texts written =>
      obtain ⟨text, -, rfl⟩ := List.mem_map.mp member
      exact ⟨_, rfl⟩
    | entries written =>
      obtain ⟨entry, -, inside⟩ := List.mem_flatMap.mp member
      simp only [entryMarks, List.mem_cons, List.not_mem_nil, or_false] at inside
      rcases inside with rfl | rfl | rfl
      · exact ⟨_, rfl⟩
      · exact ⟨_, rfl⟩
      · exact ⟨_, rfl⟩
  have name : ∀ mark ∈ field.nameMarks, ∃ facet, mark.1 = field.site facet := by
    intro mark member
    simp only [nameMarks, List.mem_ite_nil_right, List.mem_singleton] at member
    exact ⟨.name, by rw [member.2]; rfl⟩
  intro mark member
  cases apart : field.occurrence.isExploded with
  | false =>
    rw [marks_of_whole apart] at member
    exact (List.mem_append.mp member).elim (name mark) (value mark)
  | true =>
    cases content with
    | texts written =>
      simp only [Field.marks, apart, ↓reduceIte, List.mem_flatMap] at member
      obtain ⟨text, found, inside⟩ := member
      rcases List.mem_append.mp inside with inside | inside
      · exact name mark inside
      · exact ⟨.value, by rw [List.mem_singleton.mp inside]; rfl⟩
    | entries written =>
      simp only [Field.marks, apart, ↓reduceIte] at member
      exact value mark member

/-- The captures of a field do not show at the site of another one. -/
theorem textsAt_marks_of_ne {site : Site}
    (other : site.part ≠ field.part ∨ site.index ≠ field.index) :
    textsAt (field.marks content) site = [] := by
  apply textsAt_eq_nil
  rintro mark member rfl
  obtain ⟨facet, same⟩ := field.site_of_mem_marks content mark member
  rw [same] at other
  simp [Field.site] at other

/-- The name of a field shows nothing at any other facet. -/
theorem textsAt_nameMarks {facet : Facet} (other : facet ≠ .name) :
    textsAt field.nameMarks (field.site facet) = [] := by
  unfold nameMarks
  split
  · rw [textsAt_mark, if_neg (Ne.symm other)]
    rfl
  · rfl

/-- At each facet, the marks of a content show the values, the keys, or the items of the content. -/
theorem textsAt_valueMarks (facet : Facet) :
    textsAt (field.valueMarks content) (field.site facet) =
      match facet with
      | .value => field.units content
      | .key => content.keys
      | .item => content.entryItems
      | .name => [] := by
  cases content with
  | texts written =>
    induction written with
    | nil => cases facet <;> rfl
    | cons text written ih =>
      simp only [valueMarks, List.map_cons] at ih ⊢
      rw [textsAt_mark, ih]
      cases facet <;> simp [units, Content.keys, Content.entryItems]
  | entries written =>
    induction written with
    | nil => cases facet <;> rfl
    | cons entry written ih =>
      simp only [valueMarks, List.flatMap_cons, textsAt_append] at ih ⊢
      rw [ih, entryMarks, textsAt_mark, textsAt_mark, textsAt_mark, textsAt_nil]
      cases facet <;> simp [units, Content.keys, Content.entryItems]

/-- What shows of a field besides its name. -/
theorem textsAt_marks {facet : Facet} (other : facet ≠ .name) :
    textsAt (field.marks content) (field.site facet) =
      textsAt (field.valueMarks content) (field.site facet) := by
  cases apart : field.occurrence.isExploded with
  | false => rw [marks_of_whole apart, textsAt_append, field.textsAt_nameMarks other,
      List.nil_append]
  | true =>
    cases content with
    | texts written =>
      simp only [Field.marks, apart, ↓reduceIte, valueMarks, textsAt_flatMap, textsAt_append,
        field.textsAt_nameMarks other, List.nil_append, List.map_eq_flatMap]
    | entries written => simp only [Field.marks, apart, ↓reduceIte, valueMarks]

theorem textsAt_value :
    textsAt (field.marks content) (field.site .value) = field.units content := by
  rw [field.textsAt_marks content (by simp), textsAt_valueMarks]

theorem textsAt_key : textsAt (field.marks content) (field.site .key) = content.keys := by
  rw [field.textsAt_marks content (by simp), textsAt_valueMarks]

theorem textsAt_item : textsAt (field.marks content) (field.site .item) = content.entryItems := by
  rw [field.textsAt_marks content (by simp), textsAt_valueMarks]

/-- The name of a field that is not exploded is written once. -/
theorem textsAt_name (whole : field.occurrence.isExploded = false)
    (named : field.operator.isNamed = true) :
    textsAt (field.marks content) (field.site .name) = [field.occurrence.name] := by
  rw [marks_of_whole whole, textsAt_append, textsAt_valueMarks, nameMarks_of_named named,
    textsAt_mark]
  simp

end Field

/-- Each field of a selection shows just its own content. -/
theorem Selection.textsAt_marks {selection : Selection}
    (distinct : (selection.map fun chosen => chosen.1.index).Nodup) :
    ∀ chosen ∈ selection, ∀ facet,
      Captures.textsAt selection.marks (chosen.1.site facet) =
        chosen.2.toList.flatMap fun content =>
          Captures.textsAt (chosen.1.marks content) (chosen.1.site facet) := by
  induction selection with
  | nil => simp
  | cons first selection ih =>
    obtain ⟨field, content⟩ := first
    rw [List.map_cons, List.nodup_cons] at distinct
    obtain ⟨apart, distinct⟩ := distinct
    have split : ∀ site, Captures.textsAt (Selection.marks ((field, content) :: selection)) site =
        (content.toList.flatMap fun content => Captures.textsAt (field.marks content) site) ++
          Captures.textsAt (Selection.marks selection) site := by
      intro site
      cases content <;> simp
    have elsewhere : ∀ facet,
        Captures.textsAt (Selection.marks selection) (field.site facet) = [] := by
      intro facet
      rw [Selection.marks, Captures.textsAt_flatMap, List.flatMap_eq_nil_iff]
      intro chosen member
      obtain ⟨other, _ | known⟩ := chosen
      · rfl
      · refine other.textsAt_marks_of_ne known (.inr fun same => ?_)
        exact apart (List.mem_map.mpr ⟨_, member, same.symm⟩)
    rw [List.forall_mem_cons]
    constructor
    · intro facet
      rw [split, elsewhere, List.append_nil]
    · intro chosen member facet
      have none : (content.toList.flatMap fun content =>
          Captures.textsAt (field.marks content) (chosen.1.site facet)) = [] := by
        rw [List.flatMap_eq_nil_iff]
        intro content _
        refine field.textsAt_marks_of_ne content (.inr fun same => ?_)
        exact apart (List.mem_map.mpr ⟨chosen, member, same⟩)
      rw [split, none, List.nil_append, ih distinct chosen member facet]

end UriTemplates
