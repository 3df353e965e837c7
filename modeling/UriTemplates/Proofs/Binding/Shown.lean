import UriTemplates.Proofs.Binding.Gathering
import UriTemplates.Proofs.Binding.Pairing

/-!
# Contents that captures show

What the captures of a field tell where they show some contents of it, one after the other
(`Field.ShowsItems`). A field that is not exploded has one content at most, unless its name was
written more than once (`Field.ShowsItems.length_le_one`). So where a field has keys, every value
has one entry, and every captured pair of a key and an item is used
(`Field.ShowsItems.exists_paired`). Hence something is found for the field in any case, if only that
the captures stem from no expansion (`Field.ShowsItems.exists_finding`).
-/

namespace UriTemplates

open Captures (textsAt)

/-- The entries of a content. -/
def Content.pairs : Content → List (Text × Text)
  | texts _ => []
  | entries written => written

theorem Content.keys_eq (content : Content) : content.keys = content.pairs.map Prod.fst := by
  cases content <;> rfl

theorem Content.entryItems_eq (content : Content) :
    content.entryItems = content.pairs.map Prod.snd := by
  cases content <;> rfl

namespace Field

/-- An entry that is an item of its own has an equals sign between its key and its item, or just
the key if the item is empty. -/
theorem isWrittenEntry_entryText {field : Field} (apart : field.occurrence.isExploded = true)
    (pair : Text × Text) :
    Binding.isWrittenEntry (field.entryText pair) pair.1 pair.2 = true := by
  obtain ⟨key, item⟩ := pair
  have written : field.entryText (key, item) = key ++ '=' :: item ∨
      item = [] ∧ field.entryText (key, item) = key := by
    rw [entryText, if_pos apart, Operator.entryContribution, Operator.withName]
    split_ifs with named empty
    · rw [show item = [] from List.isEmpty_iff.mp empty]
      cases field.operator with
      | query => exact .inl rfl
      | continuation => exact .inl rfl
      | _ => exact .inr ⟨rfl, List.append_nil key⟩
    · exact .inl rfl
    · exact .inl rfl
  rcases written with same | ⟨rfl, same⟩
  · simp [Binding.isWrittenEntry, same]
  · simp [Binding.isWrittenEntry, same]

/-- The text of an entry writes its key and its item. -/
theorem writes_entryText (field : Field) (pair : Text × Text) :
    Binding.Writes (field.entryText pair) pair := by
  cases apart : field.occurrence.isExploded with
  | true => exact .inl (isWrittenEntry_entryText apart pair)
  | false => exact .inr (entryText_of_whole apart pair)

/-- The texts of the entries of contents are among their values. -/
theorem pairs_sublist_units (field : Field) (contents : List Content) :
    ((contents.flatMap Content.pairs).map field.entryText).Sublist
      (contents.flatMap field.units) := by
  induction contents with
  | nil => exact .slnil
  | cons content contents ih =>
    rw [List.flatMap_cons, List.flatMap_cons, List.map_append]
    refine List.Sublist.append ?_ ih
    cases content with
    | texts written => exact List.nil_sublist written
    | entries written => exact .refl _

/-- Whether captures show contents of a field, one after the other. Where no names are written, a
field that is not exploded has a single content. -/
structure ShowsItems (field : Field) (contents : List Content) (captures : Captures Site) :
    Prop where
  /-- The field may have each of the contents as an item. -/
  admits : ∀ content ∈ contents, field.AdmitsItem content
  /-- The captures of the field are those of the contents. -/
  texts : ∀ facet, textsAt captures (field.site facet) =
    contents.flatMap fun content => textsAt (field.marks content) (field.site facet)
  /-- A field without a name is read at once. -/
  once : field.operator.isNamed = false → field.occurrence.isExploded = false →
    contents.length ≤ 1

variable {field : Field} {contents : List Content} {captures : Captures Site}

namespace ShowsItems

variable (shows : field.ShowsItems contents captures)

include shows

theorem textsAt_value : textsAt captures (field.site .value) = contents.flatMap field.units :=
  (shows.texts .value).trans (by simp only [field.textsAt_value])

theorem textsAt_key : textsAt captures (field.site .key) =
    (contents.flatMap Content.pairs).map Prod.fst := by
  rw [shows.texts, List.map_flatMap]
  simp only [field.textsAt_key, Content.keys_eq]

theorem textsAt_item : textsAt captures (field.site .item) =
    (contents.flatMap Content.pairs).map Prod.snd := by
  rw [shows.texts, List.map_flatMap]
  simp only [field.textsAt_item, Content.entryItems_eq]

/-- A field that is not exploded has one content at most if its name was not written again. -/
theorem length_le_one (whole : field.occurrence.isExploded = false)
    (unrepeated : Binding.isRepeated field.operator field.occurrence
      (captures.evidence field.part field.index .name) = false) : contents.length ≤ 1 := by
  cases named : field.operator.isNamed with
  | false => exact shows.once named whole
  | true =>
    have names : (captures.evidence field.part field.index .name).getD [] =
        contents.map fun _ => field.occurrence.name := by
      rw [Captures.evidence, Captures.getD_texts?, List.map_eq_flatMap]
      refine (shows.texts .name).trans (List.flatMap_congr fun content _ => ?_)
      exact field.textsAt_name content whole named
    rw [Binding.isRepeated, names, List.length_map, named, whole] at unrepeated
    simpa using unrepeated

/-- **Every value has an entry, and every captured pair is used**, where a field has keys. -/
theorem exists_paired {keys : List Text}
    (keyed : captures.evidence field.part field.index .key = some keys)
    (unrepeated : Binding.isRepeated field.operator field.occurrence
      (captures.evidence field.part field.index .name) = false) :
    ∃ values items entries,
      captures.evidence field.part field.index .value = some values ∧
      captures.evidence field.part field.index .item = some items ∧
      items.length = keys.length ∧
      Binding.entries? field.occurrence.name values keys items = some entries ∧
      Binding.Paired field.occurrence.name values (keys.zip items) entries := by
  obtain ⟨same, nonempty⟩ := Captures.texts?_eq_some_iff.mp keyed
  obtain rfl : (contents.flatMap Content.pairs).map Prod.fst = keys :=
    shows.textsAt_key.symm.trans same
  have among := field.pairs_sublist_units contents
  rw [Ne, List.map_eq_nil_iff] at nonempty
  have apart : (contents.flatMap field.units).length ≠ (contents.flatMap Content.pairs).length →
      field.occurrence.isExploded = true := by
    intro differs
    by_contra whole
    rw [Bool.not_eq_true] at whole
    -- A single content that has keys has as many values.
    match contents, shows.length_le_one whole unrepeated with
    | [], _ => exact nonempty rfl
    | [.texts written], _ => exact nonempty rfl
    | [.entries written], _ => exact differs (by simp [units, Content.pairs])
  obtain ⟨entries, read, paired⟩ := Binding.exists_paired among
    (fun pair _ => field.writes_entryText pair)
    fun differs pair _ => isWrittenEntry_entryText (apart differs) pair
  refine ⟨_, _, entries, Captures.texts?_eq_some_iff.mpr ⟨shows.textsAt_value, ?_⟩,
    Captures.texts?_eq_some_iff.mpr ⟨shows.textsAt_item, mt List.map_eq_nil_iff.mp nonempty⟩,
    by rw [List.length_map, List.length_map], read, ?_⟩
  · intro nothing
    rw [nothing, List.sublist_nil, List.map_eq_nil_iff] at among
    exact nonempty among
  · rwa [List.zip_map', List.map_id']

/-- Something is found for a field whose captures show contents. -/
theorem exists_finding (hints : Hints) :
    ∃ found, Binding.finding field.operator field.part (captures.evidence field.part) hints
      field.index field.occurrence = .ok found := by
  unfold Binding.finding
  split
  · exact ⟨_, rfl⟩
  rename_i value values captured
  split
  · exact ⟨_, rfl⟩
  rename_i unrepeated
  split
  · exact ⟨_, rfl⟩
  split
  · exact ⟨_, rfl⟩
  rename_i key keys keyed
  obtain ⟨_, items, entries, valued, itemized, -, read, -⟩ := shows.exists_paired
    (eq_some_of_getD_eq_cons keyed) (Bool.eq_false_iff.mpr unrepeated)
  rw [eq_some_of_getD_eq_cons captured, Option.some.injEq] at valued
  subst valued
  rw [itemized]
  simp only [Binding.mapFinding, read]
  split
  · exact ⟨_, rfl⟩
  · exact ⟨_, rfl⟩

/-- A field that is not exploded and was read several times stems from no expansion. -/
theorem finding_of_several (whole : field.occurrence.isExploded = false)
    (several : 1 < contents.length) (hints : Hints) :
    Binding.finding field.operator field.part (captures.evidence field.part) hints field.index
      field.occurrence = .ok .impossible := by
  have repeated : Binding.isRepeated field.operator field.occurrence
      (captures.evidence field.part field.index .name) = true := by
    by_contra unrepeated
    have once := shows.length_le_one whole (Bool.eq_false_iff.mpr unrepeated)
    omega
  have valued : (captures.evidence field.part field.index .value).getD [] ≠ [] := by
    obtain ⟨content, member⟩ := List.exists_mem_of_length_pos (Nat.zero_lt_of_lt several)
    rw [Captures.evidence, Captures.getD_texts?]
    refine shows.textsAt_value.trans_ne (mt List.flatMap_eq_nil_iff.mp fun nothing => ?_)
    exact Field.units_ne_nil (shows.admits content member).1 (nothing content member)
  obtain ⟨value, later, some_⟩ := List.exists_cons_of_ne_nil valued
  unfold Binding.finding
  rw [some_]
  simp only [repeated, ↓reduceIte]

end ShowsItems

end Field

/-- The items of one field are shown where those of all fields are. -/
theorem Selection.showsItems_itemsOf {fields : List Field}
    (distinct : (fields.map Field.index).Nodup) {steps : List (Field × Content)}
    (known : ∀ step ∈ steps, step.1 ∈ fields ∧ step.1.AdmitsItem step.2)
    {captures : Captures Site} {field : Field} (member : field ∈ fields)
    (named : field.operator.isNamed = true)
    (shown : ∀ facet, textsAt captures (field.site facet) =
      textsAt (steps.flatMap fun step => step.1.marks step.2) (field.site facet)) :
    field.ShowsItems (Selection.itemsOf steps field) captures where
  admits := admitsItem_of_mem_itemsOf distinct known member
  texts facet := (shown facet).trans
    (textsAt_steps distinct (fun step among => (known step among).1) member facet)
  once unnamed := by
    rw [named] at unnamed
    cases unnamed

end UriTemplates
