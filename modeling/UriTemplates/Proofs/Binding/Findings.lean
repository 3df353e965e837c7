import UriTemplates.Proofs.Binding.Evidence
import UriTemplates.Proofs.Expansion.Content
import UriTemplates.Proofs.OrderedMap

/-!
# What is found of a content

The finding for a field whose captures show a content is what the content stands for
(`Field.finding_of_shows`). A value that is found contributes what was captured, provided that
encoding undoes the decoding of every captured text (`Field.contribution_of_finding`).
-/

namespace UriTemplates

namespace Binding

/-- An entry with its key and its item decoded. -/
def decodedEntry (entry : Text × Text) : Text × Text :=
  (Percent.decode entry.1, Percent.decode entry.2)

/-- The captured texts that are decoded for a variable: its values, or its keys and items. -/
def decodedTexts (v : Variable) (evidence : Evidence) (index : Nat) : List Text :=
  let values := (evidence index .value).getD []
  let keys := (evidence index .key).getD []
  if v.length?.isSome || keys.isEmpty then values
  else
    ((entries? v.name values keys ((evidence index .item).getD [])).getD []).flatMap fun entry =>
      [entry.1, entry.2]

/-- Decoded entries make up a map just if they are the entries of one. -/
theorem distinctMap?_eq_some_iff {entries : List (Text × Text)} {map : OrderedMap Text Text} :
    distinctMap? entries = some map ↔ map.entries = entries.map decodedEntry := by
  have general : ∀ (entries : List (Text × Text)) (start : OrderedMap Text Text),
      entries.foldlM (fun (map : OrderedMap Text Text) (entry : Text × Text) =>
        if map.contains (Percent.decode entry.1) then none
        else some (map.insert (Percent.decode entry.1) (Percent.decode entry.2))) start = some map ↔
      map.entries = start.entries ++ entries.map decodedEntry := by
    intro entries
    induction entries with
    | nil =>
      intro start
      simp only [List.foldlM_nil, List.map_nil, List.append_nil]
      exact ⟨fun same => by cases same; rfl, fun same => by rw [OrderedMap.ext_entries same]; rfl⟩
    | cons entry entries ih =>
      intro start
      rw [List.foldlM_cons]
      cases known : start.contains (Percent.decode entry.1) with
      | true =>
        simp only [↓reduceIte, Option.bind_eq_bind, Option.bind_none, reduceCtorEq, false_iff]
        intro same
        have distinct := map.distinct
        rw [same, List.map_append, List.map_cons, List.map_cons] at distinct
        have present : Percent.decode entry.1 ∈ start.keys := by
          by_contra new
          rw [OrderedMap.contains_eq_false_iff.mpr new] at known
          cases known
        exact (List.nodup_append.mp distinct).2.2 _ present _ List.mem_cons_self rfl
      | false =>
        have new := OrderedMap.contains_eq_false_iff.mp known
        simp only [Bool.false_eq_true, ↓reduceIte, Option.bind_eq_bind, Option.bind_some]
        rw [ih, OrderedMap.entries_insert_of_notMem new, List.map_cons, List.append_assoc]
        rfl
  exact general entries .empty

end Binding

/-- What is found of a content. -/
def Content.finding (hints : Hints) (v : Variable) : Content → Binding.Finding
  | texts written => Binding.textsFinding hints v written
  | entries written =>
    match Binding.distinctMap? written with
    | none => .impossible
    | some map => .value (.map map)

/-- The texts of a content that are decoded. -/
def Content.decoded : Content → List Text
  | texts written => written
  | entries written => written.flatMap fun entry => [entry.1, entry.2]

namespace Field

open Captures (textsAt)

/-- Whether captures show a content of a field, or nothing of it. -/
def Shows (field : Field) (content : Option Content) (captures : Captures Site) : Prop :=
  ∀ facet, textsAt captures (field.site facet) =
    content.toList.flatMap fun known => textsAt (field.marks known) (field.site facet)

variable {field : Field} {captures : Captures Site} {hints : Hints}

/-- An admitted content has at least one value to be captured. -/
theorem units_ne_nil {content : Content} (admitted : field.Admits content) :
    field.units content ≠ [] := by
  cases content with
  | texts written => exact admitted.1
  | entries written => simpa [units] using admitted.1

/-- The field of a content is written once, or each of its items is. -/
theorem isRepeated_of_shows {content : Content} (shows : field.Shows (some content) captures) :
    Binding.isRepeated field.operator field.occurrence
      (captures.evidence field.part field.index .name) = false := by
  cases named : field.operator.isNamed with
  | false => simp [Binding.isRepeated, named]
  | true =>
    cases apart : field.occurrence.isExploded with
    | true => simp [Binding.isRepeated, apart]
    | false =>
      have names : (captures.evidence field.part field.index .name).getD [] =
          [field.occurrence.name] := by
        rw [Captures.evidence, Captures.getD_texts?]
        exact (shows .name).trans (by simp [field.textsAt_name content apart named])
      simp [Binding.isRepeated, names]

/-- Captures that show a content have its values as evidence. -/
theorem values_of_shows {content : Option Content} (shows : field.Shows content captures) :
    (captures.evidence field.part field.index .value).getD [] =
      content.toList.flatMap field.units := by
  rw [Captures.evidence, Captures.getD_texts?]
  exact (shows .value).trans (by simp [textsAt_value])

/-- Captures that show a content have its keys as evidence. -/
theorem keys_of_shows {content : Option Content} (shows : field.Shows content captures) :
    (captures.evidence field.part field.index .key).getD [] =
      content.toList.flatMap Content.keys := by
  rw [Captures.evidence, Captures.getD_texts?]
  exact (shows .key).trans (by simp [textsAt_key])

/-- Captures that show entries have the items of these entries as evidence. -/
theorem items_of_shows {entries : List (Text × Text)} (nonempty : entries ≠ [])
    (shows : field.Shows (some (.entries entries)) captures) :
    captures.evidence field.part field.index .item = some (entries.map Prod.snd) := by
  have shown : textsAt captures (field.site .item) = entries.map Prod.snd := by
    rw [shows .item]
    simp [textsAt_item, Content.entryItems]
  have some_ : textsAt captures (field.site .item) ≠ [] := by
    rw [shown]
    exact mt List.map_eq_nil_iff.mp nonempty
  exact (Captures.texts?_eq some_).trans (congrArg some shown)

/-- The captured entries are those of the content. -/
theorem entries?_units (field : Field) (entries : List (Text × Text)) :
    Binding.entries? field.occurrence.name (field.units (.entries entries))
      (entries.map Prod.fst) (entries.map Prod.snd) = some entries := by
  rw [Binding.entries?, if_pos (by simp [units]), List.zip_map', List.map_id']

/-- **The finding for a field** whose captures show a content is what is found of the
content. -/
theorem finding_of_shows {content : Option Content} (shows : field.Shows content captures)
    (admits : ∀ known ∈ content, field.Admits known) :
    Binding.finding field.operator field.part (captures.evidence field.part) hints field.index
      field.occurrence =
        .ok ((content.map (Content.finding hints field.occurrence)).getD .silent) := by
  have values := values_of_shows shows
  have keys := keys_of_shows shows
  rw [Binding.finding, values]
  cases content with
  | none => rfl
  | some content =>
    have admitted := admits content rfl
    obtain ⟨value, later, units⟩ := List.exists_cons_of_ne_nil (units_ne_nil admitted)
    simp only [Option.toList_some, List.flatMap_singleton] at keys ⊢
    rw [units, keys]
    simp only [isRepeated_of_shows shows, Bool.false_eq_true, ↓reduceIte, Option.map_some,
      Option.getD_some]
    cases content with
    | texts written =>
      have same : value :: later = written := units.symm
      simp only [Content.keys, same, ite_self]
      rfl
    | entries written =>
      obtain ⟨nonempty, -, -, untruncated⟩ := admitted
      have items := items_of_shows nonempty shows
      have paired := field.entries?_units written
      obtain ⟨entry, others, rfl⟩ := List.exists_cons_of_ne_nil nonempty
      rw [units] at paired
      have keyed : Content.keys (.entries (entry :: others)) =
          entry.1 :: others.map Prod.fst := rfl
      rw [untruncated, keyed, items]
      simp only [Option.isSome_none, Bool.false_eq_true, ↓reduceIte, Binding.mapFinding]
      rw [← List.map_cons, paired]
      simp only [Content.finding]
      cases Binding.distinctMap? (entry :: others) <;> rfl

/-- The texts that are decoded for a field are those of the content. -/
theorem decodedTexts_of_shows {content : Option Content} (shows : field.Shows content captures)
    (admits : ∀ known ∈ content, field.Admits known) :
    Binding.decodedTexts field.occurrence (captures.evidence field.part) field.index =
      content.toList.flatMap Content.decoded := by
  rw [Binding.decodedTexts, values_of_shows shows, keys_of_shows shows]
  cases content with
  | none => simp
  | some content =>
    simp only [Option.toList_some, List.flatMap_singleton]
    cases content with
    | texts written => simp [Content.keys, Content.decoded, units]
    | entries written =>
      obtain ⟨nonempty, -, -, untruncated⟩ := admits _ rfl
      have some_ : (Content.keys (.entries written)).isEmpty = false := by
        simpa [Content.keys] using nonempty
      rw [items_of_shows nonempty shows, Option.getD_some, untruncated, some_, Content.keys,
        entries?_units]
      rfl

/-- Of a content that a field may have something is found. -/
theorem exists_value_of_finding {content : Content} (admitted : field.Admits content)
    (possible : content.finding hints field.occurrence ≠ .impossible) :
    ∃ value, content.finding hints field.occurrence = .value value := by
  cases content with
  | texts written =>
    have form := admitted.2.2
    simp only [Content.finding, Binding.textsFinding]
    unfold AdmitsTexts at form
    split
    · exact ⟨_, rfl⟩
    · rename_i length modifier several
      simp only [modifier] at form
      obtain ⟨text, rfl, -⟩ := form
      exact (several text rfl).elim
    · split
      · exact ⟨_, rfl⟩
      · exact ⟨_, rfl⟩
    · exact ⟨_, rfl⟩
  | entries written =>
    simp only [Content.finding] at possible ⊢
    split at possible
    · exact (possible rfl).elim
    · exact ⟨_, rfl⟩

/-- A text of no more code points than a truncation keeps is kept whole. -/
theorem kept_decode {text : Text}
    (canonical : field.operator.encode (Percent.decode text) = text)
    (admitted : field.AdmitsTexts [text]) :
    field.occurrence.kept (Percent.decode text) = Percent.decode text := by
  rw [Variable.kept, Variable.length?]
  unfold AdmitsTexts at admitted
  cases modifier : field.occurrence.modifier with
  | truncated length =>
    simp only [modifier, List.cons.injEq, and_true, exists_eq_left'] at admitted ⊢
    obtain ⟨count, bound, points⟩ := admitted
    have decoded : Percent.InCodePoints field.operator.allowsReserved _ _ :=
      Percent.inCodePoints_encode (Percent.decode text)
    rw [← Operator.encode, canonical] at decoded
    exact List.take_of_length_le (decoded.count_eq points ▸ bound)
  | exploded => rfl
  | plain => rfl

/-- A variable without a truncation has no length. -/
theorem length?_eq_none {v : Variable}
    (untruncated : ∀ length, v.modifier = .truncated length → False) : v.length? = none := by
  unfold Variable.length?
  split
  · rename_i length modifier
    exact (untruncated length modifier).elim
  · rfl

/-- A text that is written canonically is what its decoded text contributes. -/
theorem contribution_decode {text : Text} (admitted : field.AdmitsTexts [text])
    (canonical : field.operator.encode (Percent.decode text) = text) :
    field.operator.contribution field.occurrence (.text (Percent.decode text)) =
      .ok (some (field.written (.texts [text]))) := by
  have kept := kept_decode canonical admitted
  rw [Operator.contribution, ← field.written_text, kept, canonical]

/-- Texts that are written canonically are what the list of their decoded texts contributes. -/
theorem contribution_map_decode {texts : List Text} (nonempty : texts ≠ [])
    (untruncated : field.occurrence.length? = none)
    (canonical : ∀ text ∈ texts, field.operator.encode (Percent.decode text) = text) :
    field.operator.contribution field.occurrence (.list (texts.map Percent.decode)) =
      .ok (some (field.written (.texts texts))) := by
  have some_ : (texts.map Percent.decode).isEmpty = false := by simpa using nonempty
  have encoded : (texts.map Percent.decode).map field.operator.encode = texts := by
    rw [List.map_map]
    exact (List.map_congr_left canonical).trans (List.map_id texts)
  simp [Operator.contribution, untruncated, some_, ← field.written_list, encoded]

/-- Entries that are written canonically are what the map of the decoded entries contributes. -/
theorem contribution_decodedEntries {entries : List (Text × Text)} {map : OrderedMap Text Text}
    (nonempty : entries ≠ []) (untruncated : field.occurrence.length? = none)
    (canonical : ∀ entry ∈ entries, field.operator.encode (Percent.decode entry.1) = entry.1 ∧
      field.operator.encode (Percent.decode entry.2) = entry.2)
    (same : map.entries = entries.map Binding.decodedEntry) :
    field.operator.contribution field.occurrence (.map map) =
      .ok (some (field.written (.entries entries))) := by
  have some_ : map.isEmpty = false := by
    simpa [OrderedMap.isEmpty, same] using nonempty
  have encoded : (map.entries.map fun entry =>
      (field.operator.encode entry.1, field.operator.encode entry.2)) = entries := by
    rw [same, List.map_map]
    refine (List.map_congr_left fun entry member => ?_).trans (List.map_id entries)
    exact Prod.ext (canonical entry member).1 (canonical entry member).2
  simp [Operator.contribution, untruncated, some_, ← field.written_map, encoded]

/-- **What is found contributes what was captured**, provided that encoding undoes the
decoding of every captured text. -/
theorem contribution_of_finding {content : Content} (admitted : field.Admits content)
    (canonical : ∀ text ∈ content.decoded, field.operator.encode (Percent.decode text) = text)
    {value : Value} (found : content.finding hints field.occurrence = .value value) :
    field.operator.contribution field.occurrence value = .ok (some (field.written content)) := by
  cases content with
  | texts written =>
    obtain ⟨nonempty, -, admits⟩ := admitted
    have single : ∀ text, written = [text] → field.operator.contribution field.occurrence
        (.text (Percent.decode text)) = .ok (some (field.written (.texts written))) := by
      rintro text rfl
      exact contribution_decode admits (canonical text (by simp [Content.decoded]))
    simp only [Content.finding, Binding.textsFinding] at found
    split at found
    · cases found
      exact single _ rfl
    · cases found
    · rename_i notTruncated
      split at found
      · cases found
        exact single _ rfl
      · cases found
        exact contribution_map_decode nonempty (length?_eq_none notTruncated) canonical
    · rename_i notTruncated _
      cases found
      exact contribution_map_decode nonempty (length?_eq_none notTruncated) canonical
  | entries written =>
    obtain ⟨nonempty, -, -, untruncated⟩ := admitted
    simp only [Content.finding] at found
    split at found
    · cases found
    · rename_i map distinct
      cases found
      apply contribution_decodedEntries nonempty untruncated
      · intro entry member
        exact ⟨canonical entry.1 (List.mem_flatMap.mpr ⟨entry, member, by simp⟩),
          canonical entry.2 (List.mem_flatMap.mpr ⟨entry, member, by simp⟩)⟩
      · exact Binding.distinctMap?_eq_some_iff.mp distinct

end Field

end UriTemplates
