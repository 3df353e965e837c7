import UriTemplates.Expansion
import UriTemplates.Proofs.OrderedMap
import UriTemplates.Proofs.Steps
import UriTemplates.Proofs.Value.Keys

/-!
# Normalization

When the data of a caller are converted to values, and that values are converted to themselves. The
pairs of a mapping meet twice: once truth values are spelled out, before anything is checked, and
then as texts. So the item of a truth value is overlooked if the key comes again as a text
(`Datum.PairsConvert`). What is converted is just what has a value (`Datum.converts_iff`), and a
value as a datum has itself as its value (`Value.ofDatum?_data`). Main statement:
`Environment.ofPairs_normalizes`.
-/

namespace UriTemplates

namespace Datum

/-- Whether a datum is a scalar: a truth value, a number, a text, or bytes that are UTF-8. -/
def IsScalar : Datum → Prop
  | truth _ => True
  | text _ => True
  | whole _ => True
  | double _ => True
  | bytes content => (Utf8.decode? content).isSome = true
  | _ => False

/-- Whether a datum is a name: a scalar that is no truth value. -/
def IsName : Datum → Prop
  | truth _ => False
  | datum => datum.IsScalar

/-- Whether a key of a mapping comes again in later pairs once truth values are spelled out. -/
def ComesAgain (key : Datum) (later : List (Datum × Datum)) : Prop :=
  ∃ pair ∈ later, sameKey (Value.spelledOut key) (Value.spelledOut pair.1) = true

/-- Whether the pairs of a mapping are converted: every key is a scalar, and so is every item but
one whose key comes again, which may be anything without a collection as a key. -/
def PairsConvert : List (Datum × Datum) → Prop
  | [] => True
  | (key, item) :: later =>
    key.IsScalar ∧ (item.IsScalar ∨ key.ComesAgain later ∧ item.collectionKey? = none) ∧
      PairsConvert later

/-- Whether a datum is converted to a value: it is nothing, a scalar, a list of scalars or a
mapping whose pairs are converted. -/
def Converts : Datum → Prop
  | nothing => True
  | list items => ∀ item ∈ items, item.IsScalar
  | tuple items => ∀ item ∈ items, item.IsScalar
  | set items => ∀ item ∈ items, item.IsScalar
  | mapping pairs => PairsConvert pairs
  | datum => datum.IsScalar

/-- Whether a datum is a value as it is: nothing, a text, a list of texts, or a mapping from texts
to texts with different keys. -/
inductive IsNormal : Datum → Prop
  /-- Nothing. -/
  | nothing : IsNormal nothing
  /-- A text. -/
  | text (written : Text) : IsNormal (text written)
  /-- A list of texts. -/
  | list (items : List Text) : IsNormal (list (items.map Datum.text))
  /-- A mapping from texts to texts. -/
  | mapping (entries : List (Text × Text)) (distinct : (entries.map Prod.fst).Nodup) :
    IsNormal (mapping (entries.map fun entry => (Datum.text entry.1, Datum.text entry.2)))

variable {datum first second : Datum} {pairs : List (Datum × Datum)}

/-- A datum has a text if it is a name. -/
theorem isSome_scalarText?_iff : (Value.scalarText? datum).isSome = true ↔ datum.IsName := by
  cases datum <;> simp [Value.scalarText?, IsName, IsScalar]

/-- Once truth values are spelled out, the names are the scalars. -/
theorem isName_spelledOut_iff : (Value.spelledOut datum).IsName ↔ datum.IsScalar := by
  cases datum with
  | truth value => cases value <;> simp [Value.spelledOut, IsName, IsScalar]
  | _ => simp [Value.spelledOut, IsName, IsScalar]

theorem IsScalar.kindAsKey? (scalar : datum.IsScalar) : datum.kindAsKey? = none := by
  cases datum <;> first | rfl | exact scalar.elim

theorem IsScalar.collectionKey? (scalar : datum.IsScalar) : datum.collectionKey? = none := by
  cases datum <;> first | rfl | exact scalar.elim

/-- No collection is a key within what can be a key itself. -/
theorem collectionKey?_of_kindAsKey? (flat : datum.kindAsKey? = none) :
    datum.collectionKey? = none := by
  cases datum <;> first | rfl | cases flat

/-- What can be a key still can once truth values are spelled out. -/
theorem isKey_spelledOut (flat : datum.kindAsKey? = none) : (Value.spelledOut datum).IsKey := by
  cases datum with
  | truth value => cases value <;> exact ⟨rfl, rfl⟩
  | _ => exact ⟨flat, rfl⟩

/-- A key that is a number is a name. -/
theorem isName_of_number? {number : ℚ} (key : datum.IsKey) (known : datum.number? = some number) :
    datum.IsName := by
  cases datum with
  | truth value => cases value <;> cases key.2
  | whole _ => trivial
  | double _ => trivial
  | _ => cases known

/-- The same keys are names or not. -/
theorem isName_congr (here : first.IsKey) (there : second.IsKey)
    (same : sameKey first second = true) : first.IsName ↔ second.IsName := by
  obtain ⟨identity, known, knownToo⟩ := (sameKey_iff here.1).mp same
  cases identity with
  | inl number =>
    exact iff_of_true (isName_of_number? here (identity?_eq_inl_iff.mp known))
      (isName_of_number? there (identity?_eq_inl_iff.mp knownToo))
  | inr other =>
    rw [(identity?_eq_inr_iff.mp known).2, (identity?_eq_inr_iff.mp knownToo).2]

/-- Whether both parts of a pair are names, as they are once truth values are spelled out. -/
def AreNames (pair : Datum × Datum) : Prop :=
  pair.1.IsName ∧ pair.2.IsName

/-- Whether pairs are names is the same for the same keys and the same items. -/
theorem respects_areNames : Respects AreNames := fun _ _ _ here there same =>
  and_congr_left' (isName_congr here there same)

/-- A pair with its truth values spelled out. -/
def spelledPair (pair : Datum × Datum) : Datum × Datum :=
  (Value.spelledOut pair.1, Value.spelledOut pair.2)

/-- No collection is a key among items if none is within any of them. -/
theorem collectionKeyAmong?_eq_none_iff {items : List Datum} :
    collectionKeyAmong? items = none ↔ ∀ item ∈ items, item.collectionKey? = none := by
  induction items with
  | nil => simp [collectionKeyAmong?]
  | cons item items ih => simp [collectionKeyAmong?, ih]

/-- No collection is a key within pairs if their keys can be keys and no collection is one within
their items. -/
theorem collectionKeyInPairs?_eq_none_iff :
    collectionKeyInPairs? pairs = none ↔
      ∀ pair ∈ pairs, pair.1.kindAsKey? = none ∧ pair.2.collectionKey? = none := by
  induction pairs with
  | nil => simp [collectionKeyInPairs?]
  | cons pair pairs ih =>
    rw [collectionKeyInPairs?, List.forall_mem_cons, ← ih]
    simp only [Option.orElse_eq_orElse, Option.orElse_eq_or, Option.or_eq_none_iff]
    constructor
    · rintro ⟨-, item, key, later⟩
      exact ⟨⟨key, item⟩, later⟩
    · rintro ⟨⟨key, item⟩, later⟩
      exact ⟨collectionKey?_of_kindAsKey? key, item, key, later⟩

/-- The keys of pairs that are converted are scalars. -/
theorem PairsConvert.isScalar (convert : PairsConvert pairs) :
    ∀ pair ∈ pairs, pair.1.IsScalar := by
  induction pairs with
  | nil => exact List.forall_mem_nil _
  | cons pair later ih => exact List.forall_mem_cons.mpr ⟨convert.1, ih convert.2.2⟩

theorem repeats_spelledPair_iff {pair : Datum × Datum} :
    (spelledPair pair).1.Repeats (pairs.map spelledPair) ↔ pair.1.ComesAgain pairs := by
  simp [Repeats, ComesAgain, spelledPair]

/-- The pairs of a mapping are converted if no collection is a key within them and the last pairs
of all keys are pairs of scalars. -/
theorem pairsConvert_iff :
    PairsConvert pairs ↔
      collectionKeyInPairs? pairs = none ∧ HoldsOfLast AreNames (pairs.map spelledPair) := by
  induction pairs with
  | nil => simp [PairsConvert, collectionKeyInPairs?, HoldsOfLast]
  | cons pair later ih =>
    rw [collectionKeyInPairs?_eq_none_iff] at ih ⊢
    rw [PairsConvert, List.forall_mem_cons, List.map_cons, HoldsOfLast, repeats_spelledPair_iff]
    have names : AreNames (spelledPair pair) ↔ pair.1.IsScalar ∧ pair.2.IsScalar :=
      and_congr isName_spelledOut_iff isName_spelledOut_iff
    rw [names]
    constructor
    · rintro ⟨key, item, convert⟩
      obtain ⟨flat, last⟩ := ih.mp convert
      refine ⟨⟨⟨key.kindAsKey?, ?_⟩, flat⟩, ?_, last⟩
      · exact item.elim IsScalar.collectionKey? And.right
      · exact item.elim (fun scalar => .inr ⟨key, scalar⟩) (fun again => .inl again.1)
    · rintro ⟨⟨⟨key, item⟩, flat⟩, here, last⟩
      have convert := ih.mpr ⟨flat, last⟩
      rcases here with again | scalar
      · -- A key that comes again is a scalar because the later one is.
        obtain ⟨other, among, same⟩ := again
        have scalar := convert.isScalar other among
        have name : (Value.spelledOut pair.1).IsName :=
          (isName_congr (isKey_spelledOut key) (isKey_spelledOut scalar.kindAsKey?) same).mpr
            (isName_spelledOut_iff.mpr scalar)
        exact ⟨isName_spelledOut_iff.mp name, .inr ⟨⟨other, among, same⟩, item⟩, convert⟩
      · exact ⟨scalar.1, .inl scalar.2, convert⟩

/-- A pair has an entry if both of its parts are names. -/
theorem isSome_entry?_iff {pair : Datum × Datum} :
    (Value.entry? pair).isSome = true ↔ AreNames pair := by
  rw [AreNames, ← isSome_scalarText?_iff, ← isSome_scalarText?_iff, Value.entry?]
  cases Value.scalarText? pair.1 <;> cases Value.scalarText? pair.2 <;> simp

/-- A mapping without a collection as a key has a value if the last pairs of all keys are pairs of
scalars. -/
theorem isSome_mapOf?_iff (flat : collectionKeyInPairs? pairs = none) :
    (Value.mapOf? pairs).isSome = true ↔ HoldsOfLast AreNames (pairs.map spelledPair) := by
  have each : ∀ pair ∈ pairs.map spelledPair, pair.1.IsKey := by
    intro pair member
    obtain ⟨original, among, rfl⟩ := List.mem_map.mp member
    exact isKey_spelledOut (collectionKeyInPairs?_eq_none_iff.mp flat original among).1
  rw [← forall_mem_merged_iff respects_areNames each, Value.mapOf?, Option.isSome_map,
    isSome_mapM_iff]
  simp only [isSome_entry?_iff]
  rfl

/-- Items have a list if they are scalars. -/
theorem isSome_listOf?_iff {items : List Datum} :
    (Value.listOf? items).isSome = true ↔ ∀ item ∈ items, item.IsScalar := by
  simp only [Value.listOf?, Option.isSome_map, isSome_mapM_iff, isSome_scalarText?_iff,
    isName_spelledOut_iff]

/-- Items are scalars if no collection is a key among them and they have a list. -/
theorem forall_isScalar_iff {items : List Datum} :
    (∀ item ∈ items, item.IsScalar) ↔
      collectionKeyAmong? items = none ∧ (Value.listOf? items).isSome = true := by
  rw [isSome_listOf?_iff, and_iff_right_of_imp]
  intro scalars
  exact collectionKeyAmong?_eq_none_iff.mpr fun item member => (scalars item member).collectionKey?

/-- **What is converted** is what has a value and no collection as a key within it. -/
theorem converts_iff :
    datum.Converts ↔ datum.collectionKey? = none ∧ (Value.ofDatum? datum).isSome = true := by
  have single : ∀ single : Datum, single.collectionKey? = none →
      single.Converts = single.IsScalar →
      Value.ofDatum? single = (Value.scalarText? (Value.spelledOut single)).map .text →
      (single.Converts ↔
        single.collectionKey? = none ∧ (Value.ofDatum? single).isSome = true) := by
    intro single keyless converts value
    rw [converts, value, Option.isSome_map, isSome_scalarText?_iff, isName_spelledOut_iff,
      and_iff_right keyless]
  cases datum with
  | nothing => simp [Converts, collectionKey?, Value.ofDatum?]
  | list items => exact forall_isScalar_iff
  | tuple items => exact forall_isScalar_iff
  | set items => exact forall_isScalar_iff
  | mapping pairs =>
    rw [Converts, pairsConvert_iff]
    exact and_congr_right fun flat => (isSome_mapOf?_iff flat).symm
  | _ => exact single _ rfl rfl rfl

end Datum

namespace Value

/-- A value as a datum. -/
def data : Value → Datum
  | undefined => .nothing
  | text written => .text written
  | list items => .list (items.map .text)
  | map entries => .mapping (entries.entries.map fun entry => (.text entry.1, .text entry.2))

/-- A value as a datum is normal. -/
theorem isNormal_data (value : Value) : value.data.IsNormal := by
  cases value with
  | undefined => exact .nothing
  | text written => exact .text written
  | list items => exact .list items
  | map entries => exact .mapping entries.entries entries.distinct

end Value

namespace Datum

variable {α : Type}

/-- Texts are the same key if they are equal. -/
theorem sameKey_text {first second : Text} :
    sameKey (text first) (text second) = decide (first = second) := by
  rw [sameKey]

/-- Pairs with texts as keys, of which no two are the same, are kept as they are. -/
theorem merged_texts {entries : List (Text × α)} (distinct : (entries.map Prod.fst).Nodup)
    (datum : α → Datum) :
    merged (entries.map fun entry => (text entry.1, datum entry.2)) =
      entries.map fun entry => (text entry.1, datum entry.2) := by
  apply merged_of_distinct
  rw [List.pairwise_map]
  apply (List.pairwise_map.mp distinct).imp
  intro first second differs
  rw [sameKey_text]
  exact decide_eq_false differs

end Datum

namespace Value

/-- No collection is a key within a value. -/
theorem collectionKey?_data (value : Value) : value.data.collectionKey? = none := by
  cases value with
  | list items =>
    apply Datum.collectionKeyAmong?_eq_none_iff.mpr
    intro item member
    obtain ⟨written, -, rfl⟩ := List.mem_map.mp member
    rfl
  | map entries =>
    apply Datum.collectionKeyInPairs?_eq_none_iff.mpr
    intro pair member
    obtain ⟨entry, -, rfl⟩ := List.mem_map.mp member
    exact ⟨rfl, rfl⟩
  | _ => rfl

/-- **The value of a value as a datum** is the value itself. -/
theorem ofDatum?_data (value : Value) : ofDatum? value.data = some value := by
  cases value with
  | undefined => rfl
  | text written => rfl
  | list items =>
    have read : (items.map Datum.text).mapM (fun item => scalarText? (spelledOut item)) =
        some items := mapM_map_eq_some fun _ _ => rfl
    rw [data, ofDatum?, listOf?, read, Option.map_some]
  | map entries =>
    let written := entries.entries.map fun entry => (Datum.text entry.1, Datum.text entry.2)
    have spelled : written.map Datum.spelledPair = written := List.map_map.trans rfl
    have merged : Datum.merged written = written := Datum.merged_texts entries.distinct .text
    have read : written.mapM entry? = some entries.entries := mapM_map_eq_some fun _ _ => rfl
    change ((Datum.merged (written.map Datum.spelledPair)).mapM entry?).map _ = some (map entries)
    rw [spelled, merged, read, Option.map_some, entries.ofList_entries]

end Value

namespace Environment

/-- An environment as the pairs of a mapping. -/
def pairs (environment : Environment) : List (Datum × Datum) :=
  environment.entries.map fun entry => (.text entry.1, entry.2.data)

/-- Pairs make up an environment if no collection is a key within their items and all of them bind a
value to a name. -/
theorem ofPairs_eq_ok_iff {pairs : List (Datum × Datum)} {environment : Environment} :
    ofPairs pairs = .ok environment ↔
      (∀ pair ∈ Datum.merged pairs, pair.2.collectionKey? = none) ∧
        ∃ bindings, (Datum.merged pairs).mapM binding? = some bindings ∧
          OrderedMap.ofList bindings = environment := by
  have keyless : (Datum.merged pairs).findSome? (fun pair => pair.2.collectionKey?) = none ↔
      ∀ pair ∈ Datum.merged pairs, pair.2.collectionKey? = none := List.findSome?_eq_none_iff
  rw [← keyless, ofPairs]
  cases (Datum.merged pairs).findSome? fun pair => pair.2.collectionKey? with
  | some kind => simp
  | none => cases (Datum.merged pairs).mapM binding? <;> simp

/-- **An environment is what it is** as data again. -/
theorem ofPairs_pairs (environment : Environment) :
    ofPairs environment.pairs = .ok environment := by
  have merged : Datum.merged environment.pairs = environment.pairs :=
    Datum.merged_texts environment.distinct Value.data
  rw [ofPairs_eq_ok_iff, merged]
  refine ⟨?_, environment.entries, ?_, environment.ofList_entries⟩
  · intro pair member
    obtain ⟨entry, -, rfl⟩ := List.mem_map.mp member
    exact entry.2.collectionKey?_data
  · apply mapM_map_eq_some
    intro entry _
    simp [binding?, Value.scalarText?, Value.ofDatum?_data]

/-- The pairs of a mapping are an environment if their names and values are converted. -/
theorem exists_ofPairs_eq_ok_iff {pairs : List (Datum × Datum)} :
    (∃ environment, ofPairs pairs = .ok environment) ↔
      ∀ pair ∈ Datum.merged pairs, pair.1.IsName ∧ pair.2.Converts := by
  have each : ∀ pair : Datum × Datum, (pair.1.IsName ∧ pair.2.Converts) ↔
      pair.2.collectionKey? = none ∧ (binding? pair).isSome = true := by
    intro pair
    rw [Datum.converts_iff, ← Datum.isSome_scalarText?_iff, binding?]
    cases Value.scalarText? pair.1 <;> cases Value.ofDatum? pair.2 <;> simp
  simp only [each, ofPairs_eq_ok_iff, exists_and_left, forall₂_and]
  rw [← isSome_mapM_iff, Option.isSome_iff_exists]
  simp

/-- **Normalization.** The environment of the pairs of a mapping is normal: it holds nothing but
texts, lists of texts and maps from texts to texts, it is the environment of itself with everything
in its order, and all templates expand alike with both. There is none just if a name or a value is
not converted, and then no template expands, not even one that does not use the variable. -/
theorem ofPairs_normalizes (pairs : List (Datum × Datum)) :
    (∀ environment, ofPairs pairs = .ok environment →
      (∀ pair ∈ environment.pairs, (∃ name, pair.1 = .text name) ∧ pair.2.IsNormal) ∧
        ofPairs environment.pairs = .ok environment ∧
        ∀ template : Template,
          template.expandData environment.pairs = template.expandData pairs) ∧
      ((∃ error, ofPairs pairs = .error error) ↔
        ∃ pair ∈ Datum.merged pairs, ¬ (pair.1.IsName ∧ pair.2.Converts)) ∧
      ∀ error, ofPairs pairs = .error error →
        ∀ template : Template, template.expandData pairs = .error error := by
  refine ⟨?_, ?_, ?_⟩
  · intro environment normalized
    refine ⟨?_, ofPairs_pairs environment, ?_⟩
    · intro pair member
      obtain ⟨entry, -, rfl⟩ := List.mem_map.mp member
      exact ⟨⟨entry.1, rfl⟩, entry.2.isNormal_data⟩
    · intro template
      rw [Template.expandData, Template.expandData, ofPairs_pairs, normalized]
  · have refused : (∃ error, ofPairs pairs = .error error) ↔
        ¬ ∃ environment, ofPairs pairs = .ok environment := by
      cases ofPairs pairs <;> simp
    rw [refused, exists_ofPairs_eq_ok_iff]
    simp only [not_forall, exists_prop]
  · intro error refused template
    rw [Template.expandData, refused]
    rfl

/-- Names that are the same as texts, and keys that are the same once a truth value is spelled
out. -/
theorem ofPairs_normalizes_same :
    let environment : Environment :=
      ⟨[(['1'], .list [['5'], ['é']]), (['x'], .map ⟨[("true".toList, ['b'])], by decide⟩)],
        by decide⟩
    let pairs : List (Datum × Datum) :=
      [(.whole 1, .text ['a']),
        (.text ['x'], .mapping [(.truth true, .text ['a']), (.text "true".toList, .text ['b'])]),
        (.text ['1'], .tuple [.whole 5, .bytes [0xc3, 0xa9]])]
    ofPairs pairs = .ok environment ∧ ofPairs environment.pairs = .ok environment ∧
      ∀ template : Template,
        template.expandData environment.pairs = template.expandData pairs := by
  intro environment pairs
  have normalized : ofPairs pairs = .ok environment := by decide +kernel
  exact ⟨normalized, ((ofPairs_normalizes pairs).1 environment normalized).2⟩

/-- A mapping with an item that is no scalar is converted if the key of the item is a truth value
that comes again as a text, but not if it is a number. -/
theorem ofPairs_overlooked :
    ¬ Datum.nothing.IsScalar ∧
      (∃ environment, ofPairs [(.text ['x'],
        .mapping [(.truth true, .nothing), (.text "true".toList, .text ['a'])])] =
          .ok environment) ∧
      ofPairs [(.text ['x'], .mapping [(.whole 1, .nothing), (.text ['1'], .text ['a'])])] =
        .error .invalidValue := by
  have converted : ofPairs [(.text ['x'],
      .mapping [(.truth true, .nothing), (.text "true".toList, .text ['a'])])] =
        .ok ⟨[(['x'], .map ⟨[("true".toList, ['a'])], by decide⟩)], by decide⟩ := by decide +kernel
  exact ⟨id, ⟨_, converted⟩, by decide +kernel⟩

end Environment

end UriTemplates
