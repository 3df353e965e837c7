import UriTemplates.Proofs.Pattern.Joined
import UriTemplates.Proofs.Reading.First
import UriTemplates.Proofs.Template.Content

/-!
# Runs of characters

Where a run of characters ends. What follows a value says so by the character that it starts
with: a short run stops at its first occurrence, and a long one cannot read it
(`Operator.isFirst_chars`). So items and entries between separators are read as they were
written, provided that they do not hold the separator (`Field.whole?_unnamed_list`,
`Field.whole?_unnamed_map`), even where the separator is a character of values.
-/

namespace UriTemplates

/-- Whether texts with a property are empty or start with a character. -/
def Text.StopsAt (c : Char) (able : Text → Prop) : Prop :=
  ∀ text, able text → text = [] ∨ ∃ rest, text = c :: rest

/-- What is not empty and does not start with the character has not the property. -/
theorem Text.StopsAt.not_able {c : Char} {able : Text → Prop} (stops : Text.StopsAt c able)
    {span : Text} (nonempty : span ≠ []) (apart : c ∉ span) (after : Text) :
    ¬ able (span ++ after) := by
  obtain ⟨d, span, rfl⟩ := List.exists_cons_of_ne_nil nonempty
  intro ended
  rcases stops _ ended with same | ⟨rest, same⟩
  · cases same
  · cases same
    exact apart List.mem_cons_self

/-- What stands before a place where texts may end is determined. -/
theorem Text.StopsAt.rest_eq {c : Char} {able : Text → Prop} (stops : Text.StopsAt c able)
    {span front after rest : Text} (ended : able after) (apart : c ∉ span)
    (apartOther : c ∉ front) (same : front ++ rest = span ++ after) (endedOther : able rest) :
    rest = after := by
  rcases stops after ended with rfl | ⟨more, rfl⟩
  · rcases stops rest endedOther with rfl | ⟨moreOther, rfl⟩
    · rfl
    · rw [List.append_nil] at same
      exact (apart (same ▸ List.mem_append_right _ List.mem_cons_self)).elim
  · rcases stops rest endedOther with rfl | ⟨moreOther, rfl⟩
    · rw [List.append_nil] at same
      exact (apartOther (same ▸ List.mem_append_right _ List.mem_cons_self)).elim
    · rw [(append_cons_inj apartOther apart same).2]

/-- A character of a value is not empty. -/
theorem Regex.ne_nil_of_valueChar {allowReserved : Bool} {piece : Text}
    (matched : (valueChar allowReserved).isMatch piece = true) : piece ≠ [] := by
  rintro rfl
  rw [valueChar_nonempty] at matched
  cases matched

/-- A character of a value is read in one way only. -/
theorem Regex.mem_readings_valueChar {β : Type} {allowReserved : Bool} {piece rest : Text}
    (matched : (valueChar allowReserved).isMatch piece = true) {reading : Reading β} :
    reading ∈ (valueChar allowReserved).readings (piece ++ rest) ↔ reading = ⟨[], rest⟩ := by
  have isLocal := (valueChar allowReserved).isLocal_readings (β := β)
  constructor
  · intro member
    have split := isLocal.consumed_append member
    have front := (derives_readings.mp (isLocal.derives_consumed member)).2
    refine Reading.ext (silent_readings _ _ reading member) ?_
    rcases isMatch_valueChar.mp matched with ⟨c, rfl, kept⟩ | ⟨high, low, rfl, -⟩
    · rcases isMatch_valueChar.mp front with ⟨d, same, -⟩ | ⟨high, low, same, -⟩
      · rw [same] at split
        exact (List.cons.inj split).2
      · rw [same] at split
        cases (List.cons.inj split).1
        rw [Percent.isKept_percent] at kept
        cases kept
    · rcases isMatch_valueChar.mp front with ⟨d, same, kept⟩ | ⟨_, _, same, -⟩
      · rw [same] at split
        cases (List.cons.inj split).1
        rw [Percent.isKept_percent] at kept
        cases kept
      · rw [same] at split
        simpa using (List.append_inj split rfl).2
  · rintro rfl
    exact isLocal.mem_append_iff.mpr (derives_readings.mpr ⟨rfl, matched⟩)

namespace Operator

/-- Whether runs of characters end where a character stands: they are as short as possible, or
they never hold it. -/
def EndsRuns (operator : Operator) (c : Char) : Prop :=
  operator.prefersShort = true ∨ Percent.isKept operator.allowsReserved c = false ∧ c ≠ '%'

variable {operator : Operator} {c : Char} {able : Text → Prop} {span after : Text}

/-- Without names, the separator ends runs of characters. -/
theorem endsRuns_separator (unnamed : operator.isNamed = false) :
    operator.EndsRuns operator.separator := by
  cases operator with
  | simple => exact .inr (by decide)
  | reserved => exact .inl rfl
  | fragment => exact .inl rfl
  | label => exact .inl rfl
  | path => exact .inr (by decide)
  | _ => cases unnamed

/-- The characters within items end runs, too. -/
theorem endsRuns_of_reserved (refused : Percent.isKept false c = false) (notPercent : c ≠ '%') :
    operator.EndsRuns c := by
  cases operator with
  | reserved => exact .inl rfl
  | fragment => exact .inl rfl
  | _ => exact .inr ⟨refused, notPercent⟩

/-- **A short run** stops at the first place where it may. The induction is on the characters
of the run, none of which the continuation could start with. -/
theorem isFirst_shortChars {β : Type} {allowReserved : Bool}
    (written : Percent.Written allowReserved span) (apart : c ∉ span)
    (stops : Text.StopsAt c able) (ended : able after) :
    Readings.IsFirst (β := β) ((Regex.valueChar allowReserved).readings.further true none)
      (span ++ after) able ⟨[], after⟩ := by
  have consumes : Readings.Consumes (β := β) (Regex.valueChar allowReserved).readings := by
    rw [(Regex.isLocal_readings _).consumes_iff]
    intro marks derived
    exact Regex.ne_nil_of_valueChar (Regex.derives_readings.mp derived).2 rfl
  obtain ⟨pieces, rfl, each⟩ := Regex.written_iff.mp written
  clear written
  induction pieces with
  | nil => exact .further_stop ended
  | cons piece pieces ih =>
    obtain ⟨matched, later⟩ := List.forall_mem_cons.mp each
    rw [List.flatten_cons, List.mem_append, not_or] at apart
    rw [List.flatten_cons, List.append_assoc]
    have next := ih later apart.2
    have step : Readings.IsFirst (β := β) (Regex.valueChar allowReserved).readings
        (piece ++ (pieces.flatten ++ after))
        (fun rest => ∃ last ∈ (Regex.valueChar allowReserved).readings.further true none rest,
          able last.rest) ⟨[], pieces.flatten ++ after⟩ :=
      .of_only ((Regex.mem_readings_valueChar matched).mpr rfl) ⟨_, next.mem, next.able_rest⟩
        fun other member _ => (Regex.mem_readings_valueChar matched).mp member
    exact step.further_more consumes
      (stops.not_able (Regex.ne_nil_of_valueChar matched) apart.1 _) next

/-- **A run of characters** ends where it was written to end, if no character of it is the one
that what follows starts with. -/
theorem isFirst_chars (ends : operator.EndsRuns c)
    (written : Percent.Written operator.allowsReserved span) (apart : c ∉ span)
    (stops : Text.StopsAt c able) (ended : able after) :
    operator.chars.readings.IsFirst (span ++ after) able ⟨[], after⟩ := by
  rcases ends with short | ⟨refused, notPercent⟩
  · have readings : operator.chars.readings =
        (Regex.valueChar operator.allowsReserved).readings.further true none := by
      rw [← short]
      exact Readings.loop_star _ _
    rw [readings]
    exact isFirst_shortChars written apart stops ended
  · refine .of_unique operator.chars.isLocal_readings (derives_chars.mpr ⟨rfl, written⟩)
      (fun _ derived => (derives_chars.mp derived).1) ended fun front rest _ derived split => ?_
    exact stops.rest_eq ended apart ((derives_chars.mp derived).2.notMem refused notPercent) split

end Operator

namespace Pattern

variable {κ : Type} {able : Text → Prop}

/-- A literal text is read first where it stands. -/
theorem isFirst_literal (written : Text) {back : Text} (ended : able back) :
    (literal written : Pattern κ).readings.IsFirst (written ++ back) able ⟨[], back⟩ :=
  .of_unique (isLocal_readings _) (derives_literal.mpr ⟨rfl, rfl⟩)
    (fun _ derived => (derives_literal.mp derived).1) ended fun front rest _ derived split _ => by
      rw [(derives_literal.mp derived).2] at split
      exact List.append_cancel_left split

theorem isFirst_optional {inner : Pattern κ} {text : Text} {reading : Reading (κ × Option Text)}
    (isFirst : inner.readings.IsFirst text able reading) :
    (optional inner false).readings.IsFirst text able reading := by
  rw [readings, Readings.loop_optional]
  exact isFirst.perhaps

/-- The first option is tried first. -/
theorem isFirst_amongst {first : Pattern κ} {text : Text} {reading : Reading (κ × Option Text)}
    (isFirst : first.readings.IsFirst text able reading) (options : List (Pattern κ)) :
    (amongst (first :: options)).readings.IsFirst text able reading := by
  rw [readings_amongst]
  exact isFirst.orElse_left

/-- **Items that were joined** are read one by one, if the element reads each of them up to
where the separator follows. -/
theorem whole?_joined {α : Type} {element : Pattern κ} {separator : Char} {isLazy : Bool}
    {write : α → Text} {record : α → List (κ × Option Text)} {items : List α}
    (nonempty : items ≠ [])
    (each : ∀ item ∈ items, ∀ (able : Text → Prop) (after : Text), Text.StopsAt separator able →
      able after → element.readings.IsFirst (write item ++ after) able ⟨record item, after⟩) :
    (elements element separator isLazy false).readings.whole?
        (Text.joined separator (items.map write)) = some (items.flatMap record) := by
  let more : Readings (κ × Option Text) := ((literal [separator] : Pattern κ).readings.andThen
    (elements element separator isLazy false).readings).perhaps isLazy
  -- what may follow an item: nothing, or the separator and further items
  have stops : Text.StopsAt separator fun rest => (more.whole? rest).isSome = true := by
    intro rest read
    exact (Readings.isSome_whole?_perhaps.mp read).imp_right exists_of_isSome_whole?
  have read : ∀ item ∈ items, ∀ after marks, more.whole? after = some marks →
      (elements element separator isLazy false).readings.whole? (write item ++ after) =
        some (record item ++ marks) := by
    intro item member after marks known
    rw [readings_elements, (each item member _ after stops (by simp [known])).whole?_andThen]
    exact congrArg (Option.map _) known
  have none : ((literal [separator] : Pattern κ).readings.andThen
      (elements element separator isLazy false).readings).whole? [] = none := by
    rw [← Option.not_isSome_iff_eq_none]
    intro found
    obtain ⟨back, absurd⟩ := exists_of_isSome_whole? found
    cases absurd
  have ended : more.whole? [] = some [] := by
    cases isLazy <;>
      simp [more, Readings.perhaps, Readings.whole?_orElse, Readings.whole?_stop, none]
  have continued : ∀ back, more.whole? (separator :: back) =
      (elements element separator isLazy false).readings.whole? back := by
    intro back
    have after := whole?_literal_andThen [separator]
      (elements element separator isLazy false).readings back
    cases isLazy <;>
      simpa [more, Readings.perhaps, Readings.whole?_orElse, Readings.whole?_stop] using after
  induction items with
  | nil => exact (nonempty rfl).elim
  | cons item items ih =>
    by_cases last : items = []
    · subst last
      have whole := read item List.mem_cons_self [] [] ended
      simpa using whole
    · rw [List.map_cons, Text.joined_cons _ (by simpa using last), List.flatMap_cons]
      refine read item List.mem_cons_self _ _ ?_
      rw [continued]
      exact ih last (fun other member => each other (List.mem_cons_of_mem item member))
        fun other member => read other (List.mem_cons_of_mem item member)

end Pattern

namespace Field

variable {field : Field} {c : Char} {able : Text → Prop} {span after : Text}

/-- Characters are read first up to where a character follows that ends runs. -/
theorem isFirst_captureChars (field : Field) (facet : Facet) (ends : field.operator.EndsRuns c)
    (written : field.IsWritten span) (apart : c ∉ span) (stops : Text.StopsAt c able)
    (ended : able after) :
    (field.captureChars facet).readings.IsFirst (span ++ after) able
      ⟨[field.mark facet span], after⟩ := by
  have first := (Operator.isFirst_chars ends written apart stops ended).marked
    fun span => ((⟨field.part, field.index, facet⟩ : Site), some span)
  rwa [Readings.consumed_append_rest] at first

/-- An entry is read up to where the separator of entries follows, if its key does not hold
what stands between key and item. -/
theorem isFirst_entry {between separator : Char}
    (same : ∀ entry : Text × Text, field.entryText entry = entry.1 ++ between :: entry.2)
    (endsKey : field.operator.EndsRuns between) (endsItem : field.operator.EndsRuns separator)
    {entry : Text × Text} (written : field.IsWritten entry.1 ∧ field.IsWritten entry.2)
    (apart : between ∉ entry.1) (apartItem : separator ∉ entry.2)
    (stops : Text.StopsAt separator able) (ended : able after) :
    (field.entry between).readings.IsFirst (field.entryText entry ++ after) able
      ⟨field.entryMarks entry, after⟩ := by
  have item := field.isFirst_captureChars .item endsItem written.2 apartItem stops ended
  rw [← Pattern.readings_seq_single] at item
  have between_ := (Pattern.isFirst_literal [between] ⟨_, item.mem, ended⟩).andThen item
  have follows : Text.StopsAt between fun rest =>
      ∃ last ∈ (Pattern.seq [.literal [between], field.captureChars .item]).readings rest,
        able last.rest := by
    rintro rest ⟨last, member, -⟩
    obtain ⟨reading, read, -⟩ := List.mem_flatMap.mp member
    have split := (Pattern.isLocal_readings _).consumed_append read
    rw [(Pattern.derives_literal.mp ((Pattern.isLocal_readings _).derives_consumed read)).2]
      at split
    exact .inr ⟨_, split.symm⟩
  have key := field.isFirst_captureChars .key endsKey written.1 apart follows
    ⟨_, between_.mem, ended⟩
  have whole := (key.andThen between_).marked
    fun span => ((⟨field.part, field.index, .value⟩ : Site), some span)
  have spanned : entry.1 ++ ([between] ++ (entry.2 ++ after)) = field.entryText entry ++ after := by
    simp [same]
  rw [spanned, Readings.consumed_append_rest] at whole
  exact whole

/-- What stands between the items and the entries of a field. -/
def itemSeparator (field : Field) : Char :=
  if field.occurrence.isExploded then field.operator.separator else ','

/-- What stands between the key and the item of an entry where no names are written. -/
def keySeparator (field : Field) : Char :=
  if field.occurrence.isExploded then '=' else ','

/-- What stands between items ends runs of characters. -/
theorem endsRuns_itemSeparator (unnamed : field.operator.isNamed = false) :
    field.operator.EndsRuns field.itemSeparator := by
  unfold itemSeparator
  split_ifs
  · exact Operator.endsRuns_separator unnamed
  · exact Operator.endsRuns_of_reserved (by decide) (by decide)

/-- What stands between a key and its item ends runs of characters. -/
theorem endsRuns_keySeparator : field.operator.EndsRuns field.keySeparator := by
  unfold keySeparator
  split_ifs
  · exact Operator.endsRuns_of_reserved (by decide) (by decide)
  · exact Operator.endsRuns_of_reserved (by decide) (by decide)

/-- Without names, an entry is its key and its item with their separator between them. -/
theorem entryText_of_unnamed (unnamed : field.operator.isNamed = false) (entry : Text × Text) :
    field.entryText entry = entry.1 ++ field.keySeparator :: entry.2 := by
  cases apart : field.occurrence.isExploded <;>
    simp [entryText, keySeparator, Operator.entryContribution, unnamed, apart]

/-- Without names, a field writes its values with their separator between them. -/
theorem written_of_unnamed (unnamed : field.operator.isNamed = false) (content : Content) :
    field.written content = Text.joined field.itemSeparator (field.units content) := by
  have bare := withName_of_unnamed unnamed
  cases apart : field.occurrence.isExploded with
  | false => simp [written_of_whole apart, bare, itemSeparator, apart]
  | true => cases content <;> simp [written, items, units, bare, itemSeparator, apart]

/-- Without names, only the value is captured. -/
theorem marks_of_unnamed (unnamed : field.operator.isNamed = false) (content : Content) :
    field.marks content = field.valueMarks content := by
  have noName := nameMarks_of_unnamed unnamed
  cases apart : field.occurrence.isExploded with
  | false => rw [marks_of_whole apart, noName, List.nil_append]
  | true =>
    cases content <;> simp [Field.marks, apart, noName, valueMarks, List.map_eq_flatMap]

/-- A field that is not truncated reads a text, items or entries. -/
theorem unnamed_of_untruncated (untruncated : field.occurrence.length? = none) :
    field.unnamed = field.options (field.captureChars .value)
      (.elements (field.captureChars .value) field.itemSeparator true false)
      (.elements (field.entry field.keySeparator) field.itemSeparator true false) := by
  unfold unnamed itemSeparator keySeparator Variable.isExploded
  split
  · rename_i length modifier
    simp [Variable.length?, modifier] at untruncated
  · rename_i modifier
    simp [modifier]
  · rename_i modifier
    simp [modifier, flatEntries]

/-- **A text is read as a text**, if no other text that could be read may be continued. -/
theorem isFirst_unnamed_text {text : Text} (whole : field.occurrence.isExploded = false)
    (isText : field.forms.text = true) (admitted : field.Admits (.texts [text]))
    (ended : able after)
    (only : ∀ front rest, field.IsWritten front → front ++ rest = text ++ after → able rest →
      rest = after) :
    field.unnamed.readings.IsFirst (text ++ after) able ⟨[field.mark .value text], after⟩ := by
  obtain ⟨-, written, form⟩ := admitted
  cases modifier : field.occurrence.modifier with
  | truncated length =>
    simp only [AdmitsTexts, modifier] at form
    obtain ⟨known, same, count, bound, points⟩ := form
    obtain rfl : text = known := by simpa using same
    rw [unnamed, modifier]
    refine .of_unique (Pattern.isLocal_readings _) ((derives_captureCodePoints (Nat.zero_le _)).mpr
      ⟨⟨count, Nat.zero_le _, bound, points⟩, rfl⟩)
      (fun _ derived => ((derives_captureCodePoints (Nat.zero_le _)).mp derived).2) ended ?_
    intro front rest _ derived
    obtain ⟨_, -, -, pointsOther⟩ := ((derives_captureCodePoints (Nat.zero_le _)).mp derived).1
    exact only front rest pointsOther.written
  | exploded => simp [Variable.isExploded, modifier] at whole
  | plain =>
    rw [unnamed_of_untruncated (by simp [Variable.length?, modifier]), options, if_pos isText]
    refine Pattern.isFirst_amongst (.of_unique (Pattern.isLocal_readings _)
      (derives_captureChars.mpr ⟨written text List.mem_cons_self, rfl⟩)
      (fun _ derived => (derives_captureChars.mp derived).2) ended ?_) _
    intro front rest _ derived
    exact only front rest (derives_captureChars.mp derived).1

variable (unnamed : field.operator.isNamed = false)
  (untruncated : field.occurrence.length? = none)

include unnamed untruncated

/-- A text is read first as a text where it may be one. -/
theorem whole?_unnamed_text {text : Text} (isText : field.forms.text = true)
    (written : field.IsWritten text) :
    field.unnamed.readings.whole? (field.written (.texts [text])) =
      some (field.marks (.texts [text])) := by
  have read : (field.captureChars .value).readings.whole? text = some [field.mark .value text] :=
    Readings.whole?_eq_of_unique (derives_captureChars.mpr ⟨written, rfl⟩) fun _ derived =>
      (derives_captureChars.mp derived).2
  rw [unnamed_of_untruncated untruncated, written_of_unnamed unnamed, marks_of_unnamed unnamed,
    options, if_pos isText, Pattern.whole?_amongst]
  simp [units, valueMarks, read]

/-- **The items of a list** are read as they were written, if none of them holds what stands
between them. -/
theorem whole?_unnamed_list {texts : List Text} (noText : field.forms.text = false)
    (listed : field.forms.list = true) (nonempty : texts ≠ [])
    (written : ∀ text ∈ texts, field.IsWritten text)
    (apart : ∀ text ∈ texts, field.itemSeparator ∉ text) :
    field.unnamed.readings.whole? (field.written (.texts texts)) =
      some (field.marks (.texts texts)) := by
  have read : (Pattern.elements (field.captureChars .value) field.itemSeparator true
      false).readings.whole? (Text.joined field.itemSeparator (texts.map id)) =
        some (texts.flatMap fun text => [field.mark .value text]) :=
    Pattern.whole?_joined nonempty fun text member able after stops ended =>
      field.isFirst_captureChars .value (endsRuns_itemSeparator unnamed) (written text member)
        (apart text member) stops ended
  rw [List.map_id] at read
  rw [unnamed_of_untruncated untruncated, written_of_unnamed unnamed, marks_of_unnamed unnamed,
    options, noText, if_pos listed, Pattern.whole?_amongst]
  simp [units, valueMarks, read, List.map_eq_flatMap]

/-- **The entries of a map** are read as they were written, if no key and no item holds what
stands after it. -/
theorem whole?_unnamed_map {entries : List (Text × Text)} (noText : field.forms.text = false)
    (unlisted : field.forms.list = false) (mapped : field.forms.map = true)
    (nonempty : entries ≠ [])
    (written : ∀ entry ∈ entries, field.IsWritten entry.1 ∧ field.IsWritten entry.2)
    (apart : ∀ entry ∈ entries, field.keySeparator ∉ entry.1 ∧ field.itemSeparator ∉ entry.2) :
    field.unnamed.readings.whole? (field.written (.entries entries)) =
      some (field.marks (.entries entries)) := by
  have read : (Pattern.elements (field.entry field.keySeparator) field.itemSeparator true
      false).readings.whole? (Text.joined field.itemSeparator (entries.map field.entryText)) =
        some (entries.flatMap field.entryMarks) :=
    Pattern.whole?_joined nonempty fun entry member able after stops ended =>
      isFirst_entry (entryText_of_unnamed unnamed) endsRuns_keySeparator
        (endsRuns_itemSeparator unnamed) (written entry member) (apart entry member).1
        (apart entry member).2 stops ended
  rw [unnamed_of_untruncated untruncated, written_of_unnamed unnamed, marks_of_unnamed unnamed,
    options, noText, unlisted, if_pos mapped, Pattern.whole?_amongst]
  simp [units, valueMarks, read]

end Field

end UriTemplates
