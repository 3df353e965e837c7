import UriTemplates.Proofs.Pattern.Filled
import UriTemplates.Proofs.Pattern.Peeling

/-!
# Finding the captures of a match again

The captures of a match are found level by level, by matching the span of each node against
that node alone. If the pattern is written faithfully, this gives what the first way to read the
whole text records (`Pattern.captures?_of_isFaithful`), so it neither loses a span nor runs into
an error. The argument is the same at every node: what can follow a part only depends on what the
part leaves, so the first reading of a part that can be continued is also the first reading of
the part's span (`Readings.IsFirst.whole?_consumed`).

A choice without options is not written faithfully. It matches the empty text, as the empty
sequence does, and where separators keep elements apart this is all that goes wrong
(`Pattern.captures?_eq_firstReading`).
-/

namespace UriTemplates.Pattern

open Readings

variable {κ : Type}

/-- A search with what a pattern is written as asks along the readings of the pattern. -/
theorem search_regex {α : Type} {pattern : Pattern κ}
    (faithful : pattern.isFaithful = true) (cursor : Cursor) (next : Cursor → Option α) :
    pattern.regex.search cursor next =
      (pattern.readings.ends cursor.rest).findSome? fun rest => next (Cursor.start rest) := by
  rw [Regex.search_eq (β := κ × Option Text), ends_regex pattern faithful]

/-- What a pattern is written as matches the texts that the pattern reads whole. -/
theorem isMatch_iff_whole? {pattern : Pattern κ} (faithful : pattern.isFaithful = true)
    (text : Text) :
    pattern.regex.isMatch text = true ↔ (pattern.readings.whole? text).isSome = true := by
  rw [Regex.isMatch_iff (β := κ × Option Text), ends_regex pattern faithful,
    isSome_whole?_iff]

section Sequences

/-- A text is divided along the ways in which the first node reads, by the first one that the other
nodes can continue. -/
theorem spans?_groups {node : Pattern κ} {nodes : List (Pattern κ)}
    (faithful : node.isFaithful = true) (text : Text) :
    Regex.spans? (groups (node :: nodes)) (Cursor.start text) =
      (node.readings.ends text).findSome? fun rest =>
        (Regex.spans? (groups nodes) (Cursor.start rest)).map
          ((Cursor.start text).textTo (Cursor.start rest) :: ·) :=
  search_regex faithful (Cursor.start text) _

/-- A text is divided among nodes just if they read it one after the other. -/
theorem isSome_spans?_iff {nodes : List (Pattern κ)}
    (faithful : ∀ node ∈ nodes, node.isFaithful = true) (text : Text) :
    (Regex.spans? (groups nodes) (Cursor.start text)).isSome = true ↔
      ((readingsInOrder nodes).whole? text).isSome = true := by
  induction nodes generalizing text with
  | nil =>
    simp only [groups, Regex.spans?, Cursor.start, List.length_eq_zero_iff, readingsInOrder,
      whole?_stop]
    split <;> rfl
  | cons node nodes ih =>
    obtain ⟨first, later⟩ := List.forall_mem_cons.mp faithful
    rw [spans?_groups first, readingsInOrder, whole?_andThen, ends, List.findSome?_map]
    simp only [List.findSome?_isSome_iff, Function.comp_apply, Option.isSome_map, ih later]

/-- The first way to read nodes one after the other gives the division of the text among
them, and each span is read by its node as in that way. -/
theorem capturesInOrder_of_whole? {nodes : List (Pattern κ)}
    (faithful : ∀ node ∈ nodes, node.isFaithful = true)
    (recaptures : ∀ node ∈ nodes, ∀ span marks,
      node.readings.whole? span = some marks → node.capturesIn span = .ok marks)
    {text : Text} {marks : List (κ × Option Text)}
    (first : (readingsInOrder nodes).whole? text = some marks) :
    ∃ spans, Regex.spans? (groups nodes) (Cursor.start text) = some spans ∧
      capturesInOrder nodes spans = .ok marks := by
  induction nodes generalizing text marks with
  | nil =>
    rw [readingsInOrder, whole?_stop] at first
    split at first
    · rename_i ended
      cases first
      exact ⟨[], by simp [groups, Regex.spans?, Cursor.start, ended], rfl⟩
    · cases first
  | cons node nodes ih =>
    obtain ⟨faithfulNode, faithfulNodes⟩ := List.forall_mem_cons.mp faithful
    obtain ⟨recapturesNode, recapturesNodes⟩ := List.forall_mem_cons.mp recaptures
    rw [readingsInOrder, whole?_andThen] at first
    obtain ⟨reading, later, isFirst, read, rfl⟩ := IsFirst.exists_of_findSome? first
    obtain ⟨spans, divided, captured⟩ := ih faithfulNodes recapturesNodes read
    have head := isFirst.whole?_consumed node.isLocal_readings
    have able : ∀ rest, ((Regex.spans? (groups nodes) (Cursor.start rest)).map
          ((Cursor.start text).textTo (Cursor.start rest) :: ·)).isSome = true ↔
        ((readingsInOrder nodes).whole? rest).isSome = true := by
      simp only [Option.isSome_map]
      exact isSome_spans?_iff faithfulNodes
    refine ⟨consumed text reading :: spans, ?_, ?_⟩
    · rw [spans?_groups faithfulNode, ends, isFirst.findSome?_ends able, divided]
      rfl
    · rw [capturesInOrder, recapturesNode _ _ head, captured]
      rfl

end Sequences

/-- The first option that reads a span is the one that the first way to read it chose. -/
theorem capturesOfChosen_of_whole? {option : Pattern κ} {options : List (Pattern κ)}
    (faithful : ∀ other ∈ option :: options, other.isFaithful = true)
    (recaptures : ∀ other ∈ option :: options, ∀ span marks,
      other.readings.whole? span = some marks → other.capturesIn span = .ok marks)
    (division : Text) {span : Text} {marks : List (κ × Option Text)}
    (first : (readingsOfEither (option :: options)).whole? span = some marks) :
    capturesOfChosen division (option :: options) span = .ok marks := by
  induction options generalizing option with
  | nil =>
    have read : option.readings.whole? span = some marks := by
      rw [readingsOfEither, readingsOfEither, orElse_never] at first
      exact first
    have matches_ : option.regex.isMatch span = true :=
      (isMatch_iff_whole? (faithful option (by simp)) span).mpr (by simp [read])
    rw [capturesOfChosen, if_pos matches_]
    exact recaptures option (by simp) span marks read
  | cons next options ih =>
    obtain ⟨faithfulOption, faithfulOptions⟩ := List.forall_mem_cons.mp faithful
    obtain ⟨recapturesOption, recapturesOptions⟩ := List.forall_mem_cons.mp recaptures
    rw [readingsOfEither, whole?_orElse] at first
    rw [capturesOfChosen]
    cases read : option.readings.whole? span with
    | some found =>
      rw [read] at first
      cases first
      rw [if_pos ((isMatch_iff_whole? faithfulOption span).mpr (by simp [read]))]
      exact recapturesOption span marks read
    | none =>
      rw [read, Option.none_or] at first
      rw [if_neg (mt (isMatch_iff_whole? faithfulOption span).mp (by simp [read]))]
      exact ih faithfulOptions recapturesOptions first

section Repetitions

variable {element : Pattern κ} {separator : Regex} {isLazy requiresMore : Bool}

/-- The elements of a repetition record their captures, and its separators nothing. -/
theorem recording_readings (faithful : element.isFaithful = true)
    (undivided : separator.isUndivided = true) (nonempty : separator.isMatch [] = false) :
    Recording element.regex separator element.readings separator.readings where
  ends_element := ends_regex element faithful
  ends_separator := rfl
  isLocal := element.isLocal_readings
  isLocal_separators := separator.isLocal_readings
  isUndivided_element := rfl
  isUndivided := undivided
  consumes := Regex.consumes_of_isMatch_nil nonempty

/-- The captures of a repetition are those of its elements, one after the other. -/
theorem capturesIn_repeated {span : Text} {spans : List Text}
    (peeled : elementSpans element.regex separator isLazy requiresMore span =
      spans.map fun span => .ok (some span)) :
    (repeated element separator isLazy requiresMore).capturesIn span =
      (spans.mapM element.capturesIn).map List.flatten := by
  rw [capturesIn, peeled, List.mapM_map]
  rfl

/-- If the captures in the span of an element are those of the first way to read it, then the
captures in the spans of all elements are what a repetition records. -/
theorem exists_captures_of_alternates {spans : List Text} {marks : List (κ × Option Text)}
    (alternates : Alternates element.readings separator.readings spans marks)
    (recaptures : ∀ span marks,
      element.readings.whole? span = some marks → element.capturesIn span = .ok marks) :
    ∃ captures, spans.mapM element.capturesIn = .ok captures ∧ captures.flatten = marks := by
  induction alternates with
  | @last span marks read =>
    refine ⟨[marks], ?_, List.flatten_singleton⟩
    rw [List.mapM_cons, recaptures span marks read]
    rfl
  | @more span gap spans marks passed later read passes others ih =>
    cases separator.silent_readings gap _ passes
    obtain ⟨captures, found, rfl⟩ := ih
    refine ⟨marks :: captures, ?_, rfl⟩
    rw [List.mapM_cons, recaptures span marks read, found]
    rfl

end Repetitions

/-- **Dividing a span again.** The captures that are found in a span, level by level, are
those of the first way to read the span. -/
theorem capturesIn_of_whole? (pattern : Pattern κ) (faithful : pattern.isFaithful = true)
    {span : Text} {marks : List (κ × Option Text)}
    (first : pattern.readings.whole? span = some marks) :
    pattern.capturesIn span = .ok marks := by
  induction pattern using induction_nodes generalizing span marks with
  | plain regex =>
    have nothing := regex.silent_readings span _ (derives_of_whole? first)
    rw [capturesIn]
    exact congrArg _ nothing.symm
  | capture key inner recaptures =>
    rw [readings, whole?_marked] at first
    obtain ⟨inside, read, rfl⟩ := Option.map_eq_some_iff.mp first
    rw [capturesIn, recaptures faithful read]
    rfl
  | seq nodes recaptures =>
    have each := isFaithful_seq.mp faithful
    have recapturesEach : ∀ node ∈ nodes, ∀ span marks,
        node.readings.whole? span = some marks → node.capturesIn span = .ok marks :=
      fun node member span marks read => recaptures node member (each node member) read
    by_cases single : ∃ only, nodes = [only]
    · obtain ⟨only, rfl⟩ := single
      have read : only.readings.whole? span = some marks := by
        rw [readings, readingsInOrder, readingsInOrder, andThen_stop] at first
        exact first
      rw [capturesIn]
      exact recapturesEach only (by simp) span marks read
    · obtain ⟨spans, divided, captured⟩ := capturesInOrder_of_whole? each recapturesEach first
      rw [capturesIn, divided]
      · exact captured
      · exact fun only same => single ⟨only, same⟩
  | choice options recaptures =>
    obtain ⟨nonempty, each⟩ := isFaithful_choice.mp faithful
    obtain ⟨option, options, rfl⟩ := List.exists_cons_of_ne_nil nonempty
    rw [capturesIn]
    exact capturesOfChosen_of_whole? each
      (fun other member span marks read => recaptures other member (each other member) read)
      _ first
  | optional inner isLazy recaptures =>
    have faithfulInner : inner.isFaithful = true := faithful
    rw [readings, loop_optional] at first
    rw [capturesIn]
    rcases whole?_perhaps first with ⟨rfl, rfl, noMore⟩ | ⟨read, notEnded⟩
    · cases isLazy with
      | true => rfl
      | false =>
        have unmatched := mt (isMatch_iff_whole? faithfulInner []).mp (by simp [noMore rfl])
        simp [unmatched]
    · have matched := (isMatch_iff_whole? faithfulInner span).mpr (by simp [read])
      rw [if_neg (by simpa using notEnded), if_pos matched]
      exact recaptures faithfulInner read
  | repeated element separator isLazy requiresMore recaptures =>
    simp only [isFaithful, Bool.and_eq_true, Bool.not_eq_true'] at faithful
    obtain ⟨⟨faithfulElement, undivided⟩, nonempty⟩ := faithful
    obtain ⟨spans, peeled, alternates⟩ :=
      (recording_readings faithfulElement undivided nonempty).elementSpans_of_whole?
        requiresMore first
    obtain ⟨captures, found, rfl⟩ :=
      exists_captures_of_alternates alternates fun span marks => recaptures faithfulElement
    rw [capturesIn_repeated peeled, found]
    rfl

/-- Matching a whole text gives what the first way to read it records, and nothing if there
is no way to read it. -/
theorem captures?_of_isFaithful {pattern : Pattern κ}
    (faithful : pattern.isFaithful = true) (text : Text) :
    pattern.captures? text = .ok (pattern.readings.whole? text) := by
  unfold captures?
  cases first : pattern.readings.whole? text with
  | none =>
    rw [if_neg (mt (isMatch_iff_whole? faithful text).mp (by simp [first]))]
  | some marks =>
    rw [if_pos ((isMatch_iff_whole? faithful text).mpr (by simp [first])),
      capturesIn_of_whole? pattern faithful first]
    rfl

/-- **The captures of a match are those of the first reading.** Where separators have no
alternatives at their top level and never match the empty text, matching a whole text gives
nothing just if no reading of the text leaves nothing, and otherwise what the first such
reading records, in text order. So finding the captures level by level never fails. The readings
are those of the pattern if every choice in it has an option; a choice without options is read
as the empty sequence. -/
theorem captures?_eq_firstReading {pattern : Pattern κ}
    (separated : pattern.separatesWell = true) (text : Text) :
    (pattern.captures? text = .ok none ↔
      ∀ reading ∈ pattern.filled.readings text, reading.rest ≠ []) ∧
    (∀ earlier reading later, pattern.filled.readings text = earlier ++ reading :: later →
      (∀ other ∈ earlier, other.rest ≠ []) → reading.rest = [] →
        pattern.captures? text = .ok (some reading.marks)) ∧
    ((∀ node ∈ pattern.nodes, node ≠ choice []) → pattern.filled = pattern) := by
  have faithful : pattern.filled.isFaithful = true := pattern.isFaithful_filled.trans separated
  rw [← captures?_filled, captures?_of_isFaithful faithful]
  refine ⟨?_, ?_, pattern.filled_eq⟩
  · rw [Except.ok.injEq, whole?_eq_none_iff]
    constructor
    · rintro underived ⟨marks, rest⟩ member rfl
      exact underived marks member
    · intro unfinished marks derived
      exact unfinished _ derived rfl
  · intro earlier reading later split unfinished ended
    have skipped : (earlier.findSome? fun other =>
        if other.rest = [] then some other.marks else none) = none := by
      rw [List.findSome?_eq_none_iff]
      intro other member
      exact if_neg (unfinished other member)
    rw [whole?, split, List.findSome?_append, skipped]
    simp [ended]

/-- A lazy repetition stops after its first element if it can: here only the second way to
read the text is a way to read all of it. -/
theorem captures?_shortestItems :
    (repeated (.choice [.capture 0 (.plain (Regex.ofText ['a'])), .capture 1 (.plain .empty)])
      (Regex.ofText [',']) true false).captures? [',', 'a'] =
      .ok (some [(1, some []), (0, some ['a'])]) :=
  (captures?_eq_firstReading (κ := Nat) rfl [',', 'a']).2.1 [⟨[(1, some [])], [',', 'a']⟩]
    ⟨[(1, some []), (0, some ['a'])], []⟩ [⟨[(1, some []), (1, some [])], ['a']⟩]
    (by cbv) (by simp) rfl

/-- A choice without options has no way to read the empty text, and it matches it. -/
theorem captures?_choice_nil :
    (choice ([] : List (Pattern Unit))).separatesWell = true ∧
      (choice ([] : List (Pattern Unit))).readings [] = [] ∧
      (choice ([] : List (Pattern Unit))).captures? [] = .ok (some []) :=
  ⟨rfl, rfl, rfl⟩

end UriTemplates.Pattern
