import UriTemplates.Proofs.Pattern.Recapture
import UriTemplates.Proofs.Pattern.TakingOff
import UriTemplates.Proofs.Reading.Spelling
import UriTemplates.Regex.Parse

/-!
# Splits of repetitions

The ways to read a repetition, each with the split of what it reads into elements and separators
(`Pattern.splits`), and the ways to take its first element off, where the rest of the repetition
is split as well (`Pattern.peeledSplits`). Both are in the order of the expressions that are
written for them (`Pattern.AreWaysOf`).

A separator is written directly before an element, so its last alternative alone is followed by
one (`Pattern.separated`). After any other alternative a repetition may go on with another
iteration (`Pattern.splits_eq`), but where its first element is taken off, it may not. So both
have the same splits in the same order where no bar divides the separator, and then peeling visits
the elements of the first way to read the repetition (`Pattern.repeated_peels`). With a bar peeling
may fail (`Pattern.peeledSplits_barred`).
-/

namespace UriTemplates

/-- A piece of what a repetition reads. -/
inductive Piece where
  /-- An element. -/
  | element (span : Text)
  /-- What stands between two elements. -/
  | separator (span : Text)
  deriving DecidableEq

namespace Piece

/-- The text of a piece. -/
def text : Piece → Text
  | element span => span
  | separator span => span

/-- The spans of the elements among pieces. -/
def elements (pieces : List Piece) : List Text :=
  pieces.filterMap fun
    | element span => some span
    | separator _ => none

end Piece

namespace Pattern

open Readings

/-- The ways to read an element as a piece. -/
def elementReadings (element : Regex) : Readings Piece :=
  Readings.marked Piece.element element.readings

/-- The ways to read a separator as a piece, without the alternatives that a bar divides it into. -/
def separatorReadings (separator : Regex) : Readings Piece :=
  Readings.marked Piece.separator separator.readings

/-- The ways to read a separator with something written directly after it. This belongs to the last
alternative alone; what follows the other alternatives is given apart. -/
def separated (others next : Readings Piece) : Regex → Readings Piece
  | .alt first second =>
    ((separatorReadings first).andThen others).orElse (separated others next second)
  | separator => (separatorReadings separator).andThen next

/-- The iterations of a repetition: a separator with an element written directly after it. -/
def iterations (element separator : Regex) : Readings Piece :=
  separated Readings.stop (elementReadings element) separator

/-- **The ways to read a repetition**, each with its split into elements and separators. -/
def splits (element separator : Regex) (isLazy requiresMore : Bool) : Readings Piece :=
  (elementReadings element).andThen
    ((iterations element separator).loop (moreQuantifier requiresMore) isLazy)

/-- **The ways to take the first element off a repetition**, each with its split into this
element, the separator after it and the pieces of the remaining repetition. Where another element
has to follow, the separator is written without a group, so a bar in it also divides what stands
before it. -/
def peeledSplits (element separator : Regex) (isLazy requiresMore : Bool) : Readings Piece :=
  let rest := splits element separator isLazy false
  if requiresMore then
    match separator with
    | .alt first second =>
      ((elementReadings element).andThen (separatorReadings first)).orElse
        (separated Readings.stop rest second)
    | separator => (elementReadings element).andThen (separated Readings.stop rest separator)
  else
    (elementReadings element).andThen
      ((separated Readings.stop rest separator).loop .optional isLazy)

/-- Whether readings are the ways to read an expression, in its order of preference, each with the
pieces that make up what is read. -/
structure AreWaysOf (ways : Readings Piece) (regex : Regex) : Prop where
  ends_eq : ways.ends = (regex.readings : Readings Piece).ends
  spells : ways.Spells Piece.text

section Ways

variable {element separator regex other : Regex} {ways next : Readings Piece}

namespace AreWaysOf

theorem marked (regex : Regex) {mark : Text → Piece} (spelled : ∀ span, (mark span).text = span) :
    AreWaysOf (Readings.marked mark regex.readings) regex where
  ends_eq := ends_marked _ _
  spells := .marked regex.isLocal_readings regex.silent_readings spelled

theorem andThen (areWays : AreWaysOf ways regex) (areWaysNext : AreWaysOf next other) :
    AreWaysOf (ways.andThen next) (regex.andThen other) where
  ends_eq := by
    rw [Regex.readings_andThen]
    exact ends_andThen_congr areWays.ends_eq areWaysNext.ends_eq
  spells := areWays.spells.andThen areWaysNext.spells

theorem orElse (areWays : AreWaysOf ways regex) (areWaysOther : AreWaysOf next other) :
    AreWaysOf (ways.orElse next) (.alt regex other) where
  ends_eq := ends_orElse_congr areWays.ends_eq areWaysOther.ends_eq
  spells := areWays.spells.orElse areWaysOther.spells

theorem group (areWays : AreWaysOf ways regex) : AreWaysOf ways (.group regex) where
  ends_eq := areWays.ends_eq
  spells := areWays.spells

theorem loop (areWays : AreWaysOf ways regex) (quantifier : Quantifier) (isLazy : Bool) :
    AreWaysOf (ways.loop quantifier isLazy) (.loop regex quantifier isLazy) where
  ends_eq := ends_loop_congr areWays.ends_eq quantifier isLazy
  spells := areWays.spells.loop quantifier isLazy

end AreWaysOf

/-- An element is read in its own ways, as one piece. -/
theorem areWaysOf_elementReadings (element : Regex) :
    AreWaysOf (elementReadings element) element :=
  .marked element fun _ => rfl

/-- A separator is read in its own ways, as one piece. -/
theorem areWaysOf_separatorReadings (separator : Regex) :
    AreWaysOf (separatorReadings separator) separator :=
  .marked separator fun _ => rfl

/-- A separator with something written directly after it is read in the ways of both, spliced. -/
theorem areWaysOf_separated (separator : Regex) (areWays : AreWaysOf next regex)
    (undivided : regex.isUndivided = true) :
    AreWaysOf (separated Readings.stop next separator) (separator.splice regex) := by
  induction separator with
  | alt first second _ ih =>
    rw [separated, andThen_stop]
    exact (areWaysOf_separatorReadings first).orElse ih
  | _ =>
    rw [Regex.splice_eq_andThen rfl undivided]
    exact (areWaysOf_separatorReadings _).andThen areWays

/-- The splits of a repetition are the ways to read what it is written as. -/
theorem areWaysOf_splits (separator : Regex) (isLazy requiresMore : Bool)
    (undivided : element.isUndivided = true) :
    AreWaysOf (splits element separator isLazy requiresMore)
      (element.andThen (moreElements element separator isLazy requiresMore)) := by
  have areWays := areWaysOf_elementReadings element
  exact areWays.andThen ((areWaysOf_separated separator areWays undivided).group.loop _ _)

/-- The splits with a first element taken off are the ways to read what is written for that. -/
theorem areWaysOf_peeledSplits (separator : Regex) (isLazy requiresMore : Bool)
    (undivided : element.isUndivided = true) :
    AreWaysOf (peeledSplits element separator isLazy requiresMore)
      (peeled element separator isLazy requiresMore) := by
  have areWays := areWaysOf_elementReadings element
  have rest : AreWaysOf (splits element separator isLazy false)
      (.group (remainder element separator isLazy)) :=
    (areWaysOf_splits separator isLazy false undivided).group
  cases requiresMore with
  | false => exact areWays.andThen ((areWaysOf_separated separator rest rfl).group.loop _ _)
  | true =>
    cases separator with
    | alt first second =>
      simp only [peeledSplits, peeled, ↓reduceIte, Regex.splice, splice_alt undivided]
      exact (areWays.andThen (areWaysOf_separatorReadings first)).orElse
        (areWaysOf_separated second rest rfl)
    | _ =>
      rw [peeled_of_undivided undivided rfl]
      exact areWays.andThen (areWaysOf_separated _ rest rfl)

end Ways

section Order

variable {element separator : Regex} {isLazy requiresMore : Bool}

/-- What follows is read after every alternative of a separator. -/
theorem separated_andThen (others next later : Readings Piece) (separator : Regex) :
    (separated others next separator).andThen later =
      separated (others.andThen later) (next.andThen later) separator := by
  induction separator with
  | alt first second _ ih => rw [separated, separated, orElse_andThen, ih, andThen_assoc]
  | _ => exact andThen_assoc _ _ _

/-- A separator without a bar is read before what is written after it. -/
theorem separated_of_undivided (undivided : separator.isUndivided = true)
    (others next : Readings Piece) :
    separated others next separator = (separatorReadings separator).andThen next := by
  cases separator with
  | alt => cases undivided
  | _ => rfl

/-- A separator that does not match the empty text reads something. -/
theorem consumes_separatorReadings (nonempty : separator.isMatch [] = false) :
    (separatorReadings separator).Consumes :=
  (Regex.consumes_of_isMatch_nil nonempty).marked _

/-- Every iteration of a repetition reads something. -/
theorem consumes_iterations (nonempty : separator.isMatch [] = false) :
    (iterations element separator).Consumes := by
  unfold iterations
  induction separator with
  | alt first second _ ih =>
    rw [Bool.eq_false_iff, Ne, Regex.isMatch_alt, not_or] at nonempty
    obtain ⟨first, second⟩ := nonempty
    have ended := (consumes_separatorReadings (Bool.eq_false_iff.mpr first)).andThen isLocal_stop
    exact ended.orElse (ih (Bool.eq_false_iff.mpr second))
  | _ =>
    exact (consumes_separatorReadings nonempty).andThen (element.isLocal_readings.marked _)

/-- The ways to go on with any number of iterations. -/
def furtherSplits (element separator : Regex) (isLazy : Bool) : Readings Piece :=
  (iterations element separator).further isLazy none

/-- Going on with iterations is to stop or to read one and go on again. -/
theorem furtherSplits_eq (nonempty : separator.isMatch [] = false) :
    furtherSplits element separator isLazy =
      ((iterations element separator).andThen (furtherSplits element separator isLazy)).loop
        .optional isLazy := by
  rw [loop_optional]
  exact ((consumes_iterations nonempty).further_eq isLazy none).trans (if_neg (by simp))

/-- **The order of splits.** After its first element a repetition goes on with a separator: after
the last alternative of it with a repetition again, and after the others with further
iterations. -/
theorem splits_eq (nonempty : separator.isMatch [] = false) :
    splits element separator isLazy requiresMore =
      (elementReadings element).andThen
        (let onward := separated (furtherSplits element separator isLazy)
          (splits element separator isLazy false) separator
        if requiresMore then onward else onward.loop .optional isLazy) := by
  have again : splits element separator isLazy false =
      (elementReadings element).andThen (furtherSplits element separator isLazy) :=
    congrArg _ (loop_star _ isLazy)
  have onward : (iterations element separator).andThen (furtherSplits element separator isLazy) =
      separated (furtherSplits element separator isLazy)
        (splits element separator isLazy false) separator := by
    rw [iterations, separated_andThen, stop_andThen, again]
  rw [← onward]
  cases requiresMore with
  | true => exact congrArg _ (loop_plus _ isLazy)
  | false => exact again.trans (congrArg _ (furtherSplits_eq nonempty))

/-- Taking an element off keeps all splits in their order where no bar divides the separator. -/
theorem peeledSplits_eq (nonempty : separator.isMatch [] = false)
    (undivided : separator.isUndivided = true) :
    peeledSplits element separator isLazy requiresMore =
      splits element separator isLazy requiresMore := by
  rw [splits_eq nonempty]
  simp only [peeledSplits, separated_of_undivided undivided]
  cases separator with
  | alt => cases undivided
  | _ => cases requiresMore <;> rfl

end Order

section Visits

variable {element separator : Regex} {isLazy requiresMore : Bool}

/-- Elements and separators that record themselves as pieces make up a repetition. -/
theorem recording_pieces (undividedElement : element.isUndivided = true)
    (undivided : separator.isUndivided = true) (nonempty : separator.isMatch [] = false) :
    Recording element separator (elementReadings element) (separatorReadings separator) where
  ends_element := (areWaysOf_elementReadings element).ends_eq.symm
  ends_separator := (areWaysOf_separatorReadings separator).ends_eq.symm
  isLocal := element.isLocal_readings.marked _
  isLocal_separators := separator.isLocal_readings.marked _
  isUndivided_element := undividedElement
  isUndivided := undivided
  consumes := consumes_separatorReadings nonempty

/-- The first way to read an element whole is one piece. -/
theorem eq_element_of_whole? {span : Text} {pieces : List Piece}
    (read : (elementReadings element).whole? span = some pieces) :
    pieces = [Piece.element span] := by
  rw [elementReadings, whole?_marked] at read
  obtain ⟨inside, found, rfl⟩ := Option.map_eq_some_iff.mp read
  have nothing : inside = [] := element.silent_readings span _ (derives_of_whole? found)
  rw [nothing]

/-- The elements among the recorded pieces are the spans of the elements. -/
theorem elements_of_alternates {spans : List Text} {pieces : List Piece}
    (alternates : Alternates (elementReadings element) (separatorReadings separator) spans
      pieces) : Piece.elements pieces = spans := by
  induction alternates with
  | last read =>
    rw [eq_element_of_whole? read]
    rfl
  | more read passes _ ih =>
    obtain ⟨inside, derived, rfl⟩ := derives_marked.mp passes
    cases separator.silent_readings _ _ derived
    rw [eq_element_of_whole? read]
    exact congrArg _ ih

/-- The spans that peeling finds are those of the elements of the first split. -/
theorem elementSpans_of_splits (undividedElement : element.isUndivided = true)
    (undivided : separator.isUndivided = true) (nonempty : separator.isMatch [] = false)
    {text : Text} {pieces : List Piece}
    (first : (splits element separator isLazy requiresMore).whole? text = some pieces) :
    elementSpans element separator isLazy requiresMore text =
      (Piece.elements pieces).map fun span => .ok (some span) := by
  rw [splits, iterations, separated_of_undivided undivided] at first
  obtain ⟨spans, found, alternates⟩ :=
    (recording_pieces undividedElement undivided nonempty).elementSpans_of_whole? requiresMore first
  rw [elements_of_alternates alternates, found]

end Visits

variable {κ : Type}

/-- **Peeling keeps the order of preference.** For a separator that does not match the empty text,
`splits` and `peeledSplits` are the ways to read what is written for a repetition and what is
written to take its first element off. An element is taken off just where the latter matches, and
what is left to peel is shorter, so peeling ends. If no bar divides the separator, then both have
the same splits in the same order, from any place of a text on. Peeling a text that the repetition
matches then visits the elements of its first split, and the captures in the text are those in
these elements. -/
theorem repeated_peels (element : Pattern κ) {separator : Regex}
    (nonempty : separator.isMatch [] = false) (isLazy requiresMore : Bool) :
    AreWaysOf (splits element.regex separator isLazy requiresMore)
        (repeated element separator isLazy requiresMore).regex ∧
      AreWaysOf (peeledSplits element.regex separator isLazy requiresMore)
        (peeled element.regex separator isLazy requiresMore) ∧
      TakesOff (firstElement? element.regex separator isLazy)
        (peeled element.regex separator isLazy false) ∧
      TakesOff (firstOfSeveral? element.regex separator isLazy)
        (peeled element.regex separator isLazy true) ∧
      (separator.isUndivided = true →
        peeledSplits element.regex separator isLazy requiresMore =
            splits element.regex separator isLazy requiresMore ∧
          ∀ text, (repeated element separator isLazy requiresMore).regex.isMatch text = true →
            ∃ pieces,
              (splits element.regex separator isLazy requiresMore).whole? text = some pieces ∧
              elementSpans element.regex separator isLazy requiresMore text =
                (Piece.elements pieces).map (fun span => .ok (some span)) ∧
              (repeated element separator isLazy requiresMore).capturesIn text =
                ((Piece.elements pieces).mapM element.capturesIn).map List.flatten) := by
  have areWays : AreWaysOf (splits element.regex separator isLazy requiresMore)
      (repeated element separator isLazy requiresMore).regex :=
    (areWaysOf_splits separator isLazy requiresMore rfl).group
  refine ⟨areWays, areWaysOf_peeledSplits separator isLazy requiresMore rfl,
    takesOff_firstElement? nonempty, takesOff_firstOfSeveral? nonempty rfl, fun undivided => ?_⟩
  refine ⟨peeledSplits_eq nonempty undivided, fun text matched => ?_⟩
  rw [Regex.isMatch_iff (β := Piece), ← areWays.ends_eq, ← isSome_whole?_iff] at matched
  obtain ⟨pieces, first⟩ := Option.isSome_iff_exists.mp matched
  have visited := elementSpans_of_splits rfl undivided nonempty first
  exact ⟨pieces, first, visited, capturesIn_repeated visited⟩

/-- As few letters as possible, none at all if that is enough. -/
def fewLetters : Pattern Unit :=
  capture ()
    (plain (.loop (.char (.ofClass false [.range ⟨'a', false⟩ ⟨'z', false⟩])) .star true))

/-- Peeling visits empty elements too. -/
theorem repeated_peels_empty :
    (Regex.ofChar ',').isMatch [] = false ∧ (Regex.ofChar ',').isUndivided = true ∧
      (repeated fewLetters (.ofChar ',') true false).regex.isMatch "a,,c".toList = true ∧
      elementSpans fewLetters.regex (.ofChar ',') true false "a,,c".toList =
        [.ok (some ['a']), .ok (some []), .ok (some ['c'])] := by
  have nonempty : (Regex.ofChar ',').isMatch [] = false := by decide +kernel
  have matched : (repeated fewLetters (.ofChar ',') true false).regex.isMatch "a,,c".toList =
      true := by decide +kernel
  have first : (splits fewLetters.regex (.ofChar ',') true false).whole? "a,,c".toList =
      some [.element ['a'], .separator [','], .element [], .separator [','], .element ['c']] := by
    decide +kernel
  obtain ⟨-, -, -, -, peels⟩ := repeated_peels fewLetters nonempty true false
  obtain ⟨pieces, found, visited, -⟩ := (peels rfl).2 "a,,c".toList matched
  cases first.symm.trans found
  exact ⟨nonempty, rfl, matched, visited⟩

/-- The letter `x` as an element. -/
def letterX : Pattern Unit :=
  capture () (plain (.ofChar 'x'))

/-- A separator that a bar divides. -/
def barred : Regex :=
  .alt (.ofChar 'a') (.ofChar 'b')

/-- With a bar the splits are not the same. A repetition reads all of `xabx`, where `a` alone is an
iteration, but no way to take its first element off does. If another element has to follow, then no
element can be taken off `xbx`, although there are two elements in its first split, and its captures
are not found. -/
theorem peeledSplits_barred :
    Regex.ofWritten? "a|b".toList = some barred ∧ barred.isMatch [] = false ∧
      (splits letterX.regex barred false false).ends "xabx".toList =
        [[], ['b', 'x'], ['a', 'b', 'x']] ∧
      (peeledSplits letterX.regex barred false false).ends "xabx".toList =
        [['b', 'x'], ['a', 'b', 'x']] ∧
      (splits letterX.regex barred false true).whole? "xbx".toList =
        some [.element ['x'], .separator ['b'], .element ['x']] ∧
      (peeledSplits letterX.regex barred false true).whole? "xbx".toList = none ∧
      (repeated letterX barred false true).regex.isMatch "xbx".toList = true ∧
      (repeated letterX barred false true).capturesIn "xbx".toList =
        .error (.lostSpan (firstOfSeveralText letterX.regex barred false) "xbx".toList) := by
  have lost : firstOfSeveral? letterX.regex barred false "xbx".toList = none :=
    Option.isNone_iff_eq_none.mp (by decide +kernel)
  refine ⟨rfl, by decide +kernel, by decide +kernel, by decide +kernel, by decide +kernel,
    by decide +kernel, by decide +kernel, ?_⟩
  rw [capturesIn, elementSpans, if_pos rfl, lost]
  rfl

end Pattern

end UriTemplates
