import UriTemplates.Proofs.Reading.Whole

/-!
# Loops and repetitions

The laws of reading one thing after another, and what they say about loops whose
iterations always read something (`Readings.Consumes`). Such a loop reads a text in pieces
(`Readings.derives_loop`). An element with any number of further elements after a separator
reads, in the same order, like an element and perhaps, after a separator, all of this once
more (`Readings.repetition_eq`): this is why a repetition can be taken apart from its front.
-/

namespace UriTemplates.Readings

variable {β : Type}

theorem stop_andThen (readings : Readings β) : stop.andThen readings = readings := by
  funext text
  simp [andThen, stop, continued]

theorem andThen_stop (readings : Readings β) : readings.andThen stop = readings := by
  funext text
  simp [andThen, stop, continued]

/-- To continue a reading twice is to continue it with what is continued. -/
theorem continued_flatMap (reading : Reading β) (next : List (Reading β)) (more : Readings β) :
    (continued reading next).flatMap (fun later => continued later (more later.rest)) =
      continued reading (next.flatMap fun later => continued later (more later.rest)) := by
  simp [continued, List.flatMap_map, List.map_flatMap, Function.comp_def]

/-- Three things one after the other can be put together from either side. -/
theorem andThen_assoc (first second third : Readings β) :
    (first.andThen second).andThen third = first.andThen (second.andThen third) := by
  funext text
  simp only [andThen, List.flatMap_assoc, continued_flatMap]

/-- Where there is no other way, there are only the first ones. -/
theorem orElse_never (readings : Readings β) : readings.orElse never = readings := by
  funext text
  exact List.append_nil _

/-- Reading on after one of two things is to read on after either. -/
theorem orElse_andThen (first second third : Readings β) :
    (first.orElse second).andThen third = (first.andThen third).orElse (second.andThen third) := by
  funext text
  exact List.flatMap_append

/-- Whether every reading takes something away. -/
def Consumes (readings : Readings β) : Prop :=
  ∀ text, ∀ reading ∈ readings text, reading.rest.length < text.length

/-- Readings take something away just if they do not read the empty text. -/
theorem IsLocal.consumes_iff {readings : Readings β} (isLocal : readings.IsLocal) :
    readings.Consumes ↔ ∀ marks, ¬ readings.Derives [] marks := by
  constructor
  · intro consumes marks derived
    exact Nat.lt_irrefl _ (consumes [] ⟨marks, []⟩ derived)
  · intro underived text reading member
    by_contra long
    have whole := isLocal.consumed_append member
    have nothing : consumed text reading = [] := by
      have lengths := congrArg List.length whole
      rw [List.length_append] at lengths
      exact List.eq_nil_of_length_eq_zero (by omega)
    have derived := isLocal.derives_consumed member
    rw [nothing] at derived
    exact underived reading.marks derived

/-- What is read first consumes something whatever is read next. -/
theorem Consumes.andThen {first second : Readings β} (consumes : first.Consumes)
    (isLocal : second.IsLocal) : (first.andThen second).Consumes := by
  intro text last member
  obtain ⟨reading, read, continuing⟩ := List.mem_flatMap.mp member
  obtain ⟨later, readLater, rfl⟩ := mem_continued.mp continuing
  have shorter := (isLocal.rest_suffix _ later readLater).length_le
  exact Nat.lt_of_le_of_lt shorter (consumes text reading read)

theorem Consumes.orElse {first second : Readings β} (consumes : first.Consumes)
    (consumesOther : second.Consumes) : (first.orElse second).Consumes :=
  fun text reading member =>
    (List.mem_append.mp member).elim (consumes text reading) (consumesOther text reading)

theorem Consumes.marked {inner : Readings β} (consumes : inner.Consumes) (mark : Text → β) :
    (inner.marked mark).Consumes := by
  intro text reading member
  obtain ⟨original, read, rfl⟩ := List.mem_map.mp member
  exact consumes text original read

/-- Whether readings record nothing. -/
def Silent (readings : Readings β) : Prop :=
  ∀ text, ∀ reading ∈ readings text, reading.marks = []

theorem silent_stop : Silent (stop : Readings β) := by
  intro text reading member
  cases List.mem_singleton.mp member
  rfl

theorem silent_char (test : Char → Bool) : Silent (char test : Readings β) := by
  intro text reading member
  cases text with
  | nil => cases member
  | cons c rest =>
    simp only [char] at member
    split at member
    · cases List.mem_singleton.mp member
      rfl
    · cases member

/-- A reading that records nothing is continued without marks by one that does not either. -/
theorem Silent.continued {reading last : Reading β} {next : List (Reading β)}
    (silent : reading.marks = []) (silentNext : ∀ later ∈ next, later.marks = [])
    (member : last ∈ continued reading next) : last.marks = [] := by
  obtain ⟨later, found, rfl⟩ := mem_continued.mp member
  simp [silent, silentNext later found]

theorem Silent.andThen {first second : Readings β} (silent : first.Silent)
    (silentNext : second.Silent) : (first.andThen second).Silent := by
  intro text last member
  obtain ⟨reading, read, continuing⟩ := List.mem_flatMap.mp member
  exact Silent.continued (silent text reading read) (silentNext reading.rest) continuing

theorem Silent.orElse {first second : Readings β} (silent : first.Silent)
    (silentOther : second.Silent) : (first.orElse second).Silent :=
  fun text reading member =>
    (List.mem_append.mp member).elim (silent text reading) (silentOther text reading)

/-- A number of times records nothing if one time does not. -/
theorem Silent.times {body : Readings β} (silent : body.Silent) :
    (count : Nat) → (body.times count).Silent
  | 0 => silent_stop
  | count + 1 => silent.andThen (silent.times count)

theorem Silent.further {body : Readings β} (silent : body.Silent) (isLazy : Bool)
    (limit : Option Nat) : (body.further isLazy limit).Silent := by
  intro text
  induction size : text.length using Nat.strongRecOn generalizing text limit with
  | ind size ih =>
    subst size
    have iterated : ∀ last ∈ (body text).flatMap (afterIteration body isLazy limit text),
        last.marks = [] := by
      intro last member
      obtain ⟨reading, read, continuing⟩ := List.mem_flatMap.mp member
      have nothing := silent text reading read
      simp only [afterIteration] at continuing
      split at continuing
      · rename_i shorter
        exact Silent.continued nothing (ih _ shorter _ reading.rest rfl) continuing
      · cases List.mem_singleton.mp continuing
        exact nothing
    intro last member
    rw [Readings.further_eq] at member
    split at member
    · exact silent_stop text last member
    · split at member
      · exact (List.mem_append.mp member).elim (silent_stop text last) (iterated last)
      · exact (List.mem_append.mp member).elim (iterated last) (silent_stop text last)

theorem Silent.loop {body : Readings β} (silent : body.Silent) (quantifier : Quantifier)
    (isLazy : Bool) : (body.loop quantifier isLazy).Silent :=
  (silent.times _).andThen (silent.further isLazy _)

/-- One thing or nothing, a lazy choice preferring nothing. -/
def perhaps (isLazy : Bool) (readings : Readings β) : Readings β :=
  if isLazy then stop.orElse readings else readings.orElse stop

/-- To read at most once is to read once or nothing. -/
theorem loop_optional (body : Readings β) (isLazy : Bool) :
    body.loop .optional isLazy = body.perhaps isLazy := by
  have once : ∀ text, (body text).flatMap (afterIteration body isLazy (some 1) text) =
      body text := by
    intro text
    have single : afterIteration body isLazy (some 1) text = fun reading => [reading] := by
      funext reading
      simp [afterIteration, Readings.further_eq, stop, continued]
    rw [single, List.flatMap_singleton']
  have bound : body.loop .optional isLazy = body.further isLazy (some 1) := stop_andThen _
  funext text
  rw [bound, further_eq, once]
  cases isLazy <;> rfl

/-- A star allows any number of iterations. -/
theorem loop_star (body : Readings β) (isLazy : Bool) :
    body.loop .star isLazy = body.further isLazy none :=
  stop_andThen _

/-- A plus requires one iteration and allows any number of others. -/
theorem loop_plus (body : Readings β) (isLazy : Bool) :
    body.loop .plus isLazy = body.andThen (body.further isLazy none) := by
  simp only [loop, Quantifier.least, Quantifier.further, times, andThen_stop]

/-- A loop whose iterations read something either stops or does one more iteration and
goes on. -/
theorem Consumes.further_eq {body : Readings β} (consumes : body.Consumes) (isLazy : Bool)
    (limit : Option Nat) :
    body.further isLazy limit =
      if limit = some 0 then stop
      else (body.andThen (body.further isLazy (limit.map (· - 1)))).perhaps isLazy := by
  funext text
  have iterated : (body text).flatMap (afterIteration body isLazy limit text) =
      body.andThen (body.further isLazy (limit.map (· - 1))) text := by
    apply List.flatMap_congr
    intro reading member
    exact if_pos (consumes text reading member)
  rw [Readings.further_eq, iterated]
  by_cases none : limit = some 0
  · rw [if_pos none, if_pos none]
  · rw [if_neg none, if_neg none]
    cases isLazy <;> rfl

/-- An element, and any number of further elements after a separator each. -/
def repetition (element separator : Readings β) (isLazy : Bool) : Readings β :=
  element.andThen ((separator.andThen element).further isLazy none)

/-- **Taking a repetition apart.** In order of preference, an element and any number of
further ones are an element and perhaps, after a separator, an element and any number of
further ones. -/
theorem repetition_eq {element separator : Readings β} (consumes : separator.Consumes)
    (isLocal : element.IsLocal) (isLazy : Bool) :
    repetition element separator isLazy =
      element.andThen ((separator.andThen (repetition element separator isLazy)).perhaps
        isLazy) := by
  have iteration := consumes.andThen isLocal
  conv_lhs => rw [repetition, iteration.further_eq, if_neg (by simp)]
  rw [andThen_assoc]
  rfl

/-- An optional reading reads the empty text besides what it reads itself. -/
theorem derives_perhaps {readings : Readings β} {isLazy : Bool} {text : Text}
    {marks : List β} :
    (readings.perhaps isLazy).Derives text marks ↔
      text = [] ∧ marks = [] ∨ readings.Derives text marks := by
  cases isLazy
  · simp [perhaps, derives_orElse, derives_stop, or_comm]
  · simp [perhaps, derives_orElse, derives_stop]

/-- The first way to read a whole text perhaps is to read nothing if it is empty and this is
preferred, or nothing else can be read, and otherwise the first way to read it. -/
theorem whole?_perhaps {readings : Readings β} {isLazy : Bool} {text : Text} {marks : List β}
    (first : (readings.perhaps isLazy).whole? text = some marks) :
    (text = [] ∧ marks = [] ∧ (isLazy = false → readings.whole? text = none)) ∨
      (readings.whole? text = some marks ∧ (isLazy = true → text ≠ [])) := by
  cases isLazy
  · simp only [perhaps, Bool.false_eq_true, ↓reduceIte, whole?_orElse, whole?_stop] at first
    cases read : readings.whole? text with
    | some found =>
      rw [read] at first
      exact .inr ⟨first, by simp⟩
    | none =>
      rw [read, Option.none_or] at first
      split at first
      · rename_i ended
        cases first
        exact .inl ⟨ended, rfl, fun _ => rfl⟩
      · cases first
  · simp only [perhaps, ↓reduceIte, whole?_orElse, whole?_stop] at first
    by_cases ended : text = []
    · rw [if_pos ended] at first
      cases first
      exact .inl ⟨ended, rfl, by simp⟩
    · rw [if_neg ended, Option.none_or] at first
      exact .inr ⟨first, fun _ => ended⟩

/-- A text is read whole perhaps if it is empty or can be read whole. -/
theorem isSome_whole?_perhaps {readings : Readings β} {isLazy : Bool} {text : Text} :
    ((readings.perhaps isLazy).whole? text).isSome = true ↔
      text = [] ∨ (readings.whole? text).isSome = true := by
  by_cases ended : text = [] <;> cases isLazy <;>
    simp [perhaps, whole?_orElse, whole?_stop, ended]

/-- Whether a text is read in pieces, one after the other, and what that records. -/
structure InPieces (body : Readings β) (pieces : List (Text × List β)) (text : Text)
    (marks : List β) : Prop where
  text_eq : text = (pieces.map Prod.fst).flatten
  marks_eq : marks = (pieces.map Prod.snd).flatten
  derives : ∀ piece ∈ pieces, body.Derives piece.1 piece.2

theorem inPieces_nil {body : Readings β} {text : Text} {marks : List β} :
    body.InPieces [] text marks ↔ text = [] ∧ marks = [] :=
  ⟨fun read => ⟨read.text_eq, read.marks_eq⟩, fun ⟨text, marks⟩ => ⟨text, marks, by simp⟩⟩

/-- A text in several pieces is a first piece and the text of the others. -/
theorem inPieces_cons {body : Readings β} {piece : Text × List β}
    {pieces : List (Text × List β)} {text : Text} {marks : List β} :
    body.InPieces (piece :: pieces) text marks ↔
      ∃ back after, text = piece.1 ++ back ∧ marks = piece.2 ++ after ∧
        body.Derives piece.1 piece.2 ∧ body.InPieces pieces back after := by
  constructor
  · rintro ⟨rfl, rfl, derives⟩
    exact ⟨_, _, rfl, rfl, derives piece List.mem_cons_self,
      rfl, rfl, fun other member => derives other (List.mem_cons_of_mem piece member)⟩
  · rintro ⟨back, after, rfl, rfl, derived, rfl, rfl, derives⟩
    exact ⟨rfl, rfl, List.forall_mem_cons.mpr ⟨derived, derives⟩⟩

/-- A number of times reads as many pieces. -/
theorem derives_times {body : Readings β} (isLocal : body.IsLocal) {count : Nat} {text : Text}
    {marks : List β} :
    (body.times count).Derives text marks ↔
      ∃ pieces, pieces.length = count ∧ body.InPieces pieces text marks := by
  induction count generalizing text marks with
  | zero =>
    simp only [times, derives_stop, List.length_eq_zero_iff, exists_eq_left, inPieces_nil]
  | succ count ih =>
    simp only [times, derives_andThen isLocal, ih]
    constructor
    · rintro ⟨front, back, before, after, rfl, rfl, derived, pieces, rfl, read⟩
      exact ⟨(front, before) :: pieces, rfl,
        inPieces_cons.mpr ⟨back, after, rfl, rfl, derived, read⟩⟩
    · rintro ⟨pieces, size, read⟩
      obtain ⟨⟨front, before⟩, pieces, rfl⟩ := List.exists_cons_of_length_eq_add_one size
      obtain ⟨back, after, rfl, rfl, derived, read⟩ := inPieces_cons.mp read
      exact ⟨front, back, before, after, rfl, rfl, derived, pieces, by simpa using size, read⟩

/-- Further iterations read any number of pieces, up to their limit. -/
theorem derives_further {body : Readings β} (isLocal : body.IsLocal)
    (consumes : body.Consumes) {isLazy : Bool} {limit : Option Nat} {text : Text}
    {marks : List β} :
    (body.further isLazy limit).Derives text marks ↔
      ∃ pieces, (∀ most, limit = some most → pieces.length ≤ most) ∧
        body.InPieces pieces text marks := by
  constructor
  · intro derived
    induction size : text.length using Nat.strongRecOn generalizing text marks limit with
    | ind size ih =>
      subst size
      rw [consumes.further_eq] at derived
      split at derived
      · exact ⟨[], by simp, inPieces_nil.mpr (derives_stop.mp derived)⟩
      · rename_i more
        rcases derives_perhaps.mp derived with ended | iterated
        · exact ⟨[], by simp, inPieces_nil.mpr ended⟩
        · obtain ⟨front, back, before, after, rfl, rfl, first, later⟩ :=
            (derives_andThen isLocal).mp iterated
          have shorter : back.length < (front ++ back).length :=
            consumes _ _ (isLocal.mem_append_iff.mpr first)
          obtain ⟨pieces, bound, read⟩ := ih _ shorter later rfl
          refine ⟨(front, before) :: pieces, ?_,
            inPieces_cons.mpr ⟨back, after, rfl, rfl, first, read⟩⟩
          rintro most rfl
          have := bound (most - 1) rfl
          have : most ≠ 0 := by simpa using more
          simp only [List.length_cons]
          omega
  · rintro ⟨pieces, bound, read⟩
    induction pieces generalizing text marks limit with
    | nil =>
      rw [consumes.further_eq]
      have ended := inPieces_nil.mp read
      split
      · exact derives_stop.mpr ended
      · exact derives_perhaps.mpr (.inl ended)
    | cons piece pieces ih =>
      obtain ⟨back, after, rfl, rfl, first, later⟩ := inPieces_cons.mp read
      rw [consumes.further_eq, if_neg]
      · refine derives_perhaps.mpr (.inr ((derives_andThen isLocal).mpr
          ⟨piece.1, back, piece.2, after, rfl, rfl, first, ih ?_ later⟩))
        intro most less
        obtain ⟨all, rfl, rfl⟩ := Option.map_eq_some_iff.mp less
        have := bound all rfl
        simp only [List.length_cons] at this
        omega
      · rintro rfl
        simpa using bound 0 rfl

/-- Pieces of two texts are pieces of both together. -/
theorem InPieces.append {body : Readings β} {first second : List (Text × List β)}
    {text more : Text} {marks further : List β} (read : body.InPieces first text marks)
    (readMore : body.InPieces second more further) :
    body.InPieces (first ++ second) (text ++ more) (marks ++ further) where
  text_eq := by simp [read.text_eq, readMore.text_eq]
  marks_eq := by simp [read.marks_eq, readMore.marks_eq]
  derives piece member := (List.mem_append.mp member).elim (read.derives piece)
    (readMore.derives piece)

/-- A loop whose iterations read something reads a text in as many pieces as its
quantifier allows. -/
theorem derives_loop {body : Readings β} (isLocal : body.IsLocal) (consumes : body.Consumes)
    {quantifier : Quantifier} {isLazy : Bool} {text : Text} {marks : List β} :
    (body.loop quantifier isLazy).Derives text marks ↔
      ∃ pieces, quantifier.least ≤ pieces.length ∧
        (∀ more, quantifier.further = some more →
          pieces.length ≤ quantifier.least + more) ∧
        body.InPieces pieces text marks := by
  rw [loop, derives_andThen (isLocal.times _)]
  simp only [derives_times isLocal, derives_further isLocal consumes]
  constructor
  · rintro ⟨front, back, before, after, rfl, rfl, ⟨first, size, read⟩, second, bound, readMore⟩
    refine ⟨first ++ second, ?_, ?_, read.append readMore⟩
    · rw [List.length_append]
      omega
    · intro more limited
      have := bound more limited
      rw [List.length_append]
      omega
  · rintro ⟨pieces, enough, bound, read⟩
    have whole := List.take_append_drop quantifier.least pieces
    refine ⟨_, _, _, _, ?_, ?_,
      ⟨pieces.take quantifier.least, List.length_take_of_le enough, rfl, rfl,
        fun piece member => read.derives piece (List.mem_of_mem_take member)⟩,
      pieces.drop quantifier.least, ?_, rfl, rfl,
      fun piece member => read.derives piece (List.mem_of_mem_drop member)⟩
    · rw [← List.flatten_append, ← List.map_append, whole, read.text_eq]
    · rw [← List.flatten_append, ← List.map_append, whole, read.marks_eq]
    · intro more limited
      have := bound more limited
      rw [List.length_drop]
      omega

end UriTemplates.Readings

/-- A regular expression records nothing. -/
theorem UriTemplates.Regex.silent_readings {β : Type} (regex : Regex) :
    Readings.Silent (β := β) regex.readings := by
  induction regex with
  | empty => exact Readings.silent_stop
  | char test => exact Readings.silent_char test.accepts
  | seq first second silent silentNext => exact silent.andThen silentNext
  | alt first second silent silentOther => exact silent.orElse silentOther
  | group inner silent => exact silent
  | loop body quantifier isLazy silent => exact silent.loop quantifier isLazy
