import UriTemplates.Proofs.Grammar.Tokens

/-!
# Scanning templates

The scan of a text takes a well-formed expression wherever one starts
(`Segment.scan_text_append`) and puts every other character in front of a gap
(`Segment.scan_cons`). So its segments are gaps with characters in them and well-formed
expressions, and two gaps never follow each other (`Segment.isSeparated_scan`).
-/

namespace UriTemplates

/-- An operator is read from its symbol alone. -/
theorem Operator.ofText?_eq_some_iff {text : Text} {operator : Operator} :
    ofText? text = some operator ↔ operator.symbol = text := by
  constructor
  · intro found
    simpa using List.find?_some found
  · rintro rfl
    cases operator <;> rfl

/-- What selects a kind of expression starts no name. -/
theorem Operator.isSymbol_of_isNameChar {c : Char} (named : Text.isNameChar c = true ∨ c = '%') :
    isSymbol c = false := by
  rw [Bool.eq_false_iff]
  intro known
  have among : c ∈ ['+', '#', '.', '/', ';', '?', '&', '=', ',', '!', '@', '|'] := by
    rw [isSymbol, Bool.or_eq_true, Option.isSome_iff_exists] at known
    rcases known with ⟨operator, found⟩ | aside
    · rw [ofText?_eq_some_iff] at found
      cases operator <;> cases found <;> decide
    · simp only [isSetAside, List.contains_iff_mem] at aside
      exact List.mem_append_right ['+', '#', '.', '/', ';', '?', '&'] aside
  simp only [List.mem_cons, List.not_mem_nil, or_false] at among
  rcases among with rfl | rfl | rfl | rfl | rfl | rfl | rfl | rfl | rfl | rfl | rfl | rfl <;>
    exact absurd named (by decide)

/-- A specification starts with a character of its name. -/
theorem Variable.IsSpecification.exists_eq_cons {specification : Text}
    (specified : IsSpecification specification) :
    ∃ c rest, specification = c :: rest ∧ (Text.isNameChar c = true ∨ c = '%') := by
  have ofName : ∀ {name : Text}, Text.IsName name → ∀ more,
      ∃ c rest, name ++ more = c :: rest ∧ (Text.isNameChar c = true ∨ c = '%') := by
    intro name named more
    obtain ⟨unit, rest, rfl, @⟨c, first⟩ | _, -⟩ := Text.isName_iff_exists.mp named
    · exact ⟨c, rest ++ more, rfl, .inl first⟩
    · exact ⟨'%', _, rfl, .inr rfl⟩
  cases specified with
  | plain named => simpa using ofName named []
  | exploded named => exact ofName named _
  | truncated named => exact ofName named _

namespace Segment

/-- Well-formed expressions: a text that can select a kind, if any, and specifications. -/
inductive IsExpression : Segment → Prop
  /-- A well-formed expression. -/
  | intro {symbol : Option Char} {specifications : List Text}
      (known : ∀ c ∈ symbol, Operator.isSymbol c = true) (nonempty : specifications ≠ [])
      (each : ∀ specification ∈ specifications, Variable.IsSpecification specification) :
      IsExpression (expression symbol specifications)

/-- What stands between the braces of a well-formed expression is taken apart again. -/
theorem ofInner_joined {symbol : Option Char} {specifications : List Text}
    (known : ∀ c ∈ symbol, Operator.isSymbol c = true) (nonempty : specifications ≠ [])
    (each : ∀ specification ∈ specifications, Variable.IsSpecification specification) :
    ofInner (symbol.toList ++ Text.joined ',' specifications) =
      expression symbol specifications := by
  have fields := Text.fields_joined nonempty fun specification member =>
    (each specification member).notMem (c := ',') (by decide) (by decide) (by decide) (by decide)
  cases symbol with
  | some c =>
    rw [Option.toList_some, List.singleton_append, ofInner, if_pos (known c rfl), fields]
  | none =>
    obtain ⟨first, later, rfl⟩ := List.exists_cons_of_ne_nil nonempty
    obtain ⟨c, rest, same, named⟩ := (each first List.mem_cons_self).exists_eq_cons
    rw [Text.joined_cons_eq, same] at fields ⊢
    rw [Option.toList_none, List.nil_append, List.cons_append, ofInner,
      if_neg (by simp [Operator.isSymbol_of_isNameChar named])]
    rw [List.cons_append] at fields
    rw [fields]

/-- **An expression is found** just where a well-formed one starts. -/
theorem expression?_eq_some_iff {text rest : Text} {segment : Segment} :
    expression? text = some (segment, rest) ↔
      segment.IsExpression ∧ segment.text ++ rest = '\x7b' :: text := by
  constructor
  · intro found
    refine ⟨?_, text_expression? found⟩
    unfold expression? at found
    split at found
    · cases found
    · split at found
      · rename_i closed
        cases found
        have wellFormed := closed.2
        unfold ofInner at wellFormed ⊢
        split at wellFormed
        · exact absurd wellFormed (by decide)
        · rename_i c inner _
          split at wellFormed
          · rename_i known
            rw [if_pos known]
            refine .intro (by simpa using known) (Text.fields_ne_nil _ _)
              fun specification member => ?_
            exact Variable.isSpecification_iff.mp (List.all_eq_true.mp wellFormed _ member)
          · rename_i unknown
            rw [if_neg unknown]
            refine .intro (by simp) (Text.fields_ne_nil _ _) fun specification member => ?_
            exact Variable.isSpecification_iff.mp (List.all_eq_true.mp wellFormed _ member)
      · cases found
  · rintro ⟨@⟨symbol, specifications, known, nonempty, each⟩, same⟩
    have inside : text = (symbol.toList ++ Text.joined ',' specifications) ++ '\x7d' :: rest := by
      simpa [Segment.text] using same.symm
    have noBrace : ∀ c ∈ symbol.toList ++ Text.joined ',' specifications, (!isBrace c) = true := by
      rw [List.forall_mem_append]
      refine ⟨fun c member => ?_, fun c member => ?_⟩
      · rw [Text.isBrace_of_isSymbol (known c (Option.mem_toList.mp member))]
        rfl
      · rw [Text.isBrace_of_mem_joined each c member]
        rfl
    have wellFormed : (expression symbol specifications).isWellFormed = true :=
      List.all_eq_true.mpr fun specification member =>
        Variable.isSpecification_iff.mpr (each specification member)
    rw [expression?, inside, List.dropWhile_append_of_pos noBrace,
      List.takeWhile_append_of_pos noBrace]
    simp [isBrace, ofInner_joined known nonempty each, wellFormed]

/-- An expression starts with a brace. -/
theorem IsExpression.exists_text_eq {segment : Segment} (written : segment.IsExpression) :
    ∃ inside, segment.text = '\x7b' :: inside := by
  cases written
  exact ⟨_, rfl⟩

/-- The scan takes a well-formed expression where one starts. -/
theorem scan_text_append {segment : Segment} (written : segment.IsExpression) (rest : Text) :
    scan (segment.text ++ rest) = segment :: scan rest := by
  obtain ⟨inside, same⟩ := written.exists_text_eq
  have found : expression? (inside ++ rest) = some (segment, rest) :=
    expression?_eq_some_iff.mpr ⟨written, by rw [same, List.cons_append]⟩
  rw [same, List.cons_append, scan, if_pos rfl]
  split
  · rename_i other after known
    rw [found] at known
    cases known
    rfl
  · rename_i nothing
    rw [found] at nothing
    cases nothing

/-- The scan puts a character in front of a gap where no well-formed expression starts. -/
theorem scan_cons {c : Char} {rest : Text}
    (apart : ∀ segment after, IsExpression segment → segment.text ++ after ≠ c :: rest) :
    scan (c :: rest) = withChar c (scan rest) := by
  rw [scan]
  split
  · rename_i opening
    subst opening
    split
    · rename_i segment after found
      obtain ⟨written, same⟩ := expression?_eq_some_iff.mp found
      exact (apart segment after written same).elim
    · rfl
  · rfl

/-- Put a text in front of the first gap. -/
def withText (text : Text) (segments : List Segment) : List Segment :=
  text.foldr withChar segments

/-- The scan puts a text without opening braces in front of a gap. -/
theorem scan_append {text : Text} (noBrace : '\x7b' ∉ text) (rest : Text) :
    scan (text ++ rest) = withText text (scan rest) := by
  induction text with
  | nil => rfl
  | cons c text ih =>
    rw [List.mem_cons, not_or] at noBrace
    rw [List.cons_append, scan_cons, ih noBrace.2]
    · rfl
    · intro segment after written same
      obtain ⟨inside, starts⟩ := written.exists_text_eq
      rw [starts, List.cons_append] at same
      exact noBrace.1 (List.cons.inj same).1

/-- Text in front of a gap belongs to the gap. -/
theorem withText_gap (text other : Text) (segments : List Segment) :
    withText text (gap other :: segments) = gap (text ++ other) :: segments := by
  induction text with
  | nil => rfl
  | cons c text ih =>
    rw [withText, List.foldr_cons, ← withText, ih]
    rfl

/-- Whether segments start with a gap. -/
def startsGap : List Segment → Bool
  | gap _ :: _ => true
  | _ => false

/-- Text in front of what is no gap is a gap of its own. -/
theorem withText_of_startsGap {text : Text} {segments : List Segment} (nonempty : text ≠ [])
    (apart : startsGap segments = false) : withText text segments = gap text :: segments := by
  obtain ⟨before, c, rfl⟩ := List.eq_nil_or_concat text |>.resolve_left nonempty
  rw [withText, List.concat_eq_append, List.foldr_append]
  have last : withChar c segments = gap [c] :: segments := by
    unfold withChar
    split
    · cases apart
    · rfl
  rw [List.foldr_cons, List.foldr_nil, last]
  exact withText_gap before [c] segments

/-- Segments among which no gap is empty and no gap follows another one. -/
inductive IsSeparated : List Segment → Prop
  /-- No segment. -/
  | nil : IsSeparated []
  /-- A well-formed expression before such segments. -/
  | expression {segment : Segment} {later : List Segment} (written : segment.IsExpression)
      (more : IsSeparated later) : IsSeparated (segment :: later)
  /-- A gap before such segments, which start with an expression, if at all. -/
  | gap {text : Text} {later : List Segment} (nonempty : text ≠ [])
      (apart : startsGap later = false) (more : IsSeparated later) :
      IsSeparated (gap text :: later)

/-- A character in front leaves no gap empty and lets no gap follow another one. -/
theorem IsSeparated.withChar {segments : List Segment} (separated : IsSeparated segments)
    (c : Char) : IsSeparated (withChar c segments) := by
  cases separated with
  | nil => exact .gap (List.cons_ne_nil _ _) rfl .nil
  | expression written more =>
    cases written with
    | intro known nonempty each =>
      exact .gap (List.cons_ne_nil _ _) rfl (.expression (.intro known nonempty each) more)
  | gap nonempty apart more => exact .gap (List.cons_ne_nil _ _) apart more

/-- **Scans are separated.** Characters outside the expressions are gathered in one gap. -/
theorem isSeparated_scan (text : Text) : IsSeparated (scan text) := by
  fun_induction scan text with
  | case1 => exact .nil
  | case2 rest segment after found ih =>
    exact .expression (expression?_eq_some_iff.mp found).1 ih
  | case3 rest nothing ih => exact ih.withChar _
  | case4 c rest other ih => exact ih.withChar c

end Segment

end UriTemplates
