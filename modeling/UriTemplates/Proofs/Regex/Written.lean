import UriTemplates.Proofs.Pattern.Written
import UriTemplates.Proofs.Regex.Tokens

/-!
# Reading expressions from what they are written as

An expression is read token by token, and every token says which groups are open after it
(`Regex.Step`). So what is read so far can be written down at any time, and an expression is
written as the text that it was read from (`Regex.text_of_ofWritten?`). The groups around never
matter: a text that can be read alone is read in the same way inside of a group, and in front of
what follows there (`Regex.IsWritten.exists_leads`).
-/

namespace UriTemplates.Regex

variable {current next : OpenGroup} {outer around : List OpenGroup} {token : Token}

/-! ### Tokens one by one -/

/-- What a token does to the groups that are open, the innermost one and those around it. -/
inductive Step :
    OpenGroup → List OpenGroup → Token → OpenGroup → List OpenGroup → Prop
  /-- A character is one more piece. -/
  | char (current : OpenGroup) (outer : List OpenGroup) (test : CharTest) :
      Step current outer (.char test) (current.withPiece (.char test)) outer
  /-- A bar finishes an alternative. -/
  | bar (current : OpenGroup) (outer : List OpenGroup) :
      Step current outer .bar ⟨ofPieces current.pieces :: current.alternatives, []⟩ outer
  /-- A group begins inside of the current one. -/
  | opening (current : OpenGroup) (outer : List OpenGroup) :
      Step current outer .opening {} (current :: outer)
  /-- A group that ends is a piece of the one around it. -/
  | closing (current around : OpenGroup) (outer : List OpenGroup) :
      Step current (around :: outer) .closing (around.withPiece (.group current.finished)) outer
  /-- A quantifier makes a loop of the last piece, which is none yet. -/
  | quantifier (alternatives : List Regex) {piece : Regex} (pieces : List Regex)
      (outer : List OpenGroup) (quantifier : Quantifier) (isLazy : Bool)
      (notLoop : ∀ body quantifier isLazy, piece ≠ .loop body quantifier isLazy) :
      Step ⟨alternatives, piece :: pieces⟩ outer (.quantifier quantifier isLazy)
        ⟨alternatives, .loop piece quantifier isLazy :: pieces⟩ outer

/-- To put a token together with others is to step and go on with the others. -/
theorem Step.build?_cons (step : Step current outer token next around) (tokens : List Token) :
    build? current outer (token :: tokens) = build? next around tokens := by
  cases step with
  | @quantifier alternatives piece pieces outer quantifier isLazy notLoop =>
    cases piece with
    | loop body quantifier isLazy => exact (notLoop body quantifier isLazy rfl).elim
    | _ => rfl
  | _ => rfl

/-- Every token of an expression is a step. -/
theorem exists_step_of_build? {tokens : List Token} {regex : Regex}
    (built : build? current outer (token :: tokens) = some regex) :
    ∃ next around, Step current outer token next around := by
  cases token with
  | char test => exact ⟨_, _, .char current outer test⟩
  | bar => exact ⟨_, _, .bar current outer⟩
  | opening => exact ⟨_, _, .opening current outer⟩
  | closing =>
    cases outer with
    | nil => cases built
    | cons around outer => exact ⟨_, _, .closing current around outer⟩
  | quantifier quantifier isLazy =>
    obtain ⟨alternatives, pieces⟩ := current
    rw [build?] at built
    split at built
    · cases built
    · cases built
    · rename_i piece pieces notLoop same
      cases same
      exact ⟨_, _, .quantifier alternatives pieces outer quantifier isLazy notLoop⟩

/-- Read a text, given the group that is open and those around it. -/
def readOn (current : OpenGroup) (outer : List OpenGroup) (text : Text) : Option Regex :=
  (tokens? text.length text).bind (build? current outer)

theorem Token.text_ne_nil (token : Token) : token.text ≠ [] := by
  cases token with
  | char test =>
    cases test with
    | literal spelled =>
      simp only [Token.text, CharTest.text, SpelledChar.text]
      split <;> simp
    | ofClass => simp [Token.text, CharTest.text]
  | opening | closing | bar => simp [Token.text]
  | quantifier quantifier => cases quantifier <;> simp [Token.text, Quantifier.text]

/-- A token takes something away. -/
theorem length_lt_of_token? {text rest : Text} (read : token? text = some (token, rest)) :
    rest.length < text.length := by
  have some := List.length_pos_iff.mpr token.text_ne_nil
  rw [(token?_eq_some read).1, List.length_append]
  exact Nat.lt_add_of_pos_left some

/-- Tokens do not depend on how many there could be at most. -/
theorem tokens?_eq {fuel more : Nat} {text : Text} (enough : text.length ≤ fuel)
    (enoughMore : text.length ≤ more) : tokens? fuel text = tokens? more text := by
  induction fuel generalizing more text with
  | zero =>
    cases List.length_eq_zero_iff.mp (Nat.le_zero.mp enough)
    cases more <;> rfl
  | succ fuel ih =>
    cases text with
    | nil => cases more <;> rfl
    | cons c text =>
      cases more with
      | zero => exact absurd enoughMore (Nat.not_succ_le_zero _)
      | succ more =>
        rw [tokens?, tokens?]
        cases read : token? (c :: text) with
        | none => rfl
        | some first =>
          have shorter := Nat.le_of_lt_succ (length_lt_of_token? read)
          simp only [Option.bind_eq_bind, Option.bind_some]
          rw [ih (shorter.trans (Nat.le_of_succ_le_succ enough))
            (shorter.trans (Nat.le_of_succ_le_succ enoughMore))]

/-- To read on is to read a token and then put it together with those that follow. -/
theorem readOn_eq {text rest : Text} (read : token? text = some (token, rest)) :
    readOn current outer text =
      (tokens? rest.length rest).bind fun tokens => build? current outer (token :: tokens) := by
  have shorter := length_lt_of_token? read
  cases text with
  | nil => cases shorter
  | cons c text =>
    rw [readOn, List.length_cons, tokens?, read]
    simp only [Option.bind_eq_bind, Option.bind_some]
    rw [tokens?_eq (Nat.le_of_lt_succ shorter) le_rfl]
    cases tokens? rest.length rest <;> rfl

/-- To read a text is to read on after its first token. -/
theorem Step.readOn_eq {text rest : Text} (step : Step current outer token next around)
    (read : token? text = some (token, rest)) :
    readOn current outer text = readOn next around rest := by
  rw [Regex.readOn_eq read]
  exact congrArg (Option.bind _) (funext fun tokens => step.build?_cons tokens)

/-- What holds where a reading ends, and before a token if it holds after it, holds of every
reading. -/
theorem readOn_induction {regex : Regex} {motive : OpenGroup → List OpenGroup → Text → Prop}
    (ended : ∀ current, current.finished = regex → motive current [] [])
    (token : ∀ {current outer text token rest next around},
      token? text = some (token, rest) → Step current outer token next around →
        motive next around rest → motive current outer text)
    {text : Text} (read : readOn current outer text = some regex) :
    motive current outer text := by
  induction size : text.length using Nat.strongRecOn generalizing current outer text with
  | ind size ih =>
    cases text with
    | nil =>
      cases outer with
      | nil => exact ended current (Option.some.inj read)
      | cons => cases read
    | cons c text =>
      cases found : token? (c :: text) with
      | none => simp [readOn, tokens?, found] at read
      | some first =>
        obtain ⟨first, rest⟩ := first
        have built := read
        rw [Regex.readOn_eq found] at built
        obtain ⟨tokens, -, built⟩ := Option.bind_eq_some_iff.mp built
        obtain ⟨next, around, step⟩ := exists_step_of_build? built
        rw [step.readOn_eq found] at read
        exact token found step (ih _ (size ▸ length_lt_of_token? found) read rfl)

/-! ### What is read is written as it was -/

theorem ofPieces_eq (pieces : List Regex) : ofPieces pieces = pieces.reverse.foldr andThen empty :=
  List.foldr_reverse.symm

theorem text_ofPieces (pieces : List Regex) :
    (ofPieces pieces).text = pieces.reverse.flatMap text := by
  rw [ofPieces_eq]
  induction pieces.reverse with
  | nil => rfl
  | cons piece pieces ih => rw [List.foldr_cons, text_andThen, ih, List.flatMap_cons]

/-- A first alternative stands before the others. -/
theorem oneOf_cons (first : Regex) {regexes : List Regex} (nonempty : regexes ≠ []) :
    oneOf (first :: regexes) = alt first (oneOf regexes) := by
  cases regexes with
  | nil => exact (nonempty rfl).elim
  | cons => rfl

/-- Alternatives are written with bars between them. -/
theorem text_oneOf_concat (regexes : List Regex) (last : Regex) :
    (oneOf (regexes ++ [last])).text =
      regexes.flatMap (fun regex => regex.text ++ ['|']) ++ last.text := by
  induction regexes with
  | nil => rfl
  | cons regex regexes ih =>
    rw [List.cons_append, oneOf_cons regex (List.concat_ne_nil last regexes), text, ih]
    simp

/-- What has been read of a group that is still open. -/
def OpenGroup.text (openGroup : OpenGroup) : Text :=
  openGroup.alternatives.reverse.flatMap (fun regex => regex.text ++ ['|']) ++
    openGroup.pieces.reverse.flatMap Regex.text

/-- A finished group is written as the open one was. -/
theorem OpenGroup.text_finished (openGroup : OpenGroup) :
    openGroup.finished.text = openGroup.text := by
  rw [finished, List.reverse_cons, text_oneOf_concat, text_ofPieces, OpenGroup.text]

theorem OpenGroup.text_withPiece (openGroup : OpenGroup) (piece : Regex) :
    (openGroup.withPiece piece).text = openGroup.text ++ piece.text := by
  simp [OpenGroup.text, withPiece]

/-- What has been read of the groups around. -/
def textAround : List OpenGroup → Text
  | [] => []
  | openGroup :: outer => textAround outer ++ openGroup.text ++ Token.opening.text

/-- After a token, what has been read is what had been read before it and the token. -/
theorem Step.text_eq (step : Step current outer token next around) :
    textAround around ++ next.text = textAround outer ++ current.text ++ token.text := by
  cases step with
  | char | closing =>
    simp [textAround, OpenGroup.text_withPiece, OpenGroup.text_finished, Regex.text, Token.text]
  | bar | opening | quantifier =>
    simp [textAround, OpenGroup.text, text_ofPieces, Regex.text, Token.text]

/-- **An expression is written as the text that it was read from.** -/
theorem text_of_ofWritten? {text : Text} {regex : Regex} (read : ofWritten? text = some regex) :
    regex.text = text := by
  have whole : regex.text = textAround [] ++ OpenGroup.text {} ++ text := by
    refine readOn_induction
      (motive := fun current outer text => regex.text = textAround outer ++ current.text ++ text)
      ?_ ?_ read
    · rintro current rfl
      rw [OpenGroup.text_finished, textAround, List.append_nil, List.nil_append]
    · intro current outer text token rest next around found step whole
      rw [whole, step.text_eq, (token?_eq_some found).1, List.append_assoc]
  exact whole

/-! ### Reading inside of a group -/

/-- Whether no piece of the current alternative is divided by a bar. -/
def OpenGroup.IsUndivided (openGroup : OpenGroup) : Prop :=
  ∀ piece ∈ openGroup.pieces, piece.isUndivided = true

theorem OpenGroup.isUndivided_empty (alternatives : List Regex) :
    OpenGroup.IsUndivided ⟨alternatives, []⟩ := by
  simp [IsUndivided]

theorem OpenGroup.IsUndivided.withPiece {openGroup : OpenGroup} (undivided : openGroup.IsUndivided)
    {piece : Regex} (undividedNext : piece.isUndivided = true) :
    (openGroup.withPiece piece).IsUndivided :=
  List.forall_mem_cons.mpr ⟨undividedNext, undivided⟩

/-- Bars divide alternatives and never a piece. -/
theorem Step.isUndivided (step : Step current outer token next around)
    (undivided : ∀ openGroup ∈ current :: outer, openGroup.IsUndivided) :
    ∀ openGroup ∈ next :: around, openGroup.IsUndivided := by
  obtain ⟨inside, outside⟩ := List.forall_mem_cons.mp undivided
  cases step with
  | char => exact List.forall_mem_cons.mpr ⟨inside.withPiece rfl, outside⟩
  | bar => exact List.forall_mem_cons.mpr ⟨OpenGroup.isUndivided_empty _, outside⟩
  | opening => exact List.forall_mem_cons.mpr ⟨OpenGroup.isUndivided_empty [], undivided⟩
  | closing =>
    obtain ⟨resumed, outside⟩ := List.forall_mem_cons.mp outside
    exact List.forall_mem_cons.mpr ⟨resumed.withPiece rfl, outside⟩
  | quantifier alternatives pieces =>
    have others := (List.forall_mem_cons.mp inside).2
    exact List.forall_mem_cons.mpr ⟨List.forall_mem_cons.mpr ⟨rfl, others⟩, outside⟩

/-- A token does the same if there are more groups around. -/
theorem Step.append (step : Step current outer token next around) (more : List OpenGroup) :
    Step current (outer ++ more) token next (around ++ more) := by
  cases step with
  | char => exact .char ..
  | bar => exact .bar ..
  | opening => exact .opening ..
  | closing => exact .closing ..
  | quantifier alternatives pieces outer quantifier isLazy notLoop =>
    exact .quantifier alternatives pieces _ quantifier isLazy notLoop

/-- Reading a text leads from one open group to another one, whatever is around them and whatever
starts apart from the text. -/
def Leads (text : Text) (current next : OpenGroup) : Prop :=
  ∀ outer after, StartsApart after →
    readOn current outer (text ++ after) = readOn next outer after

/-- Where a text is read to its end, its reading leads to the same end in front of other texts
and inside of other groups. -/
theorem exists_last_of_readOn {text : Text} {regex : Regex}
    (read : readOn current outer text = some regex)
    (undivided : ∀ openGroup ∈ current :: outer, openGroup.IsUndivided) :
    ∃ last : OpenGroup, last.finished = regex ∧ last.IsUndivided ∧
      ∀ more after, StartsApart after →
        readOn current (outer ++ more) (text ++ after) = readOn last more after := by
  revert undivided
  -- More groups around are never closed, as the text closes only groups that it opens itself or
  -- that were open before it.
  refine readOn_induction
    (motive := fun current outer text =>
      (∀ openGroup ∈ current :: outer, openGroup.IsUndivided) →
        ∃ last : OpenGroup, last.finished = regex ∧ last.IsUndivided ∧
          ∀ more after, StartsApart after →
            readOn current (outer ++ more) (text ++ after) = readOn last more after) ?_ ?_ read
  · intro current ended undivided
    exact ⟨current, ended, List.forall_mem_singleton.mp undivided, fun _ _ _ => rfl⟩
  · intro current outer text token rest next around found step later undivided
    obtain ⟨last, ended, lastUndivided, readsOn⟩ := later (step.isUndivided undivided)
    refine ⟨last, ended, lastUndivided, fun more after apart => ?_⟩
    rw [(step.append more).readOn_eq ((token?_eq_some found).2 after apart),
      readsOn more after apart]

/-- An expression that some text is read as. -/
def IsWritten (regex : Regex) : Prop :=
  ∃ text, ofWritten? text = some regex

/-- **A text that is read alone is read in the same way inside of a group.** -/
theorem IsWritten.exists_leads {regex : Regex} (written : regex.IsWritten) :
    ∃ last : OpenGroup, last.finished = regex ∧ last.IsUndivided ∧ Leads regex.text {} last := by
  obtain ⟨text, read⟩ := written
  rw [text_of_ofWritten? read]
  exact exists_last_of_readOn read
    (List.forall_mem_singleton.mpr (OpenGroup.isUndivided_empty []))

/-! ### Groups -/

variable {inner : Regex} {last : OpenGroup}

/-- An opening parenthesis begins a group inside of the current one. -/
theorem readOn_opening (rest : Text) :
    readOn current outer ('(' :: '?' :: ':' :: rest) = readOn {} (current :: outer) rest :=
  (Step.opening current outer).readOn_eq rfl

/-- A closing parenthesis makes the group a piece of the one around it. -/
theorem readOn_closing (current around : OpenGroup) (outer : List OpenGroup) (rest : Text) :
    readOn current (around :: outer) (')' :: rest) =
      readOn (around.withPiece (.group current.finished)) outer rest :=
  (Step.closing current around outer).readOn_eq rfl

/-- A bar finishes an alternative. -/
theorem readOn_bar (rest : Text) :
    readOn current outer ('|' :: rest) =
      readOn ⟨ofPieces current.pieces :: current.alternatives, []⟩ outer rest :=
  (Step.bar current outer).readOn_eq rfl

/-- A group is one more piece, whatever comes after it. -/
theorem Leads.readOn_group (leads : Leads inner.text {} last) (after : Text) :
    readOn current outer ((group inner).text ++ after) =
      readOn (current.withPiece (.group last.finished)) outer after := by
  have whole : (group inner).text ++ after =
      '(' :: '?' :: ':' :: (inner.text ++ ')' :: after) := by
    simp [text]
  rw [whole, readOn_opening, leads _ _ (.closing after), readOn_closing]

/-- A repeated group is one more piece. -/
theorem Leads.loop (leads : Leads inner.text {} last) {quantifier : Quantifier} {mark : Char}
    (marked : quantifier.text = [mark]) (isLazy : Bool) :
    Leads (Regex.loop (group inner) quantifier isLazy).text current
      (current.withPiece (.loop (.group last.finished) quantifier isLazy)) := by
  intro outer after apart
  have whole : (Regex.loop (group inner) quantifier isLazy).text ++ after =
      (group inner).text ++ ((Token.quantifier quantifier isLazy).text ++ after) := by
    simp [text, Token.text]
  have found : token? ((Token.quantifier quantifier isLazy).text ++ after) =
      some (.quantifier quantifier isLazy, after) := by
    cases quantifier with
    | star | plus | optional => cases isLazy <;> cases apart <;> rfl
    | exactly | between => simp [Quantifier.text] at marked
  obtain ⟨alternatives, pieces⟩ := current
  have notLoop : ∀ body quantifier isLazy,
      group last.finished ≠ Regex.loop body quantifier isLazy := by
    simp
  have step := Step.quantifier alternatives pieces outer quantifier isLazy notLoop
  rw [whole, leads.readOn_group, OpenGroup.withPiece, step.readOn_eq found]
  rfl

end UriTemplates.Regex
