import UriTemplates.Error
import UriTemplates.Pattern.Basic

/-!
# Captures of a match

Whether a pattern matches a whole text is decided by its regular expression alone. What it
captured is then found one level at a time (`Pattern.capturesIn`): the span of a node is
matched again against that node, only to see how the span is divided among the node's
children. A repetition is taken apart from its front, element by element
(`Pattern.elementSpans`). The continuation after a span does not depend on how the span
was read, so each level finds again the division of the first reading. Only a separator
with alternatives at its top level breaks this, for they divide what is written around the
separator: then an element may have no part in the match (`Pattern.capturesOfAbsent`), or
there is no division and the span is lost.
-/

namespace UriTemplates.Pattern

variable {κ : Type}

/-- A repetition taken apart: its first element and the repetition after the first
separator, where there are such. -/
structure Division where
  /-- The span of the first element. -/
  head : Option Text
  /-- The span of the remaining repetition. -/
  rest : Option Text

/-- A repetition with no required further element, as the remainder of another one. -/
def remainder (element separator : Regex) (isLazy : Bool) : Regex :=
  element.andThen (moreElements element separator isLazy false)

/-- A whole text as the remainder of a repetition, from a place on. -/
def asRemainder? (head : Option Text) (remainder : Regex) (cursor : Cursor) : Option Division :=
  remainder.search cursor fun ended =>
    if ended.left = 0 then some ⟨head, some (cursor.textTo ended)⟩ else none

/-- The ways on after the first element of a repetition. An alternative of the separator
that no element follows ends the repetition. -/
def afterElement? (head : Option Text) (separator remainder : Regex) (cursor : Cursor) :
    Option Division :=
  let (ending, last) := separator.alternatives
  (ending.findSome? fun alternative =>
    alternative.search cursor fun ended =>
      if ended.left = 0 then some ⟨head, none⟩ else none).orElse fun _ =>
    last.search cursor fun later => asRemainder? head remainder later

/-- Take the first element off a repetition that may have no other one. -/
def firstElement? (element separator : Regex) (isLazy : Bool) (span : Text) :
    Option Division :=
  let start := Cursor.start span
  element.search start fun cursor =>
    let head := start.textTo cursor
    let stop : Option Division := if cursor.left = 0 then some ⟨some head, none⟩ else none
    let more := fun (_ : Unit) =>
      afterElement? (some head) separator (remainder element separator isLazy) cursor
    if isLazy then stop.orElse more else (more ()).orElse fun _ => stop

/-- Take the first element off a repetition that has another one. Alternatives of the
separator divide what is written: the first is preceded by an element, and the last is
followed by the remaining repetition. -/
def firstOfSeveral? (element separator : Regex) (isLazy : Bool) (span : Text) :
    Option Division :=
  let start := Cursor.start span
  let rest := remainder element separator isLazy
  match separator.alternatives with
  | ([], only) =>
    element.search start fun cursor =>
      only.search cursor fun later => asRemainder? (some (start.textTo cursor)) rest later
  | (first :: middle, last) =>
    let fromFirst := element.search start fun cursor =>
      first.search cursor fun ended =>
        if ended.left = 0 then some ⟨some (start.textTo cursor), none⟩ else none
    let fromMiddle := fun (_ : Unit) =>
      if middle.any (·.isMatch span) then some (⟨none, none⟩ : Division) else none
    (fromFirst.orElse fromMiddle).orElse fun _ =>
      last.search start fun later => asRemainder? none rest later

/-- A group with a name, as it is written. -/
def named (name : Text) (regex : Regex) : Text :=
  ['(', '?', 'P', '<', '_'] ++ name ++ '>' :: regex.text ++ [')']

/-- Groups that are named by consecutive numbers, as they are written. -/
def numbered (number : Nat) : List Regex → List Text
  | [] => []
  | regex :: rest => named (Nat.toDigits 10 number) regex :: numbered (number + 1) rest

/-- How taking the first element off a repetition is written. -/
def firstElementText (element separator : Regex) (isLazy : Bool) : Text :=
  named ['h'] element ++ ['(', '?', ':'] ++ separator.text ++
    named ['t'] (remainder element separator isLazy) ++ [')', '?'] ++
    (if isLazy then ['?'] else [])

/-- How taking the first element off a repetition that has another one is written: without
a group, so alternatives of the separator divide all of it. -/
def firstOfSeveralText (element separator : Regex) (isLazy : Bool) : Text :=
  named ['h'] element ++ separator.text ++ named ['t'] (remainder element separator isLazy)

/-- How the division of a node's span among the node's children is written. -/
def divisionText : Pattern κ → Text
  | seq nodes => (numbered 0 (groups nodes)).flatten
  | choice options => Text.joined '|' (numbered 0 (groups options))
  | optional inner isLazy => named ['0'] inner.regex ++ '?' :: if isLazy then ['?'] else []
  | pattern => pattern.regex.text

/-- The spans of the elements of a repetition, without a required further element, up to
a place where no element can be taken off. What is left gets shorter with every
separator. -/
def laterSpans (element separator : Regex) (isLazy : Bool) (span : Text) :
    List (Except Error (Option Text)) :=
  match firstElement? element separator isLazy span with
  | none => [.error (.lostSpan (firstElementText element separator isLazy) span)]
  | some ⟨head, none⟩ => [.ok head]
  | some ⟨head, some rest⟩ =>
    if _shorter : rest.length < span.length then
      .ok head :: laterSpans element separator isLazy rest
    else
      [.ok head, .error (.lostSpan (firstElementText element separator isLazy) rest)]
termination_by span.length

/-- The spans of the elements of a repetition, up to a place where no element can be taken
off. An element that took no part in the match has no span. -/
def elementSpans (element separator : Regex) (isLazy requiresMore : Bool) (span : Text) :
    List (Except Error (Option Text)) :=
  if requiresMore then
    match firstOfSeveral? element separator isLazy span with
    | none => [.error (.lostSpan (firstOfSeveralText element separator isLazy) span)]
    | some ⟨head, none⟩ => [.ok head]
    | some ⟨head, some rest⟩ => .ok head :: laterSpans element separator isLazy rest
  else
    laterSpans element separator isLazy span

/-- The captures of a node that took no part in a match: they have no spans. What is
captured in a repetition is not even looked for, and nothing else can be divided. -/
def capturesOfAbsent : Pattern κ → Except Error (Captures κ)
  | plain _ => .ok []
  | capture key inner => inner.capturesOfAbsent.map ((key, none) :: ·)
  | seq [only] => only.capturesOfAbsent
  | seq _ => .error .absentSpan
  | choice _ => .error .absentSpan
  | optional _ _ => .error .absentSpan
  | repeated _ _ _ _ => .ok []

/-- The captures of an element of a repetition, given those of an element with a span and
those of one without. -/
def capturesOfElement (inSpan : Text → Except Error (Captures κ))
    (ofAbsent : Except Error (Captures κ)) :
    Except Error (Option Text) → Except Error (Captures κ)
  | .ok (some span) => inSpan span
  | .ok none => ofAbsent
  | .error error => .error error

mutual

/-- The captures of a node in the span that it matched. -/
def capturesIn : Pattern κ → Text → Except Error (Captures κ)
  | plain _, _ => .ok []
  | capture key inner, span => (inner.capturesIn span).map ((key, some span) :: ·)
  | seq [only], span => only.capturesIn span
  | seq nodes, span =>
    match Regex.spans? (groups nodes) (Cursor.start span) with
    | some spans => capturesInOrder nodes spans
    | none => .error (.lostSpan (divisionText (seq nodes)) span)
  | choice options, span =>
    if options.isEmpty && span.isEmpty then
      .ok []
    else
      capturesOfChosen (divisionText (choice options)) options span
  | optional inner isLazy, span =>
    if isLazy && span.isEmpty then
      .ok []
    else if inner.regex.isMatch span then
      inner.capturesIn span
    else if span.isEmpty then
      .ok []
    else
      .error (.lostSpan (divisionText (optional inner isLazy)) span)
  | repeated element separator isLazy requiresMore, span =>
    ((elementSpans element.regex separator isLazy requiresMore span).mapM
      (capturesOfElement element.capturesIn element.capturesOfAbsent)).map List.flatten

/-- The captures of nodes in spans one after the other. -/
def capturesInOrder : List (Pattern κ) → List Text → Except Error (Captures κ)
  | node :: nodes, span :: spans => do
    let captures ← node.capturesIn span
    let later ← capturesInOrder nodes spans
    return captures ++ later
  | _, _ => .ok []

/-- The captures of the first option that matches a span. -/
def capturesOfChosen (division : Text) : List (Pattern κ) → Text → Except Error (Captures κ)
  | [], span => .error (.lostSpan division span)
  | option :: options, span =>
    if option.regex.isMatch span then
      option.capturesIn span
    else
      capturesOfChosen division options span

end

/-- Match a whole text: the captures in text order, or nothing if the pattern does not
match. -/
def captures? (pattern : Pattern κ) (text : Text) : Except Error (Option (Captures κ)) :=
  if pattern.regex.isMatch text then (pattern.capturesIn text).map some else .ok none

/-- A repetition with at least a number of further elements, which is none or one. -/
def ofRepetition (element : Pattern κ) (separator : Regex) (isLazy : Bool) (least : Int) :
    Except Error (Pattern κ) :=
  if least = 0 then .ok (repeated element separator isLazy false)
  else if least = 1 then .ok (repeated element separator isLazy true)
  else .error (.leastRepetitions least)

end UriTemplates.Pattern
