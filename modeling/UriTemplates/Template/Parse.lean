import UriTemplates.Datum
import UriTemplates.Template.Basic

/-!
# Reading templates

A template is read in two steps. `Segment.scan` finds the well-formed expressions from
left to right; whatever lies between two of them is a gap, so every brace that belongs to
no expression is in a gap. `Template.parse` then reads the segments in order: a gap must be
literal text, and the operator of an expression must not be set aside. The segments of a
text concatenate back to it (`Segment.text_scan`).
-/

namespace UriTemplates

/-- A stretch of a template. -/
inductive Segment where
  /-- A stretch outside all well-formed expressions. -/
  | gap (text : Text)
  /-- A well-formed expression: its operator, if it has one, and its specifications. -/
  | expression (operator : Option Char) (specifications : List Text)

namespace Segment

/-- A segment as it is written. -/
def text : Segment → Text
  | gap text => text
  | expression operator specifications =>
    '\x7b' :: operator.toList ++ Text.joined ',' specifications ++ ['\x7d']

/-- Whether a character is a brace. -/
def isBrace (c : Char) : Bool :=
  c == '\x7b' || c == '\x7d'

/-- What stands between two braces, taken apart into operator and specifications. -/
def ofInner (inner : Text) : Segment :=
  match inner with
  | [] => expression none (Text.fields ',' [])
  | c :: rest =>
    if Operator.isSymbol c then
      expression (some c) (Text.fields ',' rest)
    else
      expression none (Text.fields ',' (c :: rest))

/-- Whether all specifications of a segment follow their grammar. -/
def isWellFormed : Segment → Bool
  | gap _ => true
  | expression _ specifications => specifications.all Variable.isSpecification

/-- The well-formed expression whose opening brace has just been read, and what follows
it. -/
def expression? (text : Text) : Option (Segment × Text) :=
  match text.dropWhile (!isBrace ·) with
  | [] => none
  | brace :: rest =>
    if brace = '\x7d' ∧ (ofInner (text.takeWhile (!isBrace ·))).isWellFormed then
      some (ofInner (text.takeWhile (!isBrace ·)), rest)
    else
      none

/-- An expression takes at least its closing brace. -/
theorem length_expression?_lt {text rest : Text} {segment : Segment}
    (found : expression? text = some (segment, rest)) : rest.length < text.length := by
  unfold expression? at found
  split at found
  · simp at found
  · rename_i brace after dropped
    have shorter : after.length < (text.dropWhile (!isBrace ·)).length := by
      rw [dropped]; exact Nat.lt_succ_self _
    have dropped_le : (text.dropWhile (!isBrace ·)).length ≤ text.length :=
      (List.dropWhile_sublist _).length_le
    split at found
    · simp only [Option.some.injEq, Prod.mk.injEq] at found
      obtain ⟨-, same⟩ := found
      subst same
      omega
    · simp at found

/-- Put a character in front of the first gap, which starts here if an expression does. -/
def withChar (c : Char) : List Segment → List Segment
  | gap text :: rest => gap (c :: text) :: rest
  | segments => gap [c] :: segments

/-- The segments of a text, from left to right. -/
def scan : Text → List Segment
  | [] => []
  | c :: rest =>
    if c = '\x7b' then
      match _found : expression? rest with
      | some (segment, after) => segment :: scan after
      | none => withChar c (scan rest)
    else
      withChar c (scan rest)
termination_by text => text.length
decreasing_by
  · exact Nat.lt_succ_of_lt (length_expression?_lt _found)
  · exact Nat.lt_succ_self _
  · exact Nat.lt_succ_self _

/-- A segment made of what stands between two braces is written as just that. -/
theorem text_ofInner (inner : Text) :
    (ofInner inner).text = '\x7b' :: inner ++ ['\x7d'] := by
  unfold ofInner
  split
  · rfl
  · split <;> simp [text, Text.joined_fields]

/-- An expression and what follows it are written as the text they were found in. -/
theorem text_expression? {text rest : Text} {segment : Segment}
    (found : expression? text = some (segment, rest)) :
    segment.text ++ rest = '\x7b' :: text := by
  unfold expression? at found
  split at found
  · simp at found
  · rename_i brace after dropped
    split at found
    · rename_i closing
      simp only [Option.some.injEq, Prod.mk.injEq] at found
      obtain ⟨same, rfl⟩ := found
      have whole := List.takeWhile_append_dropWhile (p := (!isBrace ·)) (l := text)
      rw [dropped, closing.1] at whole
      rw [← same, text_ofInner]
      simpa using whole
    · simp at found

/-- A character in front of segments is in front of their texts. -/
theorem text_withChar (c : Char) (segments : List Segment) :
    (withChar c segments).flatMap text = c :: segments.flatMap text := by
  cases segments with
  | nil => rfl
  | cons segment rest => cases segment <;> rfl

/-- The segments of a text concatenate back to it. -/
theorem text_scan (whole : Text) : (scan whole).flatMap text = whole := by
  fun_induction scan whole with
  | case1 => rfl
  | case2 rest segment after found ih =>
    rw [List.flatMap_cons, ih, text_expression? found]
  | case3 rest found ih => rw [text_withChar, ih]
  | case4 c rest other ih => rw [text_withChar, ih]

end Segment

/-- Literal text of a template, from an offset on. A brace is the more telling fault, so
the first one is named before anything else that may not stand there. -/
def Literal.ofGap (template : Text) (start : Nat) (text : Text) : Except Error Literal :=
  match Literal.ofText text with
  | .ok literal => .ok literal
  | .error cause =>
    match text.findIdx? Segment.isBrace with
    | some brace => .error (.malformed (.strayBrace template (start + brace)))
    | none =>
      match cause with
      | .invalidLiteral text offset =>
        .error (.malformed (.invalidLiteralAt template start text offset))
      | cause => .error (.malformed cause)

/-- An expression with its operator and specifications. -/
def Expression.ofSpecifications (operator : Operator) (specifications : List Text) :
    Except Error Expression := do
  let occurrences ← specifications.mapM Variable.parse
  (Expression.ofVariables operator occurrences).mapError .malformed

/-- The part that a segment stands for, which starts at an offset of a template. -/
def Part.ofSegment (template : Text) (start : Nat) (segment : Segment) : Except Error Part :=
  match segment with
  | .gap text => (Literal.ofGap template start text).map .literal
  | .expression symbol specifications =>
    match Operator.ofText? symbol.toList with
    | some operator => (Expression.ofSpecifications operator specifications).map .expression
    | none =>
      match symbol with
      | some reserved => .error (.reservedOperator reserved segment.text start)
      | none => .error (.unknownOperator [])

/-- The parts that segments stand for, the first of which starts at an offset of a
template. -/
def Part.ofSegments (template : Text) (start : Nat) : List Segment → Except Error (List Part)
  | [] => .ok []
  | segment :: rest => do
    let part ← Part.ofSegment template start segment
    let parts ← ofSegments template (start + segment.text.length) rest
    return part :: parts

namespace Template

/-- Read a template. -/
def parse (text : Text) : Except Error Template :=
  (Part.ofSegments text 0 (Segment.scan text)).map Template.mk

/-- Read a template that is given by a datum, which must be a text. -/
def ofDatum : Datum → Except Error Template
  | .text text => parse text
  | datum => .error (.notText datum.kind)

end Template

end UriTemplates
