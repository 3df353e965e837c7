import UriTemplates.Operator
import UriTemplates.Variable

/-!
# Templates

A template is a sequence of parts: literal text, which every expansion copies, and
expressions, which are expanded from the values of their variables. Literal text is valid
and an expression names a variable by construction, and `Template.text` writes a template
down. Two templates are equal if they are written the same.
-/

namespace UriTemplates

/-- Literal text of a template. -/
structure Literal where
  /-- The text. -/
  text : Text
  /-- The text is made of literal characters and triplets. -/
  valid : Text.isLiteral text = true
  deriving DecidableEq

/-- The literal part with a text. -/
def Literal.ofText (text : Text) : Except Malformation Literal :=
  if valid : Text.isLiteral text = true then
    .ok ⟨text, valid⟩
  else
    .error (.invalidLiteral text (Text.literalRun text))

/-- An expression of a template. -/
structure Expression where
  /-- The kind of the expression. -/
  operator : Operator
  /-- The variables in order. -/
  occurrences : List Variable
  /-- There is a variable. -/
  nonempty : occurrences ≠ []
  deriving DecidableEq

namespace Expression

/-- The expression of a kind with the given variables. -/
def ofVariables (operator : Operator) (occurrences : List Variable) :
    Except Malformation Expression :=
  if nonempty : occurrences ≠ [] then
    .ok ⟨operator, occurrences, nonempty⟩
  else
    .error .noVariables

/-- An expression as it is written. -/
def text (expression : Expression) : Text :=
  '\x7b' :: expression.operator.symbol ++
    Text.joined ',' (expression.occurrences.map Variable.text) ++ ['\x7d']

end Expression

/-- A part of a template. -/
inductive Part where
  /-- Literal text. -/
  | literal (literal : Literal)
  /-- An expression. -/
  | expression (expression : Expression)
  deriving DecidableEq

namespace Part

/-- A part as it is written. -/
def text : Part → Text
  | literal part => part.text
  | expression part => part.text

/-- The expression that a part is. -/
def expression? : Part → Option Expression
  | literal _ => none
  | expression part => some part

/-- The variables of a part. -/
def occurrences : Part → List Variable
  | literal _ => []
  | expression part => part.occurrences

end Part

/-- A template: its parts in order. -/
structure Template where
  /-- The parts. -/
  parts : List Part
  deriving DecidableEq

namespace Template

/-- A template as it is written. -/
def text (template : Template) : Text :=
  template.parts.flatMap Part.text

/-- All occurrences of variables in order. -/
def occurrences (template : Template) : List Variable :=
  template.parts.flatMap Part.occurrences

/-- The names of a list without later repetitions. -/
def firstUses : List Text → List Text
  | [] => []
  | name :: rest => name :: (firstUses rest).filter (· ≠ name)

/-- The names of the variables, in order of first use. -/
def variableNames (template : Template) : List Text :=
  firstUses (template.occurrences.map Variable.name)

/-- Whether two templates are written the same. -/
def isWrittenLike (first second : Template) : Bool :=
  first.text = second.text

/-- A template as messages show it. -/
def description (template : Template) : String :=
  String.join ["UriTemplate(", template.text.quoted.toString, ")"]

end Template

end UriTemplates
