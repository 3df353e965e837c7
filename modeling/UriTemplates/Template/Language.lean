import UriTemplates.Hints
import UriTemplates.Pattern.Basic
import UriTemplates.Template.Basic

/-!
# The language of a template

The pattern that the expansions of a template match (`Template.pattern`). Where hints do
not say what a variable is, every shape is an alternative: a text before a list before a
map. Captured texts are kept by site: the expression, the variable, and the facet of the
variable that the text shows.
-/

namespace UriTemplates

/-- What a captured text shows of its variable. -/
inductive Facet where
  /-- A whole text, an item of a list, or a whole entry of a map. -/
  | value
  /-- The key of an entry. -/
  | key
  /-- What an entry holds under its key. -/
  | item
  /-- The name of the variable, where names are written. -/
  | name
  deriving DecidableEq

/-- Where a captured text belongs. -/
structure Site where
  /-- The position of the part in the template. -/
  part : Nat
  /-- The position of the variable in its expression. -/
  index : Nat
  /-- What the text shows of the variable. -/
  facet : Facet
  deriving DecidableEq

/-- The forms that the value of a variable may have. -/
structure Forms where
  /-- It may be a text. -/
  text : Bool
  /-- It may be a list. -/
  list : Bool
  /-- It may be a map. -/
  map : Bool

/-- The forms that hints leave to a variable. An exploded variable is never a text. -/
def Hints.forms (hints : Hints) (v : Variable) : Forms :=
  let asList := hints.lists.contains v.name
  let asMap := hints.maps.contains v.name
  { text := !v.isExploded && !asList && !asMap
    list := asList || !asMap
    map := asMap || !asList }

/-- Whether a variable must be bound. -/
def Hints.requires (hints : Hints) (v : Variable) : Bool :=
  hints.required.contains v.name

namespace Regex

/-- A range of characters as a member of a class. -/
def span (first last : Char) : ClassMember :=
  .range ⟨first, false⟩ ⟨last, false⟩

/-- A character as a member of a class. -/
def member (c : Char) : ClassMember :=
  .one ⟨c, false⟩

/-- A class of characters. -/
def class_ (members : List ClassMember) : Regex :=
  .char (.ofClass false members)

/-- A hexadecimal digit. -/
def hexDigit : Regex :=
  class_ [span 'a' 'f', span 'A' 'F', span '0' '9']

/-- An unreserved character. -/
def unreserved : Regex :=
  class_ [span 'a' 'z', span 'A' 'Z', span '0' '9', member '.', member '_', member '~',
    member '-']

/-- A reserved character. -/
def reserved : Regex :=
  class_ ([':', '/', '?', '#', '[', ']', '@', '!', '$', '&', '\x27', '(', ')', '*', '+', ',',
    ';', '='].map member)

/-- A percent sign and what follows it. -/
def percent (digits : List Regex) : Regex :=
  spliceAll (ofChar '%' :: digits)

/-- A triplet of a byte that continues a UTF-8 sequence. -/
def continuationTriplet : Regex :=
  percent [class_ [member '8', member '9', member 'a', member 'b', member 'A', member 'B'],
    hexDigit]

/-- The triplets of one code point, by the number of bytes that the first one announces. -/
def encodedCodePoint : Regex :=
  oneOf
    [percent [class_ [span '0' '7'], hexDigit],
      (percent [class_ [member 'c', member 'd', member 'C', member 'D'], hexDigit]).splice
        continuationTriplet,
      (percent [class_ [member 'e', member 'E'], hexDigit]).splice
        (.loop (.group continuationTriplet) (.exactly (.ofNat 2)) false),
      (percent [class_ [member 'f', member 'F'], class_ [span '0' '7']]).splice
        (.loop (.group continuationTriplet) (.exactly (.ofNat 3)) false)]

/-- A character that a value can be written with: an unreserved one, a triplet, or, where
an expression lets them through, a reserved one. -/
def valueChar (allowReserved : Bool) : Regex :=
  .group (oneOf ([unreserved, .group (percent [hexDigit, hexDigit])] ++
    if allowReserved then [reserved] else []))

/-- A code point as values are written. -/
def codePoint (allowReserved : Bool) : Regex :=
  .group (oneOf ([unreserved, .group encodedCodePoint] ++
    if allowReserved then [reserved] else []))

end Regex

namespace Pattern

variable {κ : Type}

/-- The pattern of one text. -/
def literal (text : Text) : Pattern κ :=
  plain (Regex.ofText text)

/-- The pattern of the empty text. -/
def nothing : Pattern κ :=
  plain .empty

/-- A choice among options; a single option needs no choice. -/
def amongst : List (Pattern κ) → Pattern κ
  | [only] => only
  | options => choice options

/-- A choice between further elements that need not follow. -/
def elements (element : Pattern κ) (separator : Char) (isLazy requiresMore : Bool) :
    Pattern κ :=
  repeated element (Regex.ofText [separator]) isLazy requiresMore

end Pattern

namespace Operator

/-- Whether runs of characters are as short as possible: where values are not written
after a name, and their characters could be taken for separators. -/
def prefersShort : Operator → Bool
  | reserved => true
  | fragment => true
  | label => true
  | path => true
  | _ => false

/-- Any number of characters of a value. -/
def chars (operator : Operator) : Pattern Site :=
  .plain (.loop (Regex.valueChar operator.allowsReserved) .star operator.prefersShort)

/-- At least one character of a value. -/
def someChars (operator : Operator) : Pattern Site :=
  .plain (.loop (Regex.valueChar operator.allowsReserved) .plus operator.prefersShort)

/-- A number of code points between two bounds. -/
def codePoints (operator : Operator) (least most : Nat) : Pattern Site :=
  .plain (.loop (Regex.codePoint operator.allowsReserved) (.ofBounds least most) false)

end Operator

/-- A variable at its place in a template, with the forms that its value may have. -/
structure Field where
  /-- The position of its expression in the template. -/
  part : Nat
  /-- Its position in the expression. -/
  index : Nat
  /-- The operator of the expression. -/
  operator : Operator
  /-- The variable. -/
  occurrence : Variable
  /-- The forms that hints leave to it. -/
  forms : Forms
  /-- Whether hints require a binding. -/
  isRequired : Bool

namespace Field

/-- A pattern whose text shows a facet of a field. -/
def capture (field : Field) (facet : Facet) (inner : Pattern Site) : Pattern Site :=
  .capture ⟨field.part, field.index, facet⟩ inner

/-- Characters that show a facet of a field. -/
def captureChars (field : Field) (facet : Facet) : Pattern Site :=
  field.capture facet field.operator.chars

/-- At least one character that shows a facet of a field. -/
def captureSome (field : Field) (facet : Facet) : Pattern Site :=
  field.capture facet field.operator.someChars

/-- An empty text that shows a facet of a field. -/
def captureEmpty (field : Field) (facet : Facet) : Pattern Site :=
  field.capture facet .nothing

/-- The name of a field. -/
def writtenName (field : Field) : Pattern Site :=
  field.capture .name (.literal field.occurrence.name)

/-- The options of the forms that a field may have, a text first and a map last. -/
def options (field : Field) (text list map : Pattern Site) : Pattern Site :=
  .amongst ((if field.forms.text then [text] else []) ++
    (if field.forms.list then [list] else []) ++ (if field.forms.map then [map] else []))

/-- An entry of a map: a key and an item with a character between them. -/
def entry (field : Field) (between : Char) : Pattern Site :=
  field.capture .value
    (.seq [field.captureChars .key, .literal [between], field.captureChars .item])

/-- The entries of a map that is not exploded. -/
def flatEntries (field : Field) : Pattern Site :=
  .elements (field.entry ',') ',' true false

/-- The value of a field in an expression that writes no names. -/
def unnamed (field : Field) : Pattern Site :=
  match field.occurrence.modifier with
  | .truncated length => field.capture .value (field.operator.codePoints 0 length)
  | .exploded =>
    let separator := field.operator.separator
    field.options (field.captureChars .value)
      (.elements (field.captureChars .value) separator true false)
      (.elements (field.entry '=') separator true false)
  | .plain =>
    field.options (field.captureChars .value)
      (.elements (field.captureChars .value) ',' true false) field.flatEntries

/-- A field with its name in a query, where an equals sign always follows the name. -/
def queryItem (field : Field) : Pattern Site :=
  match field.occurrence.modifier with
  | .truncated length =>
    .seq [field.writtenName, .literal ['='],
      field.capture .value (field.operator.codePoints 0 length)]
  | .exploded =>
    let text := .seq [field.writtenName, .literal ['='], field.captureChars .value]
    field.options text text (field.entry '=')
  | .plain =>
    field.options (.seq [field.writtenName, .literal ['='], field.captureChars .value])
      (.seq [field.writtenName, .literal ['='],
        .elements (field.captureChars .value) ',' true false])
      (.seq [field.writtenName, .literal ['='], field.flatEntries])

/-- A text that follows the name of a path parameter: an equals sign is only written
before a text that is not empty. -/
def parameterText (field : Field) : Pattern Site :=
  .seq [.literal ['='], field.captureSome .value]

/-- The key and the item of an entry that is a path parameter of its own. -/
def parameterEntry (field : Field) : Pattern Site :=
  field.capture .value
    (.seq [field.captureChars .key,
      .choice [.seq [.literal ['='], field.captureSome .item], field.captureEmpty .item]])

/-- A field with its name among path parameters. -/
def parameterItem (field : Field) : Pattern Site :=
  let text := .seq [field.writtenName,
    .choice [field.parameterText, field.captureEmpty .value]]
  match field.occurrence.modifier with
  | .truncated length =>
    .seq [field.writtenName,
      .choice [.seq [.literal ['='], field.capture .value (field.operator.codePoints 1 length)],
        field.captureEmpty .value]]
  | .exploded => field.options text text field.parameterEntry
  | .plain =>
    field.options text
      (.seq [field.writtenName,
        .choice [field.parameterText,
          .seq [.literal ['='], .elements (field.captureChars .value) ',' true true],
          field.captureEmpty .value]])
      (.seq [field.writtenName,
        .choice [.seq [.literal ['='], field.flatEntries], field.captureEmpty .value]])

/-- A field with its name. -/
def named (field : Field) : Pattern Site :=
  if field.operator = .parameter then field.parameterItem else field.queryItem

/-- At least one of the fields in order, with commas between them; a required field is
never left out. -/
def someOf : List Field → Pattern Site
  | [] => .nothing
  | [last] => last.unnamed
  | field :: rest =>
    let others := someOf rest
    if field.isRequired then
      .seq [field.unnamed, .optional (.seq [.literal [','], others]) false]
    else
      .choice [.seq [field.unnamed, .literal [','], others], field.unnamed, others]

/-- A field after the character that introduces it; one that is not required may be left
out. -/
def segment (field : Field) : Pattern Site :=
  let written := .seq [.literal field.operator.symbol, field.unnamed]
  if field.isRequired then written else .optional written false

end Field

namespace Expression

/-- The fields of an expression at a position of a template. -/
def fields (expression : Expression) (part : Nat) (hints : Hints) : List Field :=
  expression.occurrences.mapIdx fun index v =>
    { part, index, operator := expression.operator, occurrence := v,
      forms := hints.forms v, isRequired := hints.requires v }

/-- The pattern of an expression by its fields. -/
def patternOf (operator : Operator) (fields : List Field) : Pattern Site :=
  match operator with
  | .simple => .optional (Field.someOf fields) false
  | .reserved => .optional (Field.someOf fields) false
  | .fragment => .optional (.seq [.literal ['#'], Field.someOf fields]) false
  | .label => .seq (fields.map Field.segment)
  | .path => .seq (fields.map Field.segment)
  | _ =>
    .optional (.seq [.literal operator.first,
      .elements (.amongst (fields.map Field.named)) operator.separator false false]) false

/-- The hint that contradicts the truncation of a variable, if there is one. -/
def contradiction? (hints : Hints) (v : Variable) : Option Error :=
  if v.length?.isNone then none
  else if hints.lists.contains v.name then some (.truncatedDeclared v.name .list)
  else if hints.maps.contains v.name then some (.truncatedDeclared v.name .map)
  else none

/-- The pattern of an expression at a position of a template. -/
def pattern (expression : Expression) (part : Nat) (hints : Hints) :
    Except Error (Pattern Site) :=
  match expression.occurrences.findSome? (contradiction? hints) with
  | some error => .error error
  | none => .ok (patternOf expression.operator (expression.fields part hints))

end Expression

/-- The pattern of a part at a position of a template. -/
def Part.pattern (part : Part) (index : Nat) (hints : Hints) : Except Error (Pattern Site) :=
  match part with
  | .literal part => .ok (.literal part.text)
  | .expression part => part.pattern index hints

/-- The patterns of parts from a position on. -/
def Part.patterns (index : Nat) (hints : Hints) : List Part → Except Error (List (Pattern Site))
  | [] => .ok []
  | part :: parts => do
    let first ← part.pattern index hints
    let rest ← patterns (index + 1) hints parts
    return first :: rest

/-- The pattern of a template: those of its parts in order. -/
def Template.pattern (template : Template) (hints : Hints) : Except Error (Pattern Site) :=
  (Part.patterns 0 hints template.parts).map .seq

end UriTemplates
