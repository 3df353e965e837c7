import UriTemplates.Percent
import UriTemplates.Template.Basic
import UriTemplates.Value

/-!
# Expansion

How a template becomes a URI reference. Each variable of an expression contributes a text
or nothing (`Operator.contribution`): undefined variables and empty lists and maps leave no
trace. The contributions follow the first text of the operator with its separator between
them, and the parts of a template follow each other.
-/

namespace UriTemplates

namespace Operator

/-- A text of an expression together with the name it belongs to, if names are
written. -/
def withName (operator : Operator) (name text : Text) : Text :=
  if operator.isNamed then
    if text.isEmpty then name ++ operator.emptySuffix else name ++ '=' :: text
  else
    text

/-- A text as an expression writes it. -/
def encode (operator : Operator) (text : Text) : Text :=
  Percent.encode operator.allowsReserved text

/-- What a text contributes to an expression. -/
def textContribution (operator : Operator) (v : Variable) (text : Text) : Text :=
  let kept := match v.length? with
    | some length => text.take length
    | none => text
  operator.withName v.name (operator.encode kept)

/-- What the items of a list contribute to an expression. -/
def listContribution (operator : Operator) (v : Variable) (items : List Text) : Text :=
  let encoded := items.map operator.encode
  if v.isExploded then
    Text.joined operator.separator (encoded.map (operator.withName v.name))
  else
    operator.withName v.name (Text.joined ',' encoded)

/-- An entry of an exploded map: its key takes the place of the name. -/
def entryContribution (operator : Operator) (key item : Text) : Text :=
  if operator.isNamed then operator.withName key item else key ++ '=' :: item

/-- What the entries of a map contribute to an expression. -/
def mapContribution (operator : Operator) (v : Variable) (entries : List (Text × Text)) :
    Text :=
  let encoded := entries.map fun (key, item) => (operator.encode key, operator.encode item)
  if v.isExploded then
    Text.joined operator.separator
      (encoded.map fun (key, item) => operator.entryContribution key item)
  else
    operator.withName v.name
      (Text.joined ',' (encoded.map fun (key, item) => key ++ ',' :: item))

/-- What a variable with a value contributes to an expression, if anything. A list or a
map has no code points that a truncation could count, not even an empty one. -/
def contribution (operator : Operator) (v : Variable) : Value → Except Error (Option Text)
  | .undefined => .ok none
  | .text text => .ok (some (operator.textContribution v text))
  | .list items =>
    if v.length?.isSome then .error (.truncatedComposite v.name)
    else if items.isEmpty then .ok none
    else .ok (some (operator.listContribution v items))
  | .map map =>
    if v.length?.isSome then .error (.truncatedComposite v.name)
    else if map.isEmpty then .ok none
    else .ok (some (operator.mapContribution v map.entries))

/-- The contributions of an expression's variables, put together. -/
def assemble (operator : Operator) (contributions : List Text) : Text :=
  if contributions.isEmpty then
    []
  else
    operator.first ++ Text.joined operator.separator contributions

end Operator

/-- Expand an expression. -/
def Expression.expand (environment : Environment) (expression : Expression) :
    Except Error Text := do
  let contributions ← expression.occurrences.mapM fun v =>
    expression.operator.contribution v (environment.value v.name)
  return expression.operator.assemble (contributions.filterMap id)

/-- Expand a part of a template. -/
def Part.expand (environment : Environment) : Part → Except Error Text
  | .literal part => .ok part.text
  | .expression part => part.expand environment

/-- Expand a template. -/
def Template.expand (template : Template) (environment : Environment) : Except Error Text := do
  let texts ← template.parts.mapM (Part.expand environment)
  return texts.flatten

/-- Expand a template with the values of a mapping, all of which must be values even if
the template does not use them. -/
def Template.expandData (template : Template) (pairs : List (Datum × Datum)) :
    Except Error Text := do
  let environment ← Environment.ofPairs pairs
  template.expand environment

end UriTemplates
