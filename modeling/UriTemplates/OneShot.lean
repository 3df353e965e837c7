import UriTemplates.Matching

/-!
# One call

A template given by its text and used for a single call: does a URI reference match it,
which values does it give, and what does it expand to.
-/

namespace UriTemplates.OneShot

/-- Whether a URI reference matches a template. -/
def isMatch (uri template : Text) : Except Error Bool := do
  let template ← Template.parse template
  let found ← template.match? {} uri
  return found.isSome

/-- The values with which a template matches a URI reference; without a match there are
none. -/
def values (uri template : Text) : Except Error Environment := do
  let template ← Template.parse template
  match ← template.match? {} uri with
  | some found => return found.bindings.values
  | none => return .empty

/-- The name under which the template stands among the arguments of an expansion. -/
def templateName : Text :=
  ['t', 'e', 'm', 'p', 'l', 'a', 't', 'e']

/-- Whether a datum is the name of the template. -/
def isTemplateName : Datum → Bool
  | .text name => name = templateName
  | _ => false

/-- The expansion of a template with the values of a mapping. The template is an argument
with a name like the values, so none of them can have that name. -/
def expand (template : Text) (pairs : List (Datum × Datum)) : Except Error Text := do
  if pairs.any fun (name, _) => isTemplateName name then
    throw .templateTwice
  let template ← Template.parse template
  template.expandData pairs

end UriTemplates.OneShot
