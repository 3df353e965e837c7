import UriTemplates.Binding.Merged
import UriTemplates.Expansion
import UriTemplates.Pattern.Capture
import UriTemplates.Reference.Resolution
import UriTemplates.Template.Parse

/-!
# Matching

The other direction of expansion: the values with which a template would expand to a URI
reference. The pattern of the template is matched against the whole reference
(`Template.capture`), the captures of each expression give its bindings, and the bindings
of all expressions are put together by name (`Template.bindingsFrom`). No match is not an
error.
-/

namespace UriTemplates

/-- The values with which a template matches. -/
structure Match where
  /-- The template. -/
  template : Template
  /-- The bindings by name. -/
  bindings : Bindings
  deriving DecidableEq

namespace Match

/-- The value bound to a name. -/
def value? (found : Match) (name : Text) : Option Value :=
  (found.bindings.get? name).map Binding.value

/-- The value bound to a name, which must have one. -/
def value (found : Match) (name : Text) : Except Error Value :=
  match found.value? name with
  | some value => .ok value
  | none => .error (.unbound name)

/-- The entries of a mapping as messages show them. -/
def describeEntries (entries : List (Text × String)) : String :=
  String.join ["\x7b", ", ".intercalate (entries.map fun (key, item) =>
    String.join [key.quoted.toString, ": ", item]), "\x7d"]

/-- A value as messages show it. -/
def describeValue : Value → String
  | .undefined => "None"
  | .text text => text.quoted.toString
  | .list items =>
    String.join ["[", ", ".intercalate (items.map fun item => item.quoted.toString), "]"]
  | .map entries => describeEntries (entries.entries.map fun (key, item) =>
      (key, item.quoted.toString))

/-- A match as messages show it. -/
def description (found : Match) : String :=
  String.join
    ["MatchResult(template=", found.template.text.quoted.toString, ", values=",
      describeEntries (found.bindings.entries.map fun (name, binding) =>
        (name, describeValue binding.value)), ")"]

end Match

namespace Template

/-- The captures of a template's pattern in a URI reference. -/
def capture (template : Template) (hints : Hints) (uri : Text) :
    Except Error (Option (Captures Site)) := do
  let pattern ← template.pattern hints
  pattern.captures? uri

/-- The bindings of all expressions among parts from a position on, or nothing if one of
them has none. -/
def bindingsFrom (captures : Captures Site) (hints : Hints) (index : Nat) :
    List Part → Except Error (Option (List Binding))
  | [] => .ok (some [])
  | .literal _ :: parts => bindingsFrom captures hints (index + 1) parts
  | .expression part :: parts => do
    match ← part.bindings index (captures.evidence index) hints with
    | none => return none
    | some bindings =>
      let later ← bindingsFrom captures hints (index + 1) parts
      return later.map (bindings ++ ·)

/-- The match that captures give. -/
def ofCaptures (template : Template) (hints : Hints) :
    Option (Captures Site) → Except Error (Option Match)
  | none => .ok none
  | some captures => do
    match ← bindingsFrom captures hints 0 template.parts with
    | none => return none
    | some bindings =>
      let merged ← Bindings.ofList bindings
      return some ⟨template, merged⟩

/-- Match a URI reference with a pattern of the template. -/
def matchWith (template : Template) (pattern : Pattern Site) (hints : Hints) (uri : Text) :
    Except Error (Option Match) := do
  let captures ← pattern.captures? uri
  template.ofCaptures hints captures

/-- Match a URI reference. -/
def match? (template : Template) (hints : Hints) (uri : Text) :
    Except Error (Option Match) := do
  let pattern ← template.pattern hints
  template.matchWith pattern hints uri

/-- Match a URI after making it relative to a base. -/
def matchAgainst? (template : Template) (hints : Hints) (base uri : Text) :
    Except Error (Option Match) := do
  let relative ← Reference.relativeTo base uri
  template.match? hints relative

end Template

end UriTemplates
