import UriTemplates.Matching

/-!
# Routers

A router maps templates to values and finds the value for a URI. Templates without
expressions are compared with the URI as texts and come first; templates with expressions
are tried in the order in which they were added. Each template stands under its own text.
-/

namespace UriTemplates

/-- Templates with values. -/
structure Router (α : Type) where
  /-- The templates without expressions, by their texts. -/
  fixed : OrderedMap Text (Template × α) := .empty
  /-- The templates with expressions, by their texts. -/
  patterned : OrderedMap Text (Template × α) := .empty

/-- What a router finds for a URI. -/
structure Route (α : Type) where
  /-- The value of the template that matches. -/
  value : α
  /-- The match. -/
  found : Match

namespace Router

variable {α : Type}

/-- Whether a template has no variables. -/
def isFixed (template : Template) : Bool :=
  template.variableNames.isEmpty

/-- The number of templates. -/
def size (router : Router α) : Nat :=
  router.fixed.size + router.patterned.size

/-- Whether a template with a text is present. -/
def contains (router : Router α) (text : Text) : Bool :=
  router.fixed.contains text || router.patterned.contains text

/-- Add a template with its value, in the place of a template that is written the same. -/
def add (router : Router α) (template : Template) (value : α) : Router α :=
  if isFixed template then
    { router with fixed := router.fixed.insert template.text (template, value) }
  else
    { router with patterned := router.patterned.insert template.text (template, value) }

/-- Whether adding a template replaces the value of a template. -/
def replaces (router : Router α) (template : Template) : Bool :=
  if isFixed template then
    router.fixed.contains template.text
  else
    router.patterned.contains template.text

/-- The wording of a replacement. -/
def replacementMessage (template : Template) : String :=
  String.join ["Replacing the value registered for template ", template.text.quoted.toString]

/-- Take out the template with a text. -/
def remove (router : Router α) (text : Text) : Except Error (Router α) :=
  if router.fixed.contains text then
    .ok { router with fixed := router.fixed.erase text }
  else if router.patterned.contains text then
    .ok { router with patterned := router.patterned.erase text }
  else
    .error (.unknownTemplate text)

/-- The templates with their values, those without expressions first. -/
def entries (router : Router α) : List (Template × α) :=
  router.fixed.entries.map Prod.snd ++ router.patterned.entries.map Prod.snd

/-- The templates, those without expressions first. -/
def templates (router : Router α) : List Template :=
  router.entries.map Prod.fst

/-- The first of the templates that matches a URI. -/
def firstMatch (required lists maps : Datum) (uri : Text) :
    List (Template × α) → Except Error (Option (Route α))
  | [] => .ok none
  | (template, value) :: rest => do
    let hints ← Hints.ofData required lists maps
    match ← template.match? hints uri with
    | some found => return some ⟨value, found⟩
    | none => firstMatch required lists maps uri rest

/-- The value for a URI. Hints only concern templates with expressions and are read for
each one that is tried. -/
def resolve (router : Router α) (required lists maps : Datum) (uri : Text) :
    Except Error (Option (Route α)) :=
  match router.fixed.get? uri with
  | some (template, value) => .ok (some ⟨value, ⟨template, .empty⟩⟩)
  | none => firstMatch required lists maps uri (router.patterned.entries.map Prod.snd)

end Router

end UriTemplates
