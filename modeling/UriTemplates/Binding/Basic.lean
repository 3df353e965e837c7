import UriTemplates.Percent
import UriTemplates.Template.Language
import UriTemplates.Value

/-!
# Bindings of an expression

What the captures of a match say about the values of an expression's variables
(`Expression.bindings`). Captured texts are decoded here. Some captures stem from no
expansion, such as a key that is written twice; then the expression has no bindings at all,
and neither has it if a required variable is missing or empty.
-/

namespace UriTemplates

/-- A value found for one occurrence of a variable. -/
structure Binding where
  /-- The occurrence. -/
  occurrence : Variable
  /-- The value. -/
  value : Value
  deriving DecidableEq

/-- The captured texts of an expression by the position of a variable and a facet. -/
abbrev Evidence := Nat → Facet → Option (List Text)

/-- The captured texts of the expression at a position of a template. -/
def Captures.evidence (captures : Captures Site) (part : Nat) : Evidence :=
  fun index facet => Captures.texts? captures ⟨part, index, facet⟩

/-- A list or a map without any element. -/
def Value.isEmptyComposite : Value → Bool
  | .list items => items.isEmpty
  | .map entries => entries.isEmpty
  | _ => false

namespace Binding

/-- Whether a captured value is what an entry was written as; an empty item may be left
out together with the equals sign. -/
def isWrittenEntry (value key item : Text) : Bool :=
  value = key ++ '=' :: item || (item.isEmpty && value = key)

/-- The entries that captured values stand for, in text order: a value that is not written
as the next key and item is an entry under the name of the variable. -/
def pairedEntries? (name : Text) : (values keys items : List Text) →
    Option (List (Text × Text))
  | [], _, _ => some []
  | value :: values, [], items =>
    (pairedEntries? name values [] items).map ((name, value) :: ·)
  | _ :: _, _ :: _, [] => none
  | value :: values, key :: keys, item :: items =>
    if isWrittenEntry value key item then
      (pairedEntries? name values keys items).map ((key, item) :: ·)
    else
      (pairedEntries? name values (key :: keys) (item :: items)).map ((name, value) :: ·)

/-- The entries of a captured map. Where every value has a key they go together in order;
otherwise some values were written like items of a list. -/
def entries? (name : Text) (values keys items : List Text) : Option (List (Text × Text)) :=
  if values.length = keys.length then
    some (keys.zip items)
  else
    pairedEntries? name values keys items

/-- Put decoded entries into a map, unless a key comes twice. -/
def distinctMap? (entries : List (Text × Text)) : Option (OrderedMap Text Text) :=
  entries.foldlM (fun (map : OrderedMap Text Text) (key, item) =>
    if map.contains (Percent.decode key) then none
    else some (map.insert (Percent.decode key) (Percent.decode item))) .empty

/-- What the captures of an expression say about one variable. -/
inductive Finding where
  /-- They say nothing. -/
  | silent
  /-- They stem from no expansion. -/
  | impossible
  /-- They give a value. -/
  | value (value : Value)

/-- The value of captured entries. -/
def mapFinding (part index : Nat) (v : Variable) (values keys : List Text) :
    Option (List Text) → Except Error Finding
  | none => .error (.keysWithoutItems part index)
  | some items =>
    match entries? v.name values keys items with
    | none => .error .tooFewItems
    | some entries =>
      match distinctMap? entries with
      | none => .ok .impossible
      | some map => .ok (.value (.map map))

/-- Whether hints leave it open that a variable is a text. -/
def mayBeText (hints : Hints) (v : Variable) : Bool :=
  !v.isExploded && !hints.lists.contains v.name && !hints.maps.contains v.name

/-- The value of captured texts without keys. -/
def textsFinding (hints : Hints) (v : Variable) (values : List Text) : Finding :=
  match v.modifier, values with
  | .truncated _, [value] => .value (.text (Percent.decode value))
  | .truncated _, _ => .silent
  | _, [value] =>
    if mayBeText hints v then
      .value (.text (Percent.decode value))
    else
      .value (.list [Percent.decode value])
  | _, values => .value (.list (values.map Percent.decode))

/-- Whether the name of a variable was written more than once although its value is not
written in several items. -/
def isRepeated (operator : Operator) (v : Variable) (names : Option (List Text)) : Bool :=
  operator.isNamed && !v.isExploded && decide (1 < (names.getD []).length)

/-- What captures say about the variable at a position of an expression. -/
def finding (operator : Operator) (part : Nat) (evidence : Evidence) (hints : Hints)
    (index : Nat) (v : Variable) : Except Error Finding :=
  match (evidence index .value).getD [] with
  | [] => .ok .silent
  | value :: values =>
    if isRepeated operator v (evidence index .name) then
      .ok .impossible
    else if v.length?.isSome then
      .ok (textsFinding hints v (value :: values))
    else
      match (evidence index .key).getD [] with
      | [] => .ok (textsFinding hints v (value :: values))
      | key :: keys =>
        mapFinding part index v (value :: values) (key :: keys) (evidence index .item)

/-- Whether what is found meets the requirement of a binding; an empty text is one, but an
empty list or map is none. -/
def satisfies (hints : Hints) (v : Variable) : Finding → Bool
  | .value value => !hints.requires v || !value.isEmptyComposite
  | _ => !hints.requires v

/-- The findings for variables from a position on, up to the first impossible one. -/
def findings? (operator : Operator) (part : Nat) (evidence : Evidence) (hints : Hints)
    (index : Nat) : List Variable → Except Error (Option (List (Variable × Finding)))
  | [] => .ok (some [])
  | v :: rest => do
    match ← finding operator part evidence hints index v with
    | .impossible => return none
    | found =>
      let later ← findings? operator part evidence hints (index + 1) rest
      return later.map ((v, found) :: ·)

/-- The binding of what is found. -/
def ofFinding? : Variable × Finding → Option Binding
  | (v, .value value) => some ⟨v, value⟩
  | _ => none

end Binding

/-- The bindings of a matched expression in order, or nothing if its captures stem from no
expansion or leave a requirement open. -/
def Expression.bindings (expression : Expression) (part : Nat) (evidence : Evidence)
    (hints : Hints) : Except Error (Option (List Binding)) := do
  let found ← Binding.findings? expression.operator part evidence hints 0 expression.occurrences
  return found.bind fun findings =>
    if findings.all fun (v, found) => Binding.satisfies hints v found then
      some (findings.filterMap Binding.ofFinding?)
    else
      none

end UriTemplates
