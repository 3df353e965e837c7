import UriTemplates.Datum
import UriTemplates.Error

/-!
# Hints

What a caller says in advance about a match: which variables it must bind, and which of
them are lists or maps. A set of names is kept in order and without repetitions, so equal
sets are equal lists.
-/

namespace UriTemplates

/-- A set of variable names, in order of their code points. -/
abbrev NameSet := List Text

namespace NameSet

/-- Add a name to a set. -/
def insert (name : Text) : NameSet → NameSet
  | [] => [name]
  | first :: rest =>
    if name = first then first :: rest
    else if name < first then name :: first :: rest
    else first :: insert name rest

/-- The set of the names of a list. -/
def ofNames (names : List Text) : NameSet :=
  names.foldr insert []

/-- A name from a datum: a text or UTF-8 bytes, and not empty. -/
def name? : Datum → Option Text
  | .text text => if text.isEmpty then none else some text
  | .bytes bytes => (Utf8.decode? bytes).bind fun text => if text.isEmpty then none else some text
  | _ => none

/-- The items of a collection; a text or a mapping is none. -/
def items? : Datum → Option (List Datum)
  | .list items => some items
  | .tuple items => some items
  | .set items => some items
  | _ => none

/-- The set of names that a datum gives. -/
def ofDatum (datum : Datum) : Except Error NameSet :=
  match (items? datum).bind fun items => items.mapM name? with
  | some names => .ok (ofNames names)
  | none => .error .invalidNames

end NameSet

/-- What is known in advance about the variables of a match. -/
structure Hints where
  /-- The variables that must be bound. -/
  required : NameSet := []
  /-- The variables that are lists. -/
  lists : NameSet := []
  /-- The variables that are maps. -/
  maps : NameSet := []
  deriving DecidableEq

/-- The hints that three collections give. -/
def Hints.ofData (required lists maps : Datum) : Except Error Hints := do
  let required ← NameSet.ofDatum required
  let lists ← NameSet.ofDatum lists
  let maps ← NameSet.ofDatum maps
  return { required, lists, maps }

end UriTemplates
