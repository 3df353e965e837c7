import UriTemplates.Binding.Basic

/-!
# Bindings by name

A variable can occur several times in a template, truncated to different lengths, but it
has one value. `Bindings.add` compares a new binding with the one that is kept for its
name: equal lengths need equal values, and of different lengths the value of the shorter
one must begin the value of the longer one, which is kept. No length counts as the longest.
-/

namespace UriTemplates

/-- One binding for each name, in order of first occurrence. -/
abbrev Bindings := OrderedMap Text Binding

/-- A kept binding that gave way to another one. -/
structure Replacement where
  /-- The occurrence that was kept so far. -/
  old : Variable
  /-- The occurrence that is kept instead. -/
  new : Variable
  deriving DecidableEq

/-- The wording of a replacement. -/
def Replacement.message (replacement : Replacement) : String :=
  String.join
    ["Replacing binding of '", replacement.new.name.toString, "' matched through '",
      replacement.old.text.toString, "' with the one matched through '",
      replacement.new.text.toString, "'"]

namespace Bindings

/-- Whether a first length is greater than a second one, where no length is the
greatest. -/
def isLonger : Option Nat → Option Nat → Bool
  | none, some _ => true
  | some first, some second => second < first
  | _, none => false

/-- Of two bindings of one name the one to be kept, if they do not contradict each
other. -/
def keep? (old new : Binding) : Option Binding :=
  if old.occurrence.length? = new.occurrence.length? then
    if old.value.same new.value then some old else none
  else
    match old.value, new.value with
    | .text oldText, .text newText =>
      if isLonger old.occurrence.length? new.occurrence.length? then
        if newText.isPrefixOf oldText then some old else none
      else
        if oldText.isPrefixOf newText then some new else none
    | _, _ => none

/-- Add a binding, which takes the place of its name. -/
def add (bindings : Bindings) (binding : Binding) : Except Error Bindings :=
  match bindings.get? binding.occurrence.name with
  | none => .ok (bindings.insert binding.occurrence.name binding)
  | some old =>
    match keep? old binding with
    | none => .error (.inconsistentBinding binding.occurrence.name)
    | some kept => .ok (bindings.insert binding.occurrence.name kept)

/-- The bindings of all occurrences by name. -/
def ofList (bindings : List Binding) : Except Error Bindings :=
  bindings.foldlM add .empty

/-- The replacement that adding a binding makes, if any: a longer occurrence of a name
replaces a shorter one. -/
def replacement? (bindings : Bindings) (binding : Binding) : Option Replacement :=
  (bindings.get? binding.occurrence.name).bind fun old =>
    if isLonger binding.occurrence.length? old.occurrence.length? then
      some ⟨old.occurrence, binding.occurrence⟩
    else
      none

/-- The replacements that adding bindings one after the other makes. -/
def replacements (bindings : Bindings) : List Binding → List Replacement
  | [] => []
  | binding :: rest =>
    match bindings.add binding with
    | .error _ => []
    | .ok added => (bindings.replacement? binding).toList ++ replacements added rest

/-- The values by name. -/
def values (bindings : Bindings) : Environment :=
  bindings.mapValues Binding.value

end Bindings

end UriTemplates
