import UriTemplates.Datum
import UriTemplates.Error
import UriTemplates.OrderedMap

/-!
# Values and environments

The values that templates work with: undefined, a text, a list of texts, or an ordered map
from texts to texts. `Value.ofDatum?` turns a caller's datum into a value: truth values are
written `true` and `false`, numbers by their decimal text and bytes as UTF-8, and whatever
is nested deeper is refused. `Environment.ofPairs` does so for every variable, used or not.
-/

namespace UriTemplates

/-- The value of a variable. -/
inductive Value where
  /-- The variable has no value and contributes nothing. -/
  | undefined
  /-- A scalar, as text. -/
  | text (text : Text)
  /-- An ordered list of texts. -/
  | list (items : List Text)
  /-- An ordered map from texts to texts. -/
  | map (entries : OrderedMap Text Text)
  deriving DecidableEq

namespace Value

/-- Whether two values are equal; the order of the entries of a map does not matter. -/
def same : Value → Value → Bool
  | .map first, .map second => first.sameEntries second
  | first, second => first = second

/-- The text of a scalar datum; a whole number is written whatever its size
(`Datum.wholeText`). -/
def scalarText? : Datum → Option Text
  | .text written => some written
  | .whole number => some (Datum.wholeText number)
  | .double number => some (number.toText Datum.numberLayout)
  | .bytes bytes => Utf8.decode? bytes
  | _ => none

/-- A truth value in words; every other datum is left alone. -/
def spelledOut : Datum → Datum
  | .truth true => .text ['t', 'r', 'u', 'e']
  | .truth false => .text ['f', 'a', 'l', 's', 'e']
  | datum => datum

/-- A pair of texts from a pair of scalar data. -/
def entry? : Datum × Datum → Option (Text × Text)
  | (key, item) => do
    let key ← scalarText? key
    let item ← scalarText? item
    return (key, item)

/-- The list of the texts of scalar data. -/
def listOf? (items : List Datum) : Option Value :=
  (items.mapM fun item => scalarText? (spelledOut item)).map .list

/-- The map of the pairs of a mapping. Keys meet twice: first as data, once truth values
are spelled out, and then as texts. -/
def mapOf? (pairs : List (Datum × Datum)) : Option Value :=
  let spelled := Datum.merged (pairs.map fun (key, item) => (spelledOut key, spelledOut item))
  (spelled.mapM entry?).map fun entries => .map (OrderedMap.ofList entries)

/-- The value of a datum. -/
def ofDatum? : Datum → Option Value
  | .nothing => some .undefined
  | .list items => listOf? items
  | .tuple items => listOf? items
  | .set items => listOf? items
  | .mapping pairs => mapOf? pairs
  | datum => (scalarText? (spelledOut datum)).map .text

end Value

/-- The values of variables by name. -/
abbrev Environment := OrderedMap Text Value

namespace Environment

/-- The value of a variable. -/
def value (environment : Environment) (name : Text) : Value :=
  (environment.get? name).getD .undefined

/-- A variable and its value from a pair of data; a truth value is no name. -/
def binding? : Datum × Datum → Option (Text × Value)
  | (name, datum) => do
    let name ← Value.scalarText? name
    let value ← Value.ofDatum? datum
    return (name, value)

/-- The environment of the pairs of a mapping: names meet as texts, and a later value
replaces an earlier one. A collection as a key within any value is found before all else
that is invalid. -/
def ofPairs (pairs : List (Datum × Datum)) : Except Error Environment :=
  let merged := Datum.merged pairs
  match merged.findSome? fun (_, datum) => datum.collectionKey? with
  | some kind => .error (.collectionKey kind)
  | none =>
    match merged.mapM binding? with
    | some bindings => .ok (OrderedMap.ofList bindings)
    | none => .error .invalidValue

end Environment

end UriTemplates
