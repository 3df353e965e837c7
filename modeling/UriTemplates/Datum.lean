import UriTemplates.Decimal.Shortest
import UriTemplates.Text.Utf8

/-!
# Data

The values that callers hand in before they are checked: scalars, collections and
mappings of any nesting, and values of no supported kind. A mapping is built by putting
its pairs in order (`Datum.merged`); keys that are the same number are the same key,
whether they are whole, fractional or truth values.
-/

namespace UriTemplates

/-- A value handed in by a caller. -/
inductive Datum where
  /-- No value. -/
  | nothing
  /-- A truth value. -/
  | truth (value : Bool)
  /-- A text. -/
  | text (text : Text)
  /-- A whole number. -/
  | whole (number : Int)
  /-- A number of double precision. -/
  | double (number : Double)
  /-- Bytes. -/
  | bytes (bytes : List UInt8)
  /-- A list. -/
  | list (items : List Datum)
  /-- A sequence of fixed length. -/
  | tuple (items : List Datum)
  /-- An unordered collection. -/
  | set (items : List Datum)
  /-- A mapping, by its pairs in order. -/
  | mapping (pairs : List (Datum × Datum))
  /-- A value of no supported kind. -/
  | unsupported

namespace Datum

instance : Inhabited Datum :=
  ⟨nothing⟩

/-- The layout of numbers in values: plain from 0.0001 on and below 10^16, and otherwise
with an exponent of at least two digits. -/
def numberLayout : Decimal.Layout :=
  { leastPlain := -4, greatestPlain := 15, exponentWidth := 2 }

/-- The decimal text of a whole number, however many digits it takes. Only the reading of
numbers is limited (`Text.greatestDigits`); that a number of a caller may have too many
digits to be written is left out. -/
def wholeText (number : Int) : Text :=
  (if number < 0 then ['-'] else []) ++ Nat.toDigits 10 number.natAbs

/-- The finite number that a value is, as numerator and denominator. -/
def ratio? : Datum → Option (Int × Nat)
  | truth value => some (if value then 1 else 0, 1)
  | whole number => some (number, 1)
  | double number => number.ratio?
  | _ => none

mutual

/-- Whether two values are the same key of a mapping: the same number, text, bytes or
infinity, or sequences of the same keys. -/
def sameKey : Datum → Datum → Bool
  | nothing, nothing => true
  | text first, text second => first = second
  | bytes first, bytes second => first = second
  | tuple first, tuple second => sameKeys first second
  | double (.infinite first), double (.infinite second) => first = second
  | first, second =>
    match first.ratio?, second.ratio? with
    | some (a, b), some (c, d) => a * d = c * b
    | _, _ => false

/-- Whether two sequences are the same key. -/
def sameKeys : List Datum → List Datum → Bool
  | [], [] => true
  | first :: more, second :: others => sameKey first second && sameKeys more others
  | _, _ => false

end

/-- Put a value under a key: in the place of the same key, which stays as it was first
written, or at the end. -/
def put (key value : Datum) : List (Datum × Datum) → List (Datum × Datum)
  | [] => [(key, value)]
  | (other, old) :: rest =>
    if sameKey other key then (other, value) :: rest else (other, old) :: put key value rest

/-- The pairs of the mapping that results from putting pairs in order. -/
def merged (pairs : List (Datum × Datum)) : List (Datum × Datum) :=
  pairs.foldl (fun pairs (key, value) => put key value pairs) []

/-- The mapping that results from putting pairs in order. -/
def ofPairs (pairs : List (Datum × Datum)) : Datum :=
  mapping (merged pairs)

/-- The name of a value's kind, as it appears in messages. -/
def kind : Datum → String
  | nothing => "NoneType"
  | truth _ => "bool"
  | text _ => "str"
  | whole _ => "int"
  | double _ => "float"
  | bytes _ => "bytes"
  | list _ => "list"
  | tuple _ => "tuple"
  | set _ => "set"
  | mapping _ => "dict"
  | unsupported => "object"

/-- The kind of a value that cannot be a key once fixed sequences have become lists. -/
def kindAsKey? : Datum → Option String
  | tuple _ => some "list"
  | list items => some (list items).kind
  | set items => some (set items).kind
  | mapping pairs => some (mapping pairs).kind
  | _ => none

mutual

/-- The kind of the first collection that is a key of a mapping within a value, at any
depth. -/
def collectionKey? : Datum → Option String
  | list items => collectionKeyAmong? items
  | tuple items => collectionKeyAmong? items
  | set items => collectionKeyAmong? items
  | mapping pairs => collectionKeyInPairs? pairs
  | _ => none

/-- The kind of the first collection that is a key within values. -/
def collectionKeyAmong? : List Datum → Option String
  | [] => none
  | item :: items => item.collectionKey? <|> collectionKeyAmong? items

/-- The kind of the first collection that is a key of a mapping with some pairs, or within
them. -/
def collectionKeyInPairs? : List (Datum × Datum) → Option String
  | [] => none
  | (key, item) :: pairs =>
    key.collectionKey? <|> item.collectionKey? <|> key.kindAsKey? <|> collectionKeyInPairs? pairs

end

end Datum

end UriTemplates
