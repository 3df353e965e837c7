import UriTemplates.Text.Character
import UriTemplates.Error

/-!
# Variables of an expression

A variable as an expression names it: a name, and a modifier that truncates its value to a
number of code points or explodes a composite value into separate items. Names and lengths
are valid by construction. `Variable.parse` reads a specification and `Variable.text`
writes it; `Variable.isSpecification` is the grammar that specifications inside a template
follow, in which a length has no leading zero.
-/

namespace UriTemplates

/-- What an expression does with the value of a variable. -/
inductive Modifier where
  /-- Write the whole value, a composite one in a single item. -/
  | plain
  /-- Write no more than a number of code points of a text. -/
  | truncated (length : Nat)
  /-- Write each element of a composite value as an item of its own. -/
  | exploded
  deriving DecidableEq

/-- The greatest length to which a value can be truncated. -/
def Modifier.greatestLength : Nat := 9999

/-- Whether a modifier truncates, if at all, to an allowed length. -/
def Modifier.isValid : Modifier → Bool
  | .truncated length => 0 < length && length ≤ greatestLength
  | _ => true

/-- A variable as an expression names it. -/
structure Variable where
  /-- The name as written, triplets included. -/
  name : Text
  /-- What becomes of the value. -/
  modifier : Modifier
  /-- The name follows the grammar of names. -/
  name_valid : Text.isVariableName name = true
  /-- The modifier has an allowed length. -/
  modifier_valid : modifier.isValid = true
  deriving DecidableEq

namespace Variable

/-- The number of code points that a value is truncated to. -/
def length? (v : Variable) : Option Nat :=
  match v.modifier with
  | .truncated length => some length
  | _ => none

/-- Whether composite values are written as separate items. -/
def isExploded (v : Variable) : Bool :=
  v.modifier = .exploded

/-- The length that a modifier truncates to, if it does. -/
def modifierLength : Modifier → Nat
  | .truncated length => length
  | _ => 0

/-- A variable with a name and a modifier. -/
def ofModifier (name : Text) (modifier : Modifier) : Except Error Variable :=
  if name.isEmpty then
    .error (.malformed .emptyName)
  else if name_valid : Text.isVariableName name = true then
    if modifier_valid : modifier.isValid = true then
      .ok ⟨name, modifier, name_valid, modifier_valid⟩
    else
      .error (.malformed (.lengthOutOfRange name (modifierLength modifier)))
  else
    .error (.malformed (.invalidName name))

/-- A variable from a name, a length, if there is one, and whether it is exploded. -/
def ofParts (name : Text) (length : Option Int) (exploded : Bool) : Except Error Variable :=
  match length with
  | none => ofModifier name (if exploded then .exploded else .plain)
  | some length =>
    match ofModifier name .plain with
    | .error error => .error error
    | .ok _ =>
      if exploded then
        .error (.malformed (.truncatedAndExploded name))
      else if length < 0 then
        .error (.malformed (.lengthOutOfRange name length))
      else
        ofModifier name (.truncated length.toNat)

/-- Read a specification: a name, alone or followed by `*` or by `:` and a length. -/
def parse (specification : Text) : Except Error Variable :=
  if specification.isEmpty then
    .error (.malformed .emptySpecification)
  else if specification.getLast? = some '*' then
    let name := specification.dropLast
    if name.contains ':' then
      .error (.malformed (.unreadableModifier specification))
    else
      ofModifier name .exploded
  else
    match Text.cut ':' specification with
    | (name, none) => ofModifier name .plain
    | (name, some digits) =>
      if digits.isEmpty || !digits.all Char.isDigit then
        .error (.malformed (.unreadableModifier specification))
      else if Text.greatestDigits < digits.length then
        .error (.tooManyDigits digits.length)
      else
        ofModifier name (.truncated (Text.digitsNumber digits))

/-- The specification of a variable. -/
def text (v : Variable) : Text :=
  match v.modifier with
  | .plain => v.name
  | .truncated length => v.name ++ ':' :: Nat.toDigits 10 length
  | .exploded => v.name ++ ['*']

/-- Whether a text is a length as templates write it: one to four digits, the first of
which is not zero. -/
def isLength : Text → Bool
  | [] => false
  | first :: more => first != '0' && (first :: more).all Char.isDigit && more.length < 4

/-- Whether what follows a name is a modifier. -/
def isModifier : Text → Bool
  | [] => true
  | ['*'] => true
  | ':' :: length => isLength length
  | _ => false

/-- Whether a text is a variable specification of a template. -/
def isSpecification (text : Text) : Bool :=
  Text.isVariableName (text.takeWhile fun c => c != ':' && c != '*') &&
    isModifier (text.dropWhile fun c => c != ':' && c != '*')

end Variable

end UriTemplates
