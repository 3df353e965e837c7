import UriTemplates.Error

/-!
# Operators

The eight kinds of expression, each with the character that selects it and the rules by
which it writes its variables. `Operator.ofText?` reads an operator and `Operator.symbol`
writes it. Five more characters are set aside for future use (`isSetAside`).
-/

namespace UriTemplates

/-- The kinds of expression. -/
inductive Operator where
  /-- Values separated by commas. -/
  | simple
  /-- Values separated by commas, with reserved characters left as they are. -/
  | reserved
  /-- A fragment: values after a number sign, with reserved characters left as they are. -/
  | fragment
  /-- Labels: a dot before every value. -/
  | label
  /-- Path segments: a slash before every value. -/
  | path
  /-- Path parameters: a semicolon before every named value. -/
  | parameter
  /-- A query: named values after a question mark, separated by ampersands. -/
  | query
  /-- The continuation of a query: an ampersand before every named value. -/
  | continuation
  deriving DecidableEq

namespace Operator

/-- The text that selects the kind of an expression: one character or none. -/
def symbol : Operator → Text
  | simple => []
  | reserved => ['+']
  | fragment => ['#']
  | label => ['.']
  | path => ['/']
  | parameter => [';']
  | query => ['?']
  | continuation => ['&']

/-- All operators. -/
def all : List Operator :=
  [simple, reserved, fragment, label, path, parameter, query, continuation]

/-- The operator with a symbol. -/
def ofText? (text : Text) : Option Operator :=
  all.find? fun operator => operator.symbol = text

/-- The characters that are set aside for future operators. -/
def isSetAside (c : Char) : Bool :=
  ['=', ',', '!', '@', '|'].contains c

/-- The characters that can stand where an expression has its operator. -/
def isSymbol (c : Char) : Bool :=
  (ofText? [c]).isSome || isSetAside c

/-- What is written before the first variable that contributes. -/
def first : Operator → Text
  | simple => []
  | reserved => []
  | fragment => ['#']
  | label => ['.']
  | path => ['/']
  | parameter => [';']
  | query => ['?']
  | continuation => ['&']

/-- What is written between variables that contribute, and between exploded items. -/
def separator : Operator → Char
  | simple => ','
  | reserved => ','
  | fragment => ','
  | label => '.'
  | path => '/'
  | parameter => ';'
  | query => '&'
  | continuation => '&'

/-- Whether values are written after the name of their variable. -/
def isNamed : Operator → Bool
  | parameter => true
  | query => true
  | continuation => true
  | _ => false

/-- What follows the name of a variable whose value is empty. -/
def emptySuffix : Operator → Text
  | query => ['=']
  | continuation => ['=']
  | _ => []

/-- Whether reserved characters are left as they are. -/
def allowsReserved : Operator → Bool
  | reserved => true
  | fragment => true
  | _ => false

end Operator

end UriTemplates
