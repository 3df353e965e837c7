import UriTemplates.Text.Basic

/-!
# Characters of URI templates

The character classes of RFC 3986 and RFC 6570, and the two texts built from them that a
template holds outside its operators: literal text (`isLiteral`) and variable names
(`isVariableName`). A percent sign is in no class: it only occurs as the start of a
triplet `%HH`. `literalRun` measures the literal text that a text starts with.
-/

namespace UriTemplates.Text

/-- ASCII letters, digits, and the four marks that a URI never needs to encode. -/
def isUnreserved (c : Char) : Bool :=
  c.isAlphanum || ['-', '.', '_', '~'].contains c

/-- The delimiters of RFC 3986. -/
def isReserved (c : Char) : Bool :=
  [':', '/', '?', '#', '[', ']', '@', '!', '$', '&', '\x27', '(', ')', '*', '+', ',', ';',
    '='].contains c

/-- The value of a hexadecimal digit in either case. -/
def hexValue? (c : Char) : Option Nat :=
  if '0' ≤ c ∧ c ≤ '9' then
    some (c.toNat - '0'.toNat)
  else if 'a' ≤ c ∧ c ≤ 'f' then
    some (c.toNat - 'a'.toNat + 10)
  else if 'A' ≤ c ∧ c ≤ 'F' then
    some (c.toNat - 'A'.toNat + 10)
  else
    none

/-- The hexadecimal digits, in either case. -/
def isHexDigit (c : Char) : Bool :=
  (hexValue? c).isSome

/-- The number that decimal digits write. -/
def digitsNumber (digits : Text) : Nat :=
  digits.foldl (fun number c => number * 10 + (c.toNat - '0'.toNat)) 0

/-- The greatest number of digits that a number can be read from. -/
def greatestDigits : Nat := 4300

/-- The characters of a variable name besides triplets and inner dots. -/
def isNameChar (c : Char) : Bool :=
  c.isAlphanum || c == '_'

/-- The code points that stand for themselves in literal text, as closed ranges. -/
def literalRanges : List (Nat × Nat) :=
  [(0x21, 0x21), (0x23, 0x24), (0x26, 0x26), (0x28, 0x3b), (0x3d, 0x3d), (0x3f, 0x5b),
    (0x5d, 0x5d), (0x5f, 0x5f), (0x61, 0x7a), (0x7e, 0x7e),
    (0xa0, 0xd7ff), (0xf900, 0xfdcf), (0xfdf0, 0xffef),
    (0x10000, 0x1fffd), (0x20000, 0x2fffd), (0x30000, 0x3fffd), (0x40000, 0x4fffd),
    (0x50000, 0x5fffd), (0x60000, 0x6fffd), (0x70000, 0x7fffd), (0x80000, 0x8fffd),
    (0x90000, 0x9fffd), (0xa0000, 0xafffd), (0xb0000, 0xbfffd), (0xc0000, 0xcfffd),
    (0xd0000, 0xdfffd), (0xe1000, 0xefffd),
    (0xe000, 0xf8ff), (0xf0000, 0xffffd), (0x100000, 0x10fffd)]

/-- Whether a character stands for itself in literal text. -/
def isLiteralChar (c : Char) : Bool :=
  literalRanges.any fun (first, last) => first ≤ c.toNat && c.toNat ≤ last

/-- Whether a text is made of literal characters and percent triplets. -/
def isLiteral : Text → Bool
  | [] => true
  | '%' :: high :: low :: rest => isHexDigit high && isHexDigit low && isLiteral rest
  | c :: rest => isLiteralChar c && isLiteral rest

/-- The length of the literal text that a text starts with, triplets counted whole. -/
def literalRun : Text → Nat
  | [] => 0
  | '%' :: high :: low :: rest =>
    if isHexDigit high && isHexDigit low then literalRun rest + 3 else 0
  | c :: rest => if isLiteralChar c then literalRun rest + 1 else 0

/-- Whether what follows in a variable name completes it; `afterChar` says that a name
character or triplet came just before, which a dot and the end both need. -/
def completesName (afterChar : Bool) : Text → Bool
  | [] => afterChar
  | '.' :: rest => afterChar && completesName false rest
  | '%' :: high :: low :: rest => isHexDigit high && isHexDigit low && completesName true rest
  | c :: rest => isNameChar c && completesName true rest

/-- Whether a text is a variable name: name characters and triplets, with single dots
between them. -/
def isVariableName (text : Text) : Bool :=
  completesName false text

end UriTemplates.Text
