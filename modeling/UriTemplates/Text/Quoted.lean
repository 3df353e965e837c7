import UriTemplates.Text.Basic
import UriTemplates.Text.Printable

/-!
# Quoted texts

How a text is shown inside a message: between single quotes, or between double quotes if
it holds a single quote and no double quote. A backslash and the quote mark itself are
written with a backslash before them, line feed, carriage return and tab as `\n`, `\r`
and `\t`, and any other character without a printed form by its code point in two, four
or eight lowercase hexadecimal digits.
-/

namespace UriTemplates.Text

/-- The single quote. -/
def singleQuote : Char := '\x27'

/-- The double quote. -/
def doubleQuote : Char := '\x22'

/-- The mark that encloses a text: a single quote unless only double quotes spare the
text an escape. -/
def quoteMark (text : Text) : Char :=
  if text.contains singleQuote && !text.contains doubleQuote then doubleQuote else singleQuote

/-- A number in lowercase hexadecimal with at least the given number of digits. -/
def hexDigits (width number : Nat) : Text :=
  let digits := Nat.toDigits 16 number
  List.replicate (width - digits.length) '0' ++ digits

/-- A character by its code point, in the shortest of the three forms that can hold it. -/
def escapedByCode (c : Char) : Text :=
  let code := c.toNat
  if code < 0x100 then
    '\\' :: 'x' :: hexDigits 2 code
  else if code < 0x10000 then
    '\\' :: 'u' :: hexDigits 4 code
  else
    '\\' :: 'U' :: hexDigits 8 code

/-- A character as it is written between the given quote marks. -/
def quotedChar (mark c : Char) : Text :=
  if c = '\\' ∨ c = mark then
    ['\\', c]
  else if c = '\n' then
    ['\\', 'n']
  else if c = '\r' then
    ['\\', 'r']
  else if c = '\t' then
    ['\\', 't']
  else if isPrintable c then
    [c]
  else
    escapedByCode c

/-- A text between quote marks, with every character that cannot stand for itself
escaped. -/
def quoted (text : Text) : Text :=
  let mark := quoteMark text
  mark :: text.flatMap (quotedChar mark) ++ [mark]

end UriTemplates.Text
