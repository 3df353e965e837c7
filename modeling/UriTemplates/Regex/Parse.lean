import UriTemplates.Regex.Basic
import UriTemplates.Text.Character

/-!
# Reading regular expressions

A regular expression is read from its text in two steps: `Regex.tokens?` cuts the text into
tokens, and `Regex.build?` puts them together with a stack of open groups. A character
class is a token of its own, and a brace that starts no quantifier stands for itself. What
these expressions do not have is refused: a dot and the anchors `^` and `$` unless a
backslash comes before them, escapes of letters and digits, and all groups but `(?:...)`.
So are ranges and bounds that run downwards, and counts that are too large.
-/

namespace UriTemplates.Regex

/-- A token of a regular expression. -/
inductive Token where
  /-- What one character is compared with. -/
  | char (test : CharTest)
  /-- The beginning of a group. -/
  | opening
  /-- The end of a group. -/
  | closing
  /-- The bar between alternatives. -/
  | bar
  /-- A quantifier. -/
  | quantifier (quantifier : Quantifier) (isLazy : Bool)

/-- The character that a text starts with, with the backslash before it. A backslash
before a letter or digit has a meaning that these expressions do not use. -/
def spelledChar? : Text → Option (SpelledChar × Text)
  | [] => none
  | '\\' :: c :: rest => if c.isAlphanum then none else some (⟨c, true⟩, rest)
  | c :: rest => if c = '\\' then none else some (⟨c, false⟩, rest)

/-- The range from a first to a last character, which must not come before it. -/
def range? (first last : SpelledChar) : Option ClassMember :=
  if first.char ≤ last.char then some (.range first last) else none

/-- The member of a class that a character begins, given what comes after the character. A
hyphen before the closing bracket stands for itself. -/
def memberFrom? (first : SpelledChar) (text : Text) : Option (ClassMember × Text) :=
  match text with
  | '-' :: ']' :: _ => some (.one first, text)
  | '-' :: rest => do
    let (last, rest) ← spelledChar? rest
    let range ← range? first last
    return (range, rest)
  | _ => some (.one first, text)

/-- The members of a class up to its closing bracket; a bracket that comes first stands
for itself. The fuel bounds the number of members. -/
def members? : (fuel : Nat) → (isFirst : Bool) → Text → Option (List ClassMember × Text)
  | 0, _, _ => none
  | fuel + 1, isFirst, text =>
    match isFirst, text with
    | false, ']' :: rest => some ([], rest)
    | _, _ => do
      let (first, rest) ← spelledChar? text
      let (member, rest) ← memberFrom? first rest
      let (members, rest) ← members? fuel false rest
      return (member :: members, rest)

/-- The class whose opening bracket has just been read. -/
def class? (text : Text) : Option (CharTest × Text) :=
  match text with
  | '^' :: rest =>
    (members? (rest.length + 1) true rest).map fun (members, rest) =>
      (.ofClass true members, rest)
  | _ =>
    (members? (text.length + 1) true text).map fun (members, rest) =>
      (.ofClass false members, rest)

/-- The count of a sequence of digits, if there are any. -/
def count? (digits : Text) : Option Count :=
  if digits.isEmpty then
    none
  else
    let value := Text.digitsNumber digits
    some ⟨value, digits.length - (Nat.toDigits 10 value).length⟩

/-- The quantifier in braces whose opening brace has just been read. -/
def bounds? (text : Text) : Option (Quantifier × Text) :=
  let least := count? (text.takeWhile Char.isDigit)
  match text.dropWhile Char.isDigit with
  | '\x7d' :: rest => least.map fun count => (.exactly count, rest)
  | ',' :: rest =>
    match rest.dropWhile Char.isDigit with
    | '\x7d' :: after => some (.between least (count? (rest.takeWhile Char.isDigit)), after)
    | _ => none
  | _ => none

/-- The greatest count that a loop can have. -/
def greatestCount : Nat := 4294967294

/-- Whether a count is small enough, and written with few enough digits to be a number. -/
def isCount (count : Count) : Bool :=
  count.value ≤ greatestCount && count.text.length ≤ Text.greatestDigits

/-- Whether the bounds of a quantifier are counts and do not run downwards. -/
def isQuantifier : Quantifier → Bool
  | .exactly count => isCount count
  | .between least most =>
    least.all isCount && most.all isCount &&
      most.all fun most => (least.map Count.value).getD 0 ≤ most.value
  | _ => true

/-- A quantifier that a question mark after it makes lazy. -/
def quantified (quantifier : Quantifier) : Text → Token × Text
  | '?' :: rest => (.quantifier quantifier true, rest)
  | rest => (.quantifier quantifier false, rest)

/-- The first token of a text. A dot and the anchors `^` and `$` only stand for themselves
after a backslash. -/
def token? (text : Text) : Option (Token × Text) :=
  match text with
  | '(' :: '?' :: ':' :: rest => some (.opening, rest)
  | '(' :: _ => none
  | ')' :: rest => some (.closing, rest)
  | '|' :: rest => some (.bar, rest)
  | '*' :: rest => some (quantified .star rest)
  | '+' :: rest => some (quantified .plus rest)
  | '?' :: rest => some (quantified .optional rest)
  | '[' :: rest => (class? rest).map fun (test, rest) => (.char test, rest)
  | '\x7b' :: rest =>
    match bounds? rest with
    | some (quantifier, rest) =>
      if isQuantifier quantifier then some (quantified quantifier rest) else none
    | none => some (.char (.literal ⟨'\x7b', false⟩), rest)
  | '.' :: _ => none
  | '^' :: _ => none
  | '$' :: _ => none
  | _ => (spelledChar? text).map fun (spelled, rest) => (.char (.literal spelled), rest)

/-- The tokens of a text; the fuel bounds their number. -/
def tokens? : (fuel : Nat) → Text → Option (List Token)
  | _, [] => some []
  | 0, _ :: _ => none
  | fuel + 1, c :: text => do
    let (token, rest) ← token? (c :: text)
    let tokens ← tokens? fuel rest
    return token :: tokens

/-- A group that is still open: its finished alternatives and the pieces of the current
one, both from the end. -/
structure OpenGroup where
  /-- The finished alternatives. -/
  alternatives : List Regex := []
  /-- The pieces of the current alternative. -/
  pieces : List Regex := []

/-- The pieces of an alternative as one expression. -/
def ofPieces (pieces : List Regex) : Regex :=
  pieces.foldl (fun rest piece => piece.andThen rest) empty

/-- A group with its last alternative finished. -/
def OpenGroup.finished (openGroup : OpenGroup) : Regex :=
  oneOf (ofPieces openGroup.pieces :: openGroup.alternatives).reverse

/-- A group with one more piece. -/
def OpenGroup.withPiece (openGroup : OpenGroup) (piece : Regex) : OpenGroup :=
  { openGroup with pieces := piece :: openGroup.pieces }

/-- Put tokens together, given the group that is open and those around it. -/
def build? (current : OpenGroup) (outer : List OpenGroup) : List Token → Option Regex
  | [] => if outer.isEmpty then some current.finished else none
  | .char test :: tokens => build? (current.withPiece (.char test)) outer tokens
  | .bar :: tokens =>
    build? ⟨ofPieces current.pieces :: current.alternatives, []⟩ outer tokens
  | .opening :: tokens => build? {} (current :: outer) tokens
  | .closing :: tokens =>
    match outer with
    | [] => none
    | around :: outer => build? (around.withPiece (.group current.finished)) outer tokens
  | .quantifier quantifier isLazy :: tokens =>
    match current.pieces with
    | [] => none
    | .loop .. :: _ => none
    | piece :: pieces =>
      build? { current with pieces := .loop piece quantifier isLazy :: pieces } outer tokens

/-- Read a regular expression. -/
def ofWritten? (text : Text) : Option Regex :=
  (tokens? text.length text).bind (build? {} [])

end UriTemplates.Regex
