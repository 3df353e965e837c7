import UriTemplates.Text.Basic

/-!
# Regular expressions

Regular expressions without captures: characters, classes, sequences, alternatives, groups
and greedy or lazy loops. An expression remembers how it is written, so `Regex.text` gives
back the text it was read from. `Regex.splice` writes one expression directly after
another one: as alternation binds weakest, only the last alternative of the first and the
first alternative of the second then follow each other (`Regex.text_splice`).
-/

namespace UriTemplates

/-- A character, written alone or after a backslash. -/
structure SpelledChar where
  /-- The character. -/
  char : Char
  /-- Whether a backslash comes before it. -/
  escaped : Bool := false
  deriving DecidableEq

/-- A spelled character as it is written. -/
def SpelledChar.text (spelled : SpelledChar) : Text :=
  if spelled.escaped then ['\\', spelled.char] else [spelled.char]

/-- A member of a character class. -/
inductive ClassMember where
  /-- One character. -/
  | one (c : SpelledChar)
  /-- The characters from a first to a last one. -/
  | range (first last : SpelledChar)
  deriving DecidableEq

namespace ClassMember

/-- Whether a member holds a character. -/
def holds : ClassMember → Char → Bool
  | one member, c => member.char == c
  | range first last, c => first.char ≤ c && c ≤ last.char

/-- A member as it is written. -/
def text : ClassMember → Text
  | one member => member.text
  | range first last => first.text ++ '-' :: last.text

end ClassMember

/-- What one character of a text is compared with. -/
inductive CharTest where
  /-- A single character. -/
  | literal (c : SpelledChar)
  /-- A class, or the characters outside it. -/
  | ofClass (negated : Bool) (members : List ClassMember)
  deriving DecidableEq

namespace CharTest

/-- Whether a character passes the test. -/
def accepts : CharTest → Char → Bool
  | literal spelled, c => spelled.char == c
  | ofClass negated members, c => members.any (·.holds c) != negated

/-- A test as it is written. -/
def text : CharTest → Text
  | literal spelled => spelled.text
  | ofClass negated members =>
    '[' :: (if negated then ['^'] else []) ++ members.flatMap ClassMember.text ++ [']']

end CharTest

/-- A count, which may be written with zeros before it. -/
structure Count where
  /-- The number. -/
  value : Nat
  /-- How many zeros stand before its decimal text. -/
  zeros : Nat
  deriving DecidableEq

namespace Count

/-- A number written without zeros before it. -/
def ofNat (value : Nat) : Count :=
  ⟨value, 0⟩

/-- A count as it is written. -/
def text (count : Count) : Text :=
  List.replicate count.zeros '0' ++ Nat.toDigits 10 count.value

end Count

/-- How often a loop runs. -/
inductive Quantifier where
  /-- Any number of times. -/
  | star
  /-- At least once. -/
  | plus
  /-- At most once. -/
  | optional
  /-- Exactly a number of times. -/
  | exactly (count : Count)
  /-- At least one number of times and at most another; either may be left open. -/
  | between (least most : Option Count)
  deriving DecidableEq

namespace Quantifier

/-- At least one number of times and at most another. -/
def ofBounds (least most : Nat) : Quantifier :=
  between (some (.ofNat least)) (some (.ofNat most))

/-- The least number of iterations. -/
def least : Quantifier → Nat
  | star => 0
  | plus => 1
  | optional => 0
  | exactly count => count.value
  | between least _ => (least.map Count.value).getD 0

/-- How many iterations can follow the least number, if that is limited. -/
def further : Quantifier → Option Nat
  | star => none
  | plus => none
  | optional => some 1
  | exactly _ => some 0
  | between least most => most.map fun most => most.value - (least.map Count.value).getD 0

/-- A bound as it is written. -/
def boundText (bound : Option Count) : Text :=
  (bound.map Count.text).getD []

/-- A quantifier as it is written. -/
def text : Quantifier → Text
  | star => ['*']
  | plus => ['+']
  | optional => ['?']
  | exactly count => '\x7b' :: count.text ++ ['\x7d']
  | between least most => '\x7b' :: boundText least ++ ',' :: boundText most ++ ['\x7d']

end Quantifier

/-- A regular expression without captures. -/
inductive Regex where
  /-- The empty expression. -/
  | empty
  /-- One character that passes a test. -/
  | char (test : CharTest)
  /-- One expression after another. -/
  | seq (first second : Regex)
  /-- One expression or, if that leads nowhere, another. -/
  | alt (first second : Regex)
  /-- An expression held together by a group. -/
  | group (inner : Regex)
  /-- An expression several times; a lazy loop would rather stop than go on. -/
  | loop (body : Regex) (quantifier : Quantifier) (isLazy : Bool)
  deriving DecidableEq

namespace Regex

/-- An expression as it is written. -/
def text : Regex → Text
  | empty => []
  | char test => test.text
  | seq first second => first.text ++ second.text
  | alt first second => first.text ++ '|' :: second.text
  | group inner => '(' :: '?' :: ':' :: inner.text ++ [')']
  | loop body quantifier isLazy =>
    body.text ++ quantifier.text ++ (if isLazy then ['?'] else [])

/-- One expression after another, without empty ones. -/
def andThen : Regex → Regex → Regex
  | empty, second => second
  | first, empty => first
  | first, second => seq first second

/-- An expression without alternatives written directly before another one. -/
def spliceBefore (first : Regex) : Regex → Regex
  | alt second third => alt (first.andThen second) third
  | second => first.andThen second

/-- An expression written directly before another one. -/
def splice : Regex → Regex → Regex
  | alt first second, third => alt first (second.splice third)
  | first, second => first.spliceBefore second

/-- The alternatives of an expression, the last one apart. -/
def alternatives : Regex → List Regex × Regex
  | alt first second => (first :: second.alternatives.1, second.alternatives.2)
  | regex => ([], regex)

/-- Expressions written one after the other. -/
def spliceAll (regexes : List Regex) : Regex :=
  regexes.foldr splice empty

/-- Expressions as alternatives; without any, the empty expression. -/
def oneOf : List Regex → Regex
  | [] => empty
  | [only] => only
  | first :: rest => alt first (oneOf rest)

/-- The characters that a literal text has to write with a backslash. -/
def isMeta (c : Char) : Bool :=
  ['\\', '.', '+', '*', '?', '(', ')', '[', ']', '\x7b', '\x7d', '^', '$', '|', '#', '&', '-',
    '~'].contains c

/-- The expression that matches one character. -/
def ofChar (c : Char) : Regex :=
  char (.literal ⟨c, isMeta c⟩)

/-- The expression that matches one text. -/
def ofText (text : Text) : Regex :=
  spliceAll (text.map ofChar)

/-- An expression after another one is written after it. -/
theorem text_andThen (first second : Regex) :
    (first.andThen second).text = first.text ++ second.text := by
  unfold andThen
  split <;> simp [text]

/-- Writing directly before another expression puts the texts together. -/
theorem text_spliceBefore (first second : Regex) :
    (first.spliceBefore second).text = first.text ++ second.text := by
  unfold spliceBefore
  split <;> simp [text, text_andThen]

/-- Splicing concatenates what is written. -/
theorem text_splice (first second : Regex) :
    (first.splice second).text = first.text ++ second.text := by
  fun_induction splice first second with
  | case1 first second third ih => simp [text, ih]
  | case2 => exact text_spliceBefore ..

end Regex

end UriTemplates
