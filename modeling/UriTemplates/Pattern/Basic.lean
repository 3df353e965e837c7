import UriTemplates.Regex.Search

/-!
# Patterns

Patterns are regular expressions with captures that may be taken any number of times. A
pattern is a tree; `Pattern.regex` is the regular expression that it is written as, in
which every node is a group of its own. What a pattern means is given by its ordered
readings (`Pattern.readings`), whose marks are the captures in text order: a capture first
records what it spans and then what is captured inside of it.
-/

namespace UriTemplates

/-- What a pattern captured: keys with the spans captured under them, in text order. A
capture in a node that took no part in the match has no span. -/
abbrev Captures (κ : Type) := List (κ × Option Text)

namespace Captures

variable {κ : Type} [DecidableEq κ]

/-- The spans captured under a key. -/
def spans (captures : Captures κ) (key : κ) : List (Option Text) :=
  captures.filterMap fun (other, span) => if other = key then some span else none

/-- The texts captured under a key, if there are any. -/
def texts? (captures : Captures κ) (key : κ) : Option (List Text) :=
  match (captures.spans key).filterMap id with
  | [] => none
  | texts => some texts

end Captures

/-- A pattern whose captures have keys of a type. -/
inductive Pattern (κ : Type) where
  /-- A regular expression without captures. -/
  | plain (regex : Regex)
  /-- A pattern whose span is captured under a key. -/
  | capture (key : κ) (inner : Pattern κ)
  /-- Patterns one after the other. -/
  | seq (nodes : List (Pattern κ))
  /-- Alternatives, the earlier ones preferred. Without any there is nothing to read. -/
  | choice (options : List (Pattern κ))
  /-- A pattern or nothing; a lazy one prefers nothing. -/
  | optional (inner : Pattern κ) (isLazy : Bool)
  /-- An element, and any number of further elements after a separator each; at least one
  further element is required or not. -/
  | repeated (element : Pattern κ) (separator : Regex) (isLazy : Bool) (requiresMore : Bool)

namespace Pattern

variable {κ : Type}

/-- How often a further element follows the first one of a repetition. -/
def moreQuantifier (requiresMore : Bool) : Quantifier :=
  if requiresMore then .plus else .star

/-- The further elements of a repetition: the separator is written directly before the
element, so only the last alternative of a separator is followed by an element. -/
def moreElements (element separator : Regex) (isLazy requiresMore : Bool) : Regex :=
  .loop (.group (separator.splice element)) (moreQuantifier requiresMore) isLazy

mutual

/-- What a pattern is written as inside of its group. -/
def body : Pattern κ → Regex
  | plain regex => regex
  | capture _ inner => .group inner.body
  | seq nodes => Regex.spliceAll (groups nodes)
  | choice options => Regex.oneOf (groups options)
  | optional inner isLazy => .loop (.group inner.body) .optional isLazy
  | repeated element separator isLazy requiresMore =>
    Regex.andThen (.group element.body)
      (moreElements (.group element.body) separator isLazy requiresMore)

/-- The groups that patterns are written as. -/
def groups : List (Pattern κ) → List Regex
  | [] => []
  | node :: nodes => .group node.body :: groups nodes

end

/-- The regular expression that a pattern is written as. -/
def regex (pattern : Pattern κ) : Regex :=
  .group pattern.body

mutual

/-- The ways in which a pattern reads the beginning of a text, in order of preference,
with the captures that each of them takes. -/
def readings : Pattern κ → Readings (κ × Option Text)
  | plain regex => regex.readings
  | capture key inner => Readings.marked (fun span => (key, some span)) inner.readings
  | seq nodes => readingsInOrder nodes
  | choice options => readingsOfEither options
  | optional inner isLazy => Readings.loop inner.readings .optional isLazy
  | repeated element separator isLazy requiresMore =>
    element.readings.andThen
      (Readings.loop (separator.readings.andThen element.readings)
        (moreQuantifier requiresMore) isLazy)

/-- The ways in which patterns read one after the other. -/
def readingsInOrder : List (Pattern κ) → Readings (κ × Option Text)
  | [] => Readings.stop
  | node :: nodes => node.readings.andThen (readingsInOrder nodes)

/-- The ways in which any of the alternatives reads, those of an earlier one first. -/
def readingsOfEither : List (Pattern κ) → Readings (κ × Option Text)
  | [] => Readings.never
  | option :: options => option.readings.orElse (readingsOfEither options)

end

end Pattern

end UriTemplates
