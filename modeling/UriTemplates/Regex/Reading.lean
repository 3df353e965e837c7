import UriTemplates.Regex.Basic

/-!
# Ordered readings

What a regular expression means, by all the ways in which it can read the beginning of a
text, in order of preference: the first alternative before the second, and another
iteration of a loop before its end or, if the loop is lazy, after it. A reading may leave
marks, in text order, so that captures can be described by the same combinators. An
iteration that reads nothing is never followed by another one, which is why loops end.
-/

namespace UriTemplates

/-- A way to read the beginning of a text. -/
structure Reading (β : Type) where
  /-- What the reading recorded, in text order. -/
  marks : List β
  /-- The text that is left. -/
  rest : Text

/-- The ways to read the beginnings of texts, in order of preference. -/
abbrev Readings (β : Type) := Text → List (Reading β)

namespace Readings

variable {β : Type}

/-- Read nothing. -/
def stop : Readings β :=
  fun text => [⟨[], text⟩]

/-- No way to read anything, not even the empty text. -/
def never : Readings β :=
  fun _ => []

/-- Read one character that passes a test. -/
def char (test : Char → Bool) : Readings β
  | [] => []
  | c :: rest => if test c then [⟨[], rest⟩] else []

/-- The readings that continue a reading. -/
def continued (reading : Reading β) (next : List (Reading β)) : List (Reading β) :=
  next.map fun later => ⟨reading.marks ++ later.marks, later.rest⟩

/-- Read one thing after another. -/
def andThen (first second : Readings β) : Readings β :=
  fun text => (first text).flatMap fun reading => continued reading (second reading.rest)

/-- Read one thing or, after all ways to do so, another. -/
def orElse (first second : Readings β) : Readings β :=
  fun text => first text ++ second text

/-- What a reading consumed of a text. -/
def consumed (text : Text) (reading : Reading β) : Text :=
  text.take (text.length - reading.rest.length)

/-- Record what is read before what it records itself. -/
def marked (mark : Text → β) (inner : Readings β) : Readings β :=
  fun text => (inner text).map fun reading =>
    ⟨mark (consumed text reading) :: reading.marks, reading.rest⟩

/-- Read a number of times. -/
def times (body : Readings β) : Nat → Readings β
  | 0 => stop
  | count + 1 => body.andThen (body.times count)

/-- Read any number of times, or at most a number of times; an iteration that reads
nothing is the last one. -/
def further (body : Readings β) (isLazy : Bool) (limit : Option Nat) : Readings β :=
  fun text =>
    if limit = some 0 then
      stop text
    else
      let more := (body text).flatMap fun reading =>
        if _shorter : reading.rest.length < text.length then
          continued reading (further body isLazy (limit.map (· - 1)) reading.rest)
        else
          [reading]
      if isLazy then stop text ++ more else more ++ stop text
termination_by text => text.length

/-- Read as often as a quantifier says. -/
def loop (body : Readings β) (quantifier : Quantifier) (isLazy : Bool) : Readings β :=
  (body.times quantifier.least).andThen (body.further isLazy quantifier.further)

end Readings

namespace Regex

/-- The ways in which an expression reads the beginning of a text, in order of
preference. -/
def readings {β : Type} : Regex → Readings β
  | empty => Readings.stop
  | char test => Readings.char test.accepts
  | seq first second => first.readings.andThen second.readings
  | alt first second => first.readings.orElse second.readings
  | group inner => inner.readings
  | loop body quantifier isLazy => body.readings.loop quantifier isLazy

end Regex

end UriTemplates
