import UriTemplates.Regex.Reading

/-!
# Backtracking search

How the first suitable reading of a regular expression is found without listing them all:
a search goes through the readings in order and asks what follows about each, and it takes
a reading back when the answer is no. `Regex.search_follows` says that this finds the first
answer along the ordered readings. A cursor carries the length of the text that is left,
so that an iteration that reads nothing is noticed at once.
-/

namespace UriTemplates

/-- A place in a text: what is left from there on, and its length. -/
structure Cursor where
  /-- The text that is left. -/
  rest : Text
  /-- Its length. -/
  left : Nat
  /-- The length is that of the text. -/
  left_eq : left = rest.length

namespace Cursor

/-- The beginning of a text. -/
def start (text : Text) : Cursor :=
  ⟨text, text.length, rfl⟩

/-- A cursor is known from what is left. -/
@[simp] theorem start_rest (cursor : Cursor) : start cursor.rest = cursor := by
  obtain ⟨rest, left, rfl⟩ := cursor
  rfl

/-- What lies between a place and a later one. -/
def textTo (from_ to_ : Cursor) : Text :=
  from_.rest.take (from_.left - to_.left)

end Cursor

/-- A search: from a place on, it goes through readings and returns the first answer of
what follows. -/
abbrev Search (α : Type) := Cursor → (Cursor → Option α) → Option α

namespace Search

variable {α : Type}

/-- Read one character that passes a test. -/
def char (test : Char → Bool) : Search α :=
  fun cursor next =>
    match _same : cursor.rest with
    | [] => none
    | c :: rest =>
      if test c then
        next ⟨rest, cursor.left - 1, by rw [cursor.left_eq, _same]; rfl⟩
      else
        none

/-- Read a number of times. -/
def times (body : Search α) : Nat → Search α
  | 0 => fun cursor next => next cursor
  | count + 1 => fun cursor next => body cursor fun later => times body count later next

/-- Read any number of times, or at most a number of times; an iteration that reads
nothing is the last one. -/
def further (body : Search α) (isLazy : Bool) (limit : Option Nat) (cursor : Cursor)
    (next : Cursor → Option α) : Option α :=
  if limit = some 0 then
    next cursor
  else if isLazy then
    (next cursor).orElse fun _ => body cursor fun later =>
      if _shorter : later.left < cursor.left then
        further body isLazy (limit.map (· - 1)) later next
      else
        next later
  else
    (body cursor fun later =>
      if _shorter : later.left < cursor.left then
        further body isLazy (limit.map (· - 1)) later next
      else
        next later).orElse fun _ => next cursor
termination_by cursor.left

/-- Read as often as a quantifier says. -/
def loop (body : Search α) (quantifier : Quantifier) (isLazy : Bool) : Search α :=
  fun cursor next =>
    body.times quantifier.least cursor fun later =>
      body.further isLazy quantifier.further later next

end Search

namespace Regex

variable {α : Type}

/-- Search through the readings of an expression. -/
def search : Regex → Search α
  | empty => fun cursor next => next cursor
  | char test => Search.char test.accepts
  | seq first second => fun cursor next =>
    first.search cursor fun later => second.search later next
  | alt first second => fun cursor next =>
    (first.search cursor next).orElse fun _ => second.search cursor next
  | group inner => inner.search
  | loop body quantifier isLazy => Search.loop body.search quantifier isLazy

/-- Whether a text is read to its end from a place on. -/
def atEnd (cursor : Cursor) : Option Unit :=
  if cursor.left = 0 then some () else none

/-- Whether an expression matches a whole text. -/
def isMatch (regex : Regex) (text : Text) : Bool :=
  (regex.search (Cursor.start text) atEnd).isSome

/-- The texts that expressions match one after the other when they together match what is
left of a text, by the first way to do so. -/
def spans? : List Regex → Cursor → Option (List Text)
  | [], cursor => if cursor.left = 0 then some [] else none
  | regex :: rest, cursor =>
    regex.search cursor fun later => (spans? rest later).map (cursor.textTo later :: ·)

end Regex

/-- A search answers along ordered readings: it returns the first answer that one of them
leads to. -/
def Search.Follows {α β : Type} (search : Search α) (readings : Readings β) : Prop :=
  ∀ (cursor : Cursor) (next : Cursor → Option α),
    search cursor next =
      (readings cursor.rest).findSome? fun reading => next (Cursor.start reading.rest)

namespace Search

variable {α β : Type}

/-- A search for one character answers along the readings of it. -/
theorem follows_char (test : Char → Bool) :
    Follows (α := α) (β := β) (char test) (Readings.char test) := by
  intro cursor next
  obtain ⟨rest, left, rfl⟩ := cursor
  cases rest with
  | nil => rfl
  | cons c rest =>
    simp only [char, Readings.char]
    split
    · simp only [List.findSome?_cons, List.findSome?_nil]
      have : (⟨rest, (c :: rest).length - 1, rfl⟩ : Cursor) = Cursor.start rest := rfl
      rw [this]
      cases next (Cursor.start rest) <;> rfl
    · rfl

theorem findSome?_continued (reading : Reading β) (later : List (Reading β))
    (answer : Text → Option α) :
    (Readings.continued reading later).findSome? (fun last => answer last.rest) =
      later.findSome? fun last => answer last.rest := by
  simp [Readings.continued, List.findSome?_map, Function.comp_def]

theorem findSome?_flatMap {γ δ : Type} (items : List γ) (expand : γ → List δ)
    (answer : δ → Option α) :
    (items.flatMap expand).findSome? answer =
      items.findSome? fun item => (expand item).findSome? answer := by
  induction items with
  | nil => rfl
  | cons item items ih =>
    rw [List.flatMap_cons, List.findSome?_append, ih, List.findSome?_cons]
    cases (expand item).findSome? answer <;> rfl

/-- One search after another answers along the readings of one thing after the other. -/
theorem Follows.andThen {first second : Search α} {firsts seconds : Readings β}
    (hfirst : Follows first firsts) (hsecond : Follows second seconds) :
    Follows (fun cursor next => first cursor fun later => second later next)
      (firsts.andThen seconds) := by
  intro cursor next
  show first cursor _ = _
  rw [hfirst, Readings.andThen, findSome?_flatMap]
  congr 1
  funext reading
  rw [hsecond, findSome?_continued reading _ fun rest => next (Cursor.start rest)]
  rfl

/-- A search for a number of times answers along the readings of as many. -/
theorem Follows.times {body : Search α} {readings : Readings β} (hbody : Follows body readings) :
    (count : Nat) → Follows (times body count) (readings.times count)
  | 0 => by
    intro cursor next
    simp only [Search.times, Readings.times, Readings.stop, List.findSome?_cons,
      Cursor.start_rest, List.findSome?_nil]
    cases next cursor <;> rfl
  | count + 1 => hbody.andThen (hbody.times count)

/-- A search for further iterations answers along their readings. The induction is on the length of
the text. -/
theorem Follows.further {body : Search α} {readings : Readings β}
    (hbody : Follows body readings) (isLazy : Bool) (limit : Option Nat) :
    Follows (further body isLazy limit) (readings.further isLazy limit) := by
  intro cursor
  obtain ⟨rest, left, same⟩ := cursor
  induction left using Nat.strongRecOn generalizing rest limit with
  | ind left ih =>
    subst same
    intro next
    have iterate : (body ⟨rest, rest.length, rfl⟩ fun later =>
          if later.left < rest.length then
            Search.further body isLazy (limit.map (· - 1)) later next
          else next later) =
        ((readings rest).flatMap fun reading =>
          if reading.rest.length < rest.length then
            Readings.continued reading
              (readings.further isLazy (limit.map (· - 1)) reading.rest)
          else [reading]).findSome? fun reading => next (Cursor.start reading.rest) := by
      rw [hbody, findSome?_flatMap]
      congr 1
      funext reading
      by_cases shorter : reading.rest.length < rest.length
      · rw [if_pos (show (Cursor.start reading.rest).left < rest.length from shorter),
          if_pos shorter, findSome?_continued reading _ fun rest => next (Cursor.start rest)]
        exact ih _ shorter _ _ rfl next
      · rw [if_neg (show ¬(Cursor.start reading.rest).left < rest.length from shorter),
          if_neg shorter]
        simp only [List.findSome?_cons, List.findSome?_nil]
        cases next (Cursor.start reading.rest) <;> rfl
    have ended : Cursor.start rest = ⟨rest, rest.length, rfl⟩ := rfl
    rw [Search.further, Readings.further]
    split
    · simp only [Readings.stop, List.findSome?_cons, List.findSome?_nil, ended]
      cases next ⟨rest, rest.length, rfl⟩ <;> rfl
    · split
      · simp only [dite_eq_ite, iterate, List.findSome?_append, Readings.stop,
          List.findSome?_cons, List.findSome?_nil, ended]
        cases next ⟨rest, rest.length, rfl⟩ <;> rfl
      · simp only [dite_eq_ite, iterate, List.findSome?_append, Readings.stop,
          List.findSome?_cons, List.findSome?_nil, ended, Option.or_eq_orElse]
        cases next ⟨rest, rest.length, rfl⟩ <;> rfl

end Search

namespace Regex

variable {α β : Type}

/-- The search finds the first answer along the ordered readings. -/
theorem search_follows (regex : Regex) :
    Search.Follows (α := α) (β := β) regex.search regex.readings := by
  induction regex with
  | empty =>
    intro cursor next
    simp only [search, readings, Readings.stop, List.findSome?_cons, Cursor.start_rest,
      List.findSome?_nil]
    cases next cursor <;> rfl
  | char test => exact Search.follows_char test.accepts
  | seq first second hfirst hsecond => exact hfirst.andThen hsecond
  | alt first second hfirst hsecond =>
    intro cursor next
    simp only [search, readings, Readings.orElse, List.findSome?_append, hfirst cursor next,
      hsecond cursor next]
    cases (first.readings cursor.rest).findSome? _ <;> rfl
  | group inner ih => exact ih
  | loop body quantifier isLazy ih =>
    exact (ih.times quantifier.least).andThen (ih.further isLazy quantifier.further)

end Regex

end UriTemplates
