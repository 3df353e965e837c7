import UriTemplates.Matching

/-!
# Sessions

A template in use over many calls. The pattern for a set of hints is built when it is first
needed and kept from then on; a call that fails before its pattern is built keeps nothing.
`Session.IsSound` says that every kept pattern is the one that the template would build.
-/

namespace UriTemplates

/-- A template with the patterns that were built for it. -/
structure Session where
  /-- The template. -/
  template : Template
  /-- The kept patterns by the hints they were built for. -/
  patterns : OrderedMap Hints (Pattern Site)

namespace Session

/-- The beginning of a session: no pattern is kept. -/
def start (template : Template) : Session :=
  ⟨template, .empty⟩

/-- Whether every kept pattern is the one that the template builds for its hints. -/
def IsSound (session : Session) : Prop :=
  ∀ hints pattern, session.patterns.get? hints = some pattern →
    session.template.pattern hints = .ok pattern

/-- The pattern for hints, kept or newly built. -/
def pattern (session : Session) (hints : Hints) : Except Error (Pattern Site) × Session :=
  match session.patterns.get? hints with
  | some pattern => (.ok pattern, session)
  | none =>
    match session.template.pattern hints with
    | .error error => (.error error, session)
    | .ok pattern =>
      (.ok pattern, { session with patterns := session.patterns.insert hints pattern })

/-- A call on the template of a session. -/
inductive Call where
  /-- Expand with the values of a mapping. -/
  | expand (pairs : List (Datum × Datum))
  /-- Expand and resolve against a base. -/
  | expandAgainst (base : Text) (pairs : List (Datum × Datum))
  /-- Match, with hints given by three collections. -/
  | match_ (uri : Text) (required lists maps : Datum)
  /-- Make relative to a base and match, with hints given by three collections. -/
  | matchAgainst (base uri : Text) (required lists maps : Datum)

/-- The outcome of a call. -/
inductive Outcome where
  /-- The result of an expansion. -/
  | expansion (result : Except Error Text)
  /-- The result of a match. -/
  | found (result : Except Error (Option Match))

/-- Match a URI reference in a session. -/
def match? (session : Session) (uri : Text) (required lists maps : Datum) :
    Except Error (Option Match) × Session :=
  match Hints.ofData required lists maps with
  | .error error => (.error error, session)
  | .ok hints =>
    let (pattern, session) := session.pattern hints
    (pattern.bind fun pattern => session.template.matchWith pattern hints uri, session)

/-- Make a call. -/
def call (session : Session) : Call → Outcome × Session
  | .expand pairs => (.expansion (session.template.expandData pairs), session)
  | .expandAgainst base pairs => (.expansion (session.template.expandAgainst base pairs), session)
  | .match_ uri required lists maps =>
    let (result, session) := session.match? uri required lists maps
    (.found result, session)
  | .matchAgainst base uri required lists maps =>
    match Reference.relativeTo base uri with
    | .error error => (.found (.error error), session)
    | .ok relative =>
      let (result, session) := session.match? relative required lists maps
      (.found result, session)

end Session

end UriTemplates
