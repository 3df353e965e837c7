import UriTemplates.Proofs.OrderedMap
import UriTemplates.Session

/-!
# Templates over many calls

A template answers every call as if it were the first (`Session.answers_fresh`). What carries this
through any calls is which patterns are kept: exactly those of the hints that some call has asked
for, as far as the template has a pattern for them (`Session.Keeps`). One call keeps it so
(`Session.Keeps.call`), and hence any number of them (`Session.Keeps.answers`).
-/

namespace UriTemplates

namespace Session

/-- The hints that a call needs a pattern for. An expansion needs none, and neither does a match
that fails before: its reference cannot be made relative to the base, or its hints are no names. -/
def Call.hints? : Call → Option Hints
  | .expand _ => none
  | .expandAgainst _ _ => none
  | .match_ _ required lists maps => (Hints.ofData required lists maps).toOption
  | .matchAgainst base uri required lists maps =>
    match Reference.relativeTo base uri with
    | .ok _ => (Hints.ofData required lists maps).toOption
    | .error _ => none

/-- The outcome of a call on a template, with a pattern built for the call alone. -/
def Call.outcome (template : Template) : Call → Outcome
  | .expand pairs => .expansion (template.expandData pairs)
  | .expandAgainst base pairs => .expansion (template.expandAgainst base pairs)
  | .match_ uri required lists maps =>
    .found ((Hints.ofData required lists maps).bind (template.match? · uri))
  | .matchAgainst base uri required lists maps =>
    .found ((Reference.relativeTo base uri).bind fun relative =>
      (Hints.ofData required lists maps).bind (template.match? · relative))

/-- The outcomes of calls one after the other, and the session that they lead to. -/
def answers (session : Session) : List Call → List Outcome × Session
  | [] => ([], session)
  | asked :: later =>
    let (outcome, next) := session.call asked
    let (outcomes, last) := next.answers later
    (outcome :: outcomes, last)

/-- A call leaves the session as asking for its pattern does, if it needs one. -/
theorem call_session (session : Session) (asked : Call) :
    (session.call asked).2 =
      match asked.hints? with
      | none => session
      | some hints => (session.pattern hints).2 := by
  cases asked with
  | expand pairs => rfl
  | expandAgainst base pairs => rfl
  | match_ uri required lists maps =>
    rw [call, match?, Call.hints?]
    cases Hints.ofData required lists maps <;> rfl
  | matchAgainst base uri required lists maps =>
    rw [call, Call.hints?]
    cases Reference.relativeTo base uri with
    | error error => rfl
    | ok relative =>
      simp only [match?]
      cases Hints.ofData required lists maps <;> rfl

/-- Asking for a pattern leaves the template as it is. -/
theorem pattern_template (session : Session) (hints : Hints) :
    (session.pattern hints).2.template = session.template := by
  rw [pattern]
  cases session.patterns.get? hints with
  | some pattern => rfl
  | none => cases session.template.pattern hints <;> rfl

/-- Where the template has no pattern, nothing is kept. -/
theorem pattern_of_error (session : Session) {hints : Hints} {error : Error}
    (refused : session.template.pattern hints = .error error) :
    (session.pattern hints).2 = session := by
  rw [pattern]
  cases kept : session.patterns.get? hints with
  | some pattern => rfl
  | none => rw [refused]

namespace IsSound

variable {session : Session} (sound : session.IsSound)

include sound

/-- A sound session gives the pattern that its template has. -/
theorem pattern_eq (hints : Hints) :
    (session.pattern hints).1 = session.template.pattern hints := by
  rw [pattern]
  cases kept : session.patterns.get? hints with
  | some pattern => exact (sound hints pattern kept).symm
  | none => cases session.template.pattern hints <;> rfl

/-- Where the template has a pattern, it is kept under its hints. -/
theorem get?_pattern {hints : Hints} {built : Pattern Site}
    (has : session.template.pattern hints = .ok built) (others : Hints) :
    (session.pattern hints).2.patterns.get? others =
      if hints = others then some built else session.patterns.get? others := by
  rw [pattern]
  cases kept : session.patterns.get? hints with
  | some pattern =>
    split_ifs with same
    · rw [← same, kept, ← Except.ok.inj ((sound hints pattern kept).symm.trans has)]
    · rfl
  | none =>
    rw [has]
    exact OrderedMap.get?_insert _ _ _ _

/-- Afterwards it keeps what it kept before, and the pattern of the hints if there is one. -/
theorem get?_pattern_eq_some_iff {hints others : Hints} {pattern : Pattern Site} :
    (session.pattern hints).2.patterns.get? others = some pattern ↔
      session.patterns.get? others = some pattern ∨
        hints = others ∧ session.template.pattern others = .ok pattern := by
  cases built : session.template.pattern hints with
  | error error =>
    rw [session.pattern_of_error built, or_iff_left_of_imp]
    intro ⟨same, has⟩
    rw [← same, built] at has
    cases has
  | ok first =>
    rw [sound.get?_pattern built]
    by_cases same : hints = others
    · rw [if_pos same, ← same, built, Option.some_inj, Except.ok.injEq, and_iff_right rfl,
        or_iff_right_of_imp]
      intro kept
      exact Except.ok.inj (built.symm.trans (sound hints pattern kept))
    · rw [if_neg same, or_iff_left (mt And.left same)]

/-- The outcome of a call in a sound session is that of the call alone. -/
theorem call_outcome (asked : Call) :
    (session.call asked).1 = asked.outcome session.template := by
  have answer : ∀ uri required lists maps, (session.match? uri required lists maps).1 =
      (Hints.ofData required lists maps).bind (session.template.match? · uri) := by
    intro uri required lists maps
    rw [match?]
    cases Hints.ofData required lists maps with
    | error error => rfl
    | ok hints =>
      change (session.pattern hints).1.bind (fun pattern =>
        (session.pattern hints).2.template.matchWith pattern hints uri) = _
      rw [sound.pattern_eq, pattern_template]
      rfl
  cases asked with
  | expand pairs => rfl
  | expandAgainst base pairs => rfl
  | match_ uri required lists maps => exact congrArg Outcome.found (answer _ _ _ _)
  | matchAgainst base uri required lists maps =>
    rw [call, Call.outcome]
    cases Reference.relativeTo base uri with
    | error error => rfl
    | ok relative => exact congrArg Outcome.found (answer _ _ _ _)

end IsSound

/-- Whether a session keeps just the patterns that a template has for the hints of some calls. -/
structure Keeps (session : Session) (template : Template) (calls : List Call) : Prop where
  /-- The session is one of the template. -/
  template_eq : session.template = template
  /-- A pattern is kept if it is the one of the template for hints that a call needed. -/
  get?_eq_some_iff : ∀ hints pattern, session.patterns.get? hints = some pattern ↔
    (∃ asked ∈ calls, asked.hints? = some hints) ∧ template.pattern hints = .ok pattern

/-- A session that was just started keeps nothing. -/
theorem keeps_start (template : Template) : (start template).Keeps template [] where
  template_eq := rfl
  get?_eq_some_iff hints pattern := by
    refine iff_of_false nofun ?_
    rintro ⟨⟨asked, absent, -⟩, -⟩
    exact List.not_mem_nil absent

namespace Keeps

variable {session : Session} {template : Template} {earlier : List Call}
  (keeps : session.Keeps template earlier)

include keeps

/-- What a session keeps is sound. -/
theorem isSound : session.IsSound := by
  intro hints pattern kept
  rw [keeps.template_eq]
  exact ((keeps.get?_eq_some_iff hints pattern).mp kept).2

/-- A call that does not get to a pattern leaves the session as it is. -/
theorem call_of_no_pattern {asked : Call}
    (noPattern : ∀ hints pattern,
      asked.hints? = some hints → template.pattern hints ≠ .ok pattern) :
    (session.call asked).2 = session := by
  rw [call_session]
  cases needed : asked.hints? with
  | none => rfl
  | some hints =>
    cases built : session.template.pattern hints with
    | error error => exact session.pattern_of_error built
    | ok pattern => exact (noPattern hints pattern needed (keeps.template_eq ▸ built)).elim

/-- **A call** keeps the pattern of its hints besides those that were kept before. -/
theorem call (asked : Call) : (session.call asked).2.Keeps template (earlier ++ [asked]) where
  template_eq := by
    rw [call_session]
    cases asked.hints? with
    | none => exact keeps.template_eq
    | some hints => exact (pattern_template session hints).trans keeps.template_eq
  get?_eq_some_iff hints pattern := by
    -- What the earlier calls needed is kept already, so only the hints of this call are new.
    simp only [List.mem_append, List.mem_singleton, or_and_right, exists_or, exists_eq_left]
    rw [← keeps.get?_eq_some_iff, call_session]
    cases needed : asked.hints? with
    | none => rw [or_iff_left (fun absent => nomatch absent.1)]
    | some asked =>
      rw [keeps.isSound.get?_pattern_eq_some_iff, keeps.template_eq, Option.some_inj]

/-- **Any calls** have the outcomes of the calls alone. The induction is on the calls, and what
carries it is that the kept patterns are those of the calls before. -/
theorem answers (calls : List Call) :
    (session.answers calls).1 = calls.map (Call.outcome template) ∧
      (session.answers calls).2.Keeps template (earlier ++ calls) := by
  induction calls generalizing session earlier with
  | nil => exact ⟨rfl, (List.append_nil earlier).symm ▸ keeps⟩
  | cons asked later ih =>
    obtain ⟨outcomes, last⟩ := ih (keeps.call asked)
    refine ⟨?_, List.append_cons earlier asked later ▸ last⟩
    have outcome := keeps.isSound.call_outcome asked
    rw [keeps.template_eq] at outcome
    exact congrArg₂ List.cons outcome outcomes

end Keeps

/-- **A template answers every call as if it were the first.** After any calls, those that fail
included, each outcome is that of the same call on the template alone. What is kept are then just
the patterns that the template has for the hints of the calls, each under its own hints, and a
further call that fails before its pattern is built keeps nothing. -/
theorem answers_fresh (template : Template) (calls : List Call) :
    ((start template).answers calls).1 = calls.map (fun asked => ((start template).call asked).1) ∧
      ((start template).answers calls).2.template = template ∧
      (∀ hints pattern, (hints, pattern) ∈ ((start template).answers calls).2.patterns.entries ↔
        (∃ asked ∈ calls, asked.hints? = some hints) ∧ template.pattern hints = .ok pattern) ∧
      ∀ asked : Call,
        (∀ hints pattern, asked.hints? = some hints → template.pattern hints ≠ .ok pattern) →
          (((start template).answers calls).2.call asked).2 =
            ((start template).answers calls).2 := by
  obtain ⟨outcomes, keeps⟩ := (keeps_start template).answers calls
  refine ⟨?_, keeps.template_eq, fun hints pattern => ?_, fun asked => keeps.call_of_no_pattern⟩
  · refine outcomes.trans (List.map_congr_left fun asked _ => ?_)
    exact ((keeps_start template).isSound.call_outcome asked).symm
  · exact OrderedMap.get?_eq_some_iff.symm.trans (keeps.get?_eq_some_iff hints pattern)

/-- Hints that repeat a name share a pattern with those that do not, and hints that a prefix
contradicts keep none. -/
theorem answers_fresh_refused :
    let template : Template :=
      ⟨[.expression ⟨.simple, [⟨['x'], .truncated 3, rfl, rfl⟩], by simp⟩]⟩
    let refused : Call := .match_ ['a'] (.list []) (.list [.text ['x']]) (.list [])
    let calls : List Call := [
      .match_ ['a'] (.list [.text ['x'], .text ['x']]) (.list []) (.list []), refused,
      .match_ ['b'] (.tuple [.text ['x']]) (.list []) (.set [])]
    let session := ((start template).answers calls).2
    session.patterns.keys = [{ required := [['x']] }] ∧ (session.call refused).2 = session := by
  intro template refused calls session
  have needed : refused.hints? = some { lists := [['x']] } := by decide +kernel
  have contradicted : template.pattern { lists := [['x']] } =
      .error (.truncatedDeclared ['x'] .list) := by rfl
  refine ⟨by decide +kernel, (answers_fresh template calls).2.2.2 refused ?_⟩
  intro hints pattern same built
  rw [← Option.some.inj (needed.symm.trans same), contradicted] at built
  cases built

end Session

end UriTemplates
