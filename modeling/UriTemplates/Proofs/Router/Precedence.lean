import UriTemplates.Proofs.Matching.Refusal
import UriTemplates.Proofs.Router.Dispatch

/-!
# Precedence

A template that a URI does not match is passed over, and the first one that is not decides what the
URI resolves to (`Router.scan_decided`): its value, or the error that matching it gives. So a
template that does not match can still stand in the way of later ones, if its match is refused
(`Router.resolve_precedence`, `Router.resolve_refused`). A template that is registered without
matching a URI comes after the others as far as that URI is concerned, whatever place it takes
(`Router.Files.resolve_add`).
-/

namespace UriTemplates

/-- Whether a template is one that some text is read as. -/
def Template.IsRead (template : Template) : Prop :=
  ∃ text, Template.parse text = .ok template

/-- The text of a template that was read tells which one it is. -/
theorem Template.IsRead.eq_of_text {template other : Template} (read : template.IsRead)
    (readOther : other.IsRead) (same : template.text = other.text) : template = other := by
  obtain ⟨text, accepted⟩ := read
  obtain ⟨textOther, acceptedOther⟩ := readOther
  rw [Template.text_of_parse accepted, Template.text_of_parse acceptedOther] at same
  rw [same, acceptedOther] at accepted
  exact (Except.ok.inj accepted).symm

namespace Router

variable {α : Type}

/-- The first of two results, or the second one if the first is that there is nothing. -/
def orNext (first second : Except Error (Option (Route α))) : Except Error (Option (Route α)) :=
  match first with
  | .ok none => second
  | result => result

section orNext

variable (first second third : Except Error (Option (Route α)))

@[simp] theorem none_orNext : orNext (.ok none) second = second :=
  rfl

@[simp] theorem orNext_none : orNext first (.ok none) = first := by
  rcases first with error | _ | route <;> rfl

theorem orNext_assoc :
    orNext (orNext first second) third = orNext first (orNext second third) := by
  rcases first with error | _ | route <;> rfl

variable {first} in
/-- What is settled is settled whatever comes next. -/
theorem orNext_of_ne (settled : first ≠ .ok none) : orNext first second = first := by
  rcases first with error | _ | route
  · rfl
  · exact (settled rfl).elim
  · rfl

end orNext

/-- What a template with a value gives by the outcome of its match. -/
def routed (value : α) (outcome : Except Error (Option Match)) : Except Error (Option (Route α)) :=
  outcome.map (Option.map (⟨value, ·⟩))

section routed

variable {value : α} {outcome : Except Error (Option Match)}

@[simp] theorem routed_eq_none_iff : routed value outcome = .ok none ↔ outcome = .ok none := by
  rcases outcome with error | _ | found <;> simp [routed, Except.map]

theorem routed_eq_some_iff {route : Route α} :
    routed value outcome = .ok (some route) ↔
      value = route.value ∧ outcome = .ok (some route.found) := by
  obtain ⟨held, match_⟩ := route
  rcases outcome with error | _ | found <;> simp [routed, Except.map]

theorem routed_eq_error_iff {error : Error} :
    routed value outcome = .error error ↔ outcome = .error error := by
  rcases outcome with other | _ | found <;> simp [routed, Except.map]

end routed

variable {hints : Hints} {uri : Text} {entries before later : List (Template × α)}
  {template : Template} {value : α}

/-- A scan asks the first template, and the later ones where it does not match. -/
theorem scan_cons : scan hints uri ((template, value) :: later) =
    orNext (routed value (template.match? hints uri)) (scan hints uri later) := by
  rw [scan]
  rcases template.match? hints uri with error | _ | found <;> rfl

/-- What a scan does not settle is left to the templates after it. -/
theorem scan_append : scan hints uri (before ++ later) =
    orNext (scan hints uri before) (scan hints uri later) := by
  induction before with
  | nil => rfl
  | cons entry before ih => rw [List.cons_append, scan_cons, scan_cons, ih, orNext_assoc]

/-- A scan of one template gives what its match gives. -/
theorem scan_single : scan hints uri [(template, value)] =
    routed value (template.match? hints uri) :=
  scan_cons.trans (orNext_none _)

/-- Whether a URI matches none of some templates, and no match with them is refused. -/
def PassedOver (hints : Hints) (uri : Text) (entries : List (Template × α)) : Prop :=
  ∀ entry ∈ entries, entry.1.match? hints uri = .ok none

/-- A scan of templates that all do not match finds nothing. -/
theorem scan_passedOver (passed : PassedOver hints uri entries) :
    scan hints uri entries = .ok none := by
  induction entries with
  | nil => rfl
  | cons entry entries ih =>
    obtain ⟨here, others⟩ := List.forall_mem_cons.mp passed
    rw [scan_cons, routed_eq_none_iff.mpr here, none_orNext, ih others]

/-- The first template that is not passed over decides. -/
theorem scan_decided (passed : PassedOver hints uri before)
    (decides : template.match? hints uri ≠ .ok none) :
    scan hints uri (before ++ (template, value) :: later) =
      routed value (template.match? hints uri) := by
  rw [scan_append, scan_passedOver passed, none_orNext, scan_cons,
    orNext_of_ne _ (mt routed_eq_none_iff.mp decides)]

/-- Either all templates are passed over, or there is a first one that is not. -/
theorem passedOver_or_exists (hints : Hints) (uri : Text) (entries : List (Template × α)) :
    PassedOver hints uri entries ∨ ∃ before template value later,
      entries = before ++ (template, value) :: later ∧ PassedOver hints uri before ∧
        template.match? hints uri ≠ .ok none := by
  induction entries with
  | nil => exact .inl nofun
  | cons entry entries ih =>
    by_cases here : entry.1.match? hints uri = .ok none
    · rcases ih with passed | ⟨before, template, value, later, rfl, passed, decides⟩
      · exact .inl (List.forall_mem_cons.mpr ⟨here, passed⟩)
      · exact .inr ⟨entry :: before, template, value, later, rfl,
          List.forall_mem_cons.mpr ⟨here, passed⟩, decides⟩
    · exact .inr ⟨[], entry.1, entry.2, entries, rfl, nofun, here⟩

/-- A scan finds nothing just if all templates are passed over. -/
theorem scan_eq_none_iff : scan hints uri entries = .ok none ↔ PassedOver hints uri entries := by
  refine ⟨fun nothing => ?_, scan_passedOver⟩
  rcases passedOver_or_exists hints uri entries with
    passed | ⟨before, template, value, later, rfl, passed, decides⟩
  · exact passed
  · rw [scan_decided passed decides, routed_eq_none_iff] at nothing
    exact (decides nothing).elim

/-- A scan settles on what the first template that is not passed over gives. -/
theorem scan_eq_iff {result : Except Error (Option (Route α))} (settled : result ≠ .ok none) :
    scan hints uri entries = result ↔ ∃ before template value later,
      entries = before ++ (template, value) :: later ∧ PassedOver hints uri before ∧
        routed value (template.match? hints uri) = result := by
  constructor
  · rintro rfl
    rcases passedOver_or_exists hints uri entries with
      passed | ⟨before, template, value, later, rfl, passed, decides⟩
    · exact (settled (scan_passedOver passed)).elim
    · exact ⟨before, template, value, later, rfl, passed, (scan_decided passed decides).symm⟩
  · rintro ⟨before, template, value, later, rfl, passed, rfl⟩
    exact scan_decided passed (mt routed_eq_none_iff.mpr settled)

/-- A scan finds the first template that matches, if no match before it fails. -/
theorem scan_eq_some_iff {route : Route α} :
    scan hints uri entries = .ok (some route) ↔ ∃ before template later,
      entries = before ++ (template, route.value) :: later ∧ PassedOver hints uri before ∧
        template.match? hints uri = .ok (some route.found) := by
  rw [scan_eq_iff (by simp)]
  simp only [routed_eq_some_iff]
  constructor
  · rintro ⟨before, template, _, later, rfl, passed, rfl, found⟩
    exact ⟨before, template, later, rfl, passed, found⟩
  · rintro ⟨before, template, later, rfl, passed, found⟩
    exact ⟨before, template, _, later, rfl, passed, rfl, found⟩

/-- A scan ends in the first error, if no template before it matches. -/
theorem scan_eq_error_iff {error : Error} :
    scan hints uri entries = .error error ↔ ∃ before template value later,
      entries = before ++ (template, value) :: later ∧ PassedOver hints uri before ∧
        template.match? hints uri = .error error := by
  rw [scan_eq_iff (by simp)]
  simp only [routed_eq_error_iff]

/-- A template that is passed over may come at any place. -/
theorem scan_insert (passed : template.match? hints uri = .ok none) :
    scan hints uri (before ++ (template, value) :: later) = scan hints uri (before ++ later) := by
  rw [scan_append, scan_append, scan_cons, routed_eq_none_iff.mpr passed, none_orNext]

/-- A template that does not match is put where it comes last: a template that it replaces is the
same one. -/
theorem scan_put {entries : List (Text × Template × α)}
    (unmatched : ∀ found, template.match? hints uri ≠ .ok (some found))
    (only : ∀ entry ∈ entries, entry.1 = template.text → entry.2.1 = template) :
    scan hints uri ((OrderedMap.put template.text (template, value) entries).map Prod.snd) =
      scan hints uri (entries.map Prod.snd ++ [(template, value)]) := by
  induction entries with
  | nil => rfl
  | cons entry entries ih =>
    obtain ⟨text, old, held⟩ := entry
    obtain ⟨here, others⟩ := List.forall_mem_cons.mp only
    rw [OrderedMap.put]
    split_ifs with same
    · obtain rfl : old = template := here same
      rw [List.map_cons, List.map_cons, List.cons_append, scan_cons, scan_cons]
      rcases known : old.match? hints uri with error | _ | found
      · rfl
      · rw [scan_insert known, List.append_nil]
        rfl
      · exact (unmatched found known).elim
    · rw [List.map_cons, List.map_cons, List.cons_append, scan_cons, scan_cons, ih others]

/-- Whether all templates of a registry were read from texts. -/
def Registry.IsRead (registry : Registry α) : Prop :=
  ∀ entry ∈ registry.entries, entry.2.1.IsRead

/-- Whether a change registers no template but one that was read from a text. -/
def Change.IsRead (change : Change α) : Prop :=
  ∀ entry ∈ change.registers?, entry.1.IsRead

/-- A text is only registered as the template that it is read as. -/
theorem Change.isRead_addText (text : Text) (value : α) : (addText text value).IsRead := by
  intro entry member
  rw [Change.registers?] at member
  cases read : Template.parse text with
  | error error =>
    rw [read] at member
    cases member
  | ok template =>
    rw [read] at member
    cases member
    exact ⟨text, read⟩

/-- A change keeps it that all templates were read from texts. -/
theorem Registry.IsRead.changed {registry : Registry α} (read : registry.IsRead)
    {change : Change α} (known : change.IsRead) : (registry.changed change).IsRead := by
  have registered : ∀ template value, change.registers? = some (template, value) →
      (registry.register template value).IsRead := by
    intro template value registers entry member
    rcases OrderedMap.mem_of_mem_put member with rfl | old
    · exact known _ registers
    · exact read entry old
  cases change with
  | addText text value =>
    rw [Registry.changed]
    cases accepted : Template.parse text with
    | error error => exact read
    | ok template => exact registered template value (by rw [Change.registers?, accepted])
  | add template value => exact registered template value rfl
  | remove text => exact fun entry member => read entry (List.mem_filter.mp member).1

/-- All templates were read from texts after any changes that register such templates only. -/
theorem isRead_after {changes : List (Change α)} (read : ∀ change ∈ changes, change.IsRead) :
    (Registry.after changes).IsRead := by
  suffices from_any : ∀ registry : Registry α, registry.IsRead →
      (changes.foldl Registry.changed registry).IsRead from from_any .empty nofun
  induction changes with
  | nil => exact fun _ known => known
  | cons change changes ih =>
    obtain ⟨here, later⟩ := List.forall_mem_cons.mp read
    exact fun _ known => ih later _ (known.changed here)

namespace Files

variable {router : Router α} {registry : Registry α} (files : Files router registry)

include files

/-- Templates that are filed under the text of a template are that template. -/
theorem eq_of_text (read : registry.IsRead) (readTemplate : template.IsRead) (noVariables : Bool) :
    ∀ entry ∈ registry.sort noVariables, entry.1 = template.text → entry.2.1 = template := by
  intro entry member same
  have known := (List.mem_filter.mp member).1
  exact (read entry known).eq_of_text readTemplate ((files.keyed entry known).symm.trans same)

/-- **A template that does not match a URI** comes after all others as far as the URI is
concerned. -/
theorem resolve_add (read : registry.IsRead) (readTemplate : template.IsRead) {required lists
    maps : Datum} (accepted : Hints.ofData required lists maps = .ok hints)
    (unmatched : ∀ found, template.match? hints uri ≠ .ok (some found)) (value : α) :
    (router.add template value).resolve required lists maps uri =
      scan hints uri (router.entries ++ [(template, value)]) := by
  rw [(files.add template value).resolve_eq accepted uri, Router.entries, Router.entries,
    Router.add]
  have only := files.eq_of_text read readTemplate
  cases noVariables : isFixed template with
  | true =>
    have passed : template.match? hints uri = .ok none := by
      rw [Template.match?_of_isFixed noVariables] at unmatched ⊢
      split_ifs at unmatched ⊢
      · exact (unmatched _ rfl).elim
      · rfl
    rw [if_pos rfl, scan_insert passed, List.append_nil, OrderedMap.insert, scan_append,
      scan_put unmatched (files.fixed ▸ only true), scan_insert passed, List.append_nil,
      ← scan_append]
  | false =>
    rw [if_neg Bool.false_ne_true, OrderedMap.insert, scan_append,
      scan_put unmatched (files.patterned ▸ only false), ← scan_append, List.append_assoc]

end Files

/-- **What a URI resolves to.** The templates without variables come before the others, each sort in
the order of registration. The URI resolves to the value of the first template that it matches if
all templates before that one are passed over, and to nothing if all templates are. A template whose
match is refused stands in the way: if all before it are passed over, the URI resolves to its error,
which says that hints contradict one of its variables or that bindings of one name contradict each
other. Registering a template that the URI does not match changes nothing, unless its match is
refused and the URI resolved to nothing before. -/
theorem resolve_precedence (changes : List (Change α))
    (read : ∀ change ∈ changes, change.IsRead) {required lists maps : Datum} {hints : Hints}
    (accepted : Hints.ofData required lists maps = .ok hints) (uri : Text) :
    (after changes).entries =
        ((Registry.after changes).sort true ++ (Registry.after changes).sort false).map Prod.snd ∧
      (∀ route, (after changes).resolve required lists maps uri = .ok (some route) ↔
        ∃ before template later,
          (after changes).entries = before ++ (template, route.value) :: later ∧
            PassedOver hints uri before ∧ template.match? hints uri = .ok (some route.found)) ∧
      ((after changes).resolve required lists maps uri = .ok none ↔
        PassedOver hints uri (after changes).entries) ∧
      (∀ error, (after changes).resolve required lists maps uri = .error error ↔
        ∃ before template value later,
          (after changes).entries = before ++ (template, value) :: later ∧
            PassedOver hints uri before ∧ template.match? hints uri = .error error ∧
            ((∃ v ∈ template.occurrences, hints.contradicts v = true ∧ error = hints.refusal v) ∨
              ∃ name, error = .inconsistentBinding name ∧
                2 ≤ (template.occurrences.map Variable.name).count name)) ∧
      ∀ change template value, change.registers? = some (template, value) → template.IsRead →
        (∀ found, template.match? hints uri ≠ .ok (some found)) →
          ((after changes).changed change).resolve required lists maps uri =
              (after changes).resolve required lists maps uri ∨
            (after changes).resolve required lists maps uri = .ok none ∧
              ∃ error, template.match? hints uri = .error error ∧
                ((after changes).changed change).resolve required lists maps uri =
                  .error error := by
  have files := files_after changes
  have resolved := files.resolve_eq accepted uri
  refine ⟨files.entries_eq, fun route => by rw [resolved, scan_eq_some_iff],
    by rw [resolved, scan_eq_none_iff], fun error => ?_, ?_⟩
  · rw [resolved, scan_eq_error_iff]
    constructor
    · rintro ⟨before, template, value, later, same, passed, refused⟩
      exact ⟨before, template, value, later, same, passed, refused,
        Template.match?_eq_error refused⟩
    · rintro ⟨before, template, value, later, same, passed, refused, -⟩
      exact ⟨before, template, value, later, same, passed, refused⟩
  · intro change template value registers readTemplate unmatched
    rw [changed_of_registers? registers, resolved,
      files.resolve_add (isRead_after read) readTemplate accepted unmatched, scan_append,
      scan_single]
    by_cases nothing : scan hints uri (after changes).entries = .ok none
    · rw [nothing, none_orNext]
      rcases known : template.match? hints uri with error | _ | found
      · exact .inr ⟨rfl, error, rfl, rfl⟩
      · exact .inl rfl
      · exact (unmatched found known).elim
    · exact .inl (orNext_of_ne _ nothing)

/-- A template whose bindings contradict each other does not stand in the way of an earlier one. -/
theorem resolve_precedence_earlier :
    Hints.ofData (.list []) (.list []) (.list []) = .ok {} ∧
      ∃ found, (after [.addText ['\x7b', 'a', '\x7d', '/', '\x7b', 'b', '\x7d'] 1,
          .addText ['\x7b', 'x', '\x7d', '/', '\x7b', 'x', '\x7d'] 2]).resolve
        (.list []) (.list []) (.list []) ['1', '/', '2'] = .ok (some ⟨1, found⟩) := by
  let slash : Part := .literal ⟨['/'], rfl⟩
  let reading (v : Variable) : Part := .expression ⟨.simple, [v], by simp⟩
  let a : Variable := ⟨['a'], .plain, rfl, rfl⟩
  let b : Variable := ⟨['b'], .plain, rfl, rfl⟩
  let x : Variable := ⟨['x'], .plain, rfl, rfl⟩
  let changes : List (Change Nat) :=
    [.addText ['\x7b', 'a', '\x7d', '/', '\x7b', 'b', '\x7d'] 1,
      .addText ['\x7b', 'x', '\x7d', '/', '\x7b', 'x', '\x7d'] 2]
  have read : ∀ change ∈ changes, change.IsRead := by
    simp [changes, Change.isRead_addText]
  have accepted : Hints.ofData (.list []) (.list []) (.list []) = .ok {} := rfl
  obtain ⟨-, resolves, -⟩ := resolve_precedence changes read accepted ['1', '/', '2']
  have entries : (after changes).entries =
      [] ++ ((⟨[reading a, slash, reading b]⟩ : Template), 1) ::
        [((⟨[reading x, slash, reading x]⟩ : Template), 2)] := by decide +kernel
  have matched : Template.match? ⟨[reading a, slash, reading b]⟩ {} ['1', '/', '2'] =
      .ok (some ⟨⟨[reading a, slash, reading b]⟩,
        ⟨[(['a'], ⟨a, .text ['1']⟩), (['b'], ⟨b, .text ['2']⟩)], by decide⟩⟩) := by decide +kernel
  exact ⟨accepted, _, (resolves ⟨1, _⟩).mpr ⟨[], _, _, entries, nofun, matched⟩⟩

/-- It does stand in the way of a later one, and so does a template of which hints declare a
truncated variable to be a list. -/
theorem resolve_refused :
    let braced (specification : Text) : Text := '\x7b' :: specification ++ ['\x7d']
    let none_ : Datum := .list []
    let twice := braced ['x'] ++ '/' :: braced ['x']
    let apart := braced ['a'] ++ '/' :: braced ['b']
    let short := braced ['x', ':', '3']
    let single := braced ['y']
    (((after [.addText twice 1, .addText apart 2]).resolve none_ none_ none_
        ['1', '/', '2']).map (Option.map Route.value) = .error (.inconsistentBinding ['x']) ∧
      ((after [.addText apart 2]).resolve none_ none_ none_
        ['1', '/', '2']).map (Option.map Route.value) = .ok (some 2) ∧
      ∃ entry ∈ (after [.addText twice 1, .addText apart 2]).entries,
        ∃ found, entry.1.match? {} ['1', '/', '2'] = .ok (some found)) ∧
    ((after [.addText short 1, .addText single 2]).resolve none_ (.list [.text ['x']]) none_
        ['a', 'b']).map (Option.map Route.value) = .error (.truncatedDeclared ['x'] .list) ∧
      ((after [.addText single 2]).resolve none_ (.list [.text ['x']]) none_
        ['a', 'b']).map (Option.map Route.value) = .ok (some 2) ∧
      ∃ entry ∈ (after [.addText short 1, .addText single 2]).entries,
        ∃ found, entry.1.match? { lists := [['x']] } ['a', 'b'] = .ok (some found) := by
  intro braced none_ twice apart short single
  let a : Variable := ⟨['a'], .plain, rfl, rfl⟩
  let b : Variable := ⟨['b'], .plain, rfl, rfl⟩
  let y : Variable := ⟨['y'], .plain, rfl, rfl⟩
  let readApart : Template := ⟨[.expression ⟨.simple, [a], by simp⟩, .literal ⟨['/'], rfl⟩,
    .expression ⟨.simple, [b], by simp⟩]⟩
  let readSingle : Template := ⟨[.expression ⟨.simple, [y], by simp⟩]⟩
  let bindingsApart : Bindings :=
    ⟨[(['a'], ⟨a, .text ['1']⟩), (['b'], ⟨b, .text ['2']⟩)], by decide⟩
  let bindingsSingle : Bindings := ⟨[(['y'], ⟨y, .text ['a', 'b']⟩)], by decide⟩
  have matchedApart : readApart.match? {} ['1', '/', '2'] =
      .ok (some ⟨readApart, bindingsApart⟩) := by decide +kernel
  have matchedSingle : readSingle.match? { lists := [['x']] } ['a', 'b'] =
      .ok (some ⟨readSingle, bindingsSingle⟩) := by decide +kernel
  refine ⟨⟨by decide +kernel, by decide +kernel, (readApart, 2), by decide +kernel, _,
    matchedApart⟩, by decide +kernel, by decide +kernel, (readSingle, 2), by decide +kernel, _,
    matchedSingle⟩

end Router

end UriTemplates
