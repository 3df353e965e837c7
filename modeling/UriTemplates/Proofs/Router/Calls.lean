import UriTemplates.Proofs.Router.Changes

/-!
# Routers over many calls

What a router answers to any calls is what a single ordered map of its templates answers
(`Router.answers_registry`). The map keeps every template under its text, and the two maps of the
router are its templates without and with expressions (`Router.Shows`). One call keeps it so and is
answered alike (`Router.Files.call`), and hence any number of them (`Router.Files.answers`).
-/

namespace UriTemplates

/-- Whether a template has no expression. -/
def Template.isBare (template : Template) : Bool :=
  template.parts.all fun part => part.expression?.isNone

namespace Router

variable {α : Type}

/-- A template has no variables just where it has no expression. -/
theorem isFixed_eq_isBare (template : Template) : isFixed template = template.isBare := by
  rw [Bool.eq_iff_iff, isFixed_iff, Template.isBare, List.all_eq_true]
  constructor
  · rintro ⟨literals, parts⟩ part member
    rw [parts] at member
    obtain ⟨literal, -, rfl⟩ := List.mem_map.mp member
    rfl
  · intro bare
    exact Part.exists_literals (List.filterMap_eq_nil_iff.mpr fun part member =>
      Option.isNone_iff_eq_none.mp (bare part member))

/-- A call on a router. -/
inductive Call (α : Type) where
  /-- Change the templates. -/
  | change (change : Change α)
  /-- Ask whether a template with a text is present. -/
  | contains (text : Text)
  /-- Ask for the number of templates. -/
  | size
  /-- Ask for the templates. -/
  | templates
  /-- Ask what a URI resolves to. -/
  | resolve (required lists maps : Datum) (uri : Text)

/-- What a call is answered with. -/
inductive Reply (α : Type) where
  /-- The templates are changed, and some lines are logged. -/
  | done (log : List String)
  /-- The call fails. -/
  | failed (error : Error)
  /-- Whether a template is present. -/
  | present (known : Bool)
  /-- The number of templates. -/
  | number (count : Nat)
  /-- The templates. -/
  | templates (templates : List Template)
  /-- What a URI resolves to. -/
  | route (route : Option (Route α))

/-- The reply to a change that may be refused. -/
def Reply.ofChange (log : List String) : Option Error → Reply α
  | none => .done log
  | some error => .failed error

/-- The reply to a question that may be refused. -/
def Reply.ofRoute : Except Error (Option (Route α)) → Reply α
  | .ok found => .route found
  | .error error => .failed error

/-- Why a change is refused, if it is. -/
def refusal? (router : Router α) (change : Change α) : Option Error :=
  match router.change change with
  | .ok _ => none
  | .error error => some error

/-- What is logged when a change succeeds: that a template is replaced, if it is. -/
def log (router : Router α) (change : Change α) : List String :=
  match change.registers? with
  | some (template, _) => if router.replaces template then [replacementMessage template] else []
  | none => []

/-- Answer a call. -/
def call (router : Router α) : Call α → Reply α × Router α
  | .change change =>
    (.ofChange (router.log change) (router.refusal? change), router.changed change)
  | .contains text => (.present (router.contains text), router)
  | .size => (.number router.size, router)
  | .templates => (.templates router.templates, router)
  | .resolve required lists maps uri =>
    (.ofRoute (router.resolve required lists maps uri), router)

/-- The replies to calls one after the other, and the state that they lead to. -/
def answers {σ : Type} (call : σ → Call α → Reply α × σ) (state : σ) :
    List (Call α) → List (Reply α) × σ
  | [] => ([], state)
  | asked :: later =>
    let (reply, next) := call state asked
    let (replies, last) := answers call next later
    (reply :: replies, last)

namespace Registry

/-- Why a change is refused: a text is no template, or none is there to be taken out. -/
def refusal? (registry : Registry α) : Change α → Option Error
  | .addText text _ =>
    match Template.parse text with
    | .ok _ => none
    | .error error => some error
  | .add _ _ => none
  | .remove text => if registry.contains text then none else some (.unknownTemplate text)

/-- What is logged when a change succeeds: that a template is replaced, if its text is present. -/
def log (registry : Registry α) (change : Change α) : List String :=
  match change.registers? with
  | some (template, _) =>
    if registry.contains template.text then [replacementMessage template] else []
  | none => []

/-- The templates, those without expressions first. -/
def templates (registry : Registry α) : List Template :=
  let all := registry.entries.map fun entry => entry.2.1
  all.filter Template.isBare ++ all.filter fun template => !template.isBare

/-- The value for a URI: that of the template without expressions that is written as it, or of the
first other template that matches. -/
def resolve (registry : Registry α) (required lists maps : Datum) (uri : Text) :
    Except Error (Option (Route α)) :=
  match (registry.get? uri).filter fun entry => entry.1.isBare with
  | some (template, value) => .ok (some ⟨value, template, .empty⟩)
  | none => firstMatch required lists maps uri
      ((registry.entries.filter fun entry => !entry.2.1.isBare).map Prod.snd)

/-- Answer a call. -/
def call (registry : Registry α) : Call α → Reply α × Registry α
  | .change change =>
    (.ofChange (registry.log change) (registry.refusal? change), registry.changed change)
  | .contains text => (.present (registry.contains text), registry)
  | .size => (.number registry.size, registry)
  | .templates => (.templates registry.templates, registry)
  | .resolve required lists maps uri =>
    (.ofRoute (registry.resolve required lists maps uri), registry)

/-- A template takes the place of one with the same text, and else comes last. -/
theorem entries_register (registry : Registry α) (template : Template) (value : α) :
    (registry.register template value).entries =
      if template.text ∈ registry.keys then
        registry.entries.map fun entry =>
          if entry.1 = template.text then (entry.1, template, value) else entry
      else registry.entries ++ [(template.text, template, value)] := by
  split_ifs with present
  · exact (OrderedMap.put_eq registry.distinct).trans (if_pos present)
  · exact (OrderedMap.put_eq registry.distinct).trans (if_neg present)

theorem sort_true (registry : Registry α) :
    registry.sort true = registry.entries.filter fun entry => entry.2.1.isBare := by
  simp [sort, isFixed_eq_isBare]

theorem sort_false (registry : Registry α) :
    registry.sort false = registry.entries.filter fun entry => !entry.2.1.isBare := by
  simp [sort, isFixed_eq_isBare]

end Registry

/-- Whether the two maps of a router show the templates of a registry: the first those without
expressions and the second the others, each in the order of the registry. -/
structure Shows (router : Router α) (registry : Registry α) : Prop where
  /-- Every template stands under its own text. -/
  keyed : ∀ entry ∈ router.fixed.entries ++ router.patterned.entries, entry.1 = entry.2.1.text
  /-- No text stands in both maps. -/
  disjoint : ∀ text ∈ router.fixed.keys, text ∉ router.patterned.keys
  /-- The first map has the templates without expressions. -/
  fixed : router.fixed.entries = registry.entries.filter fun entry => entry.2.1.isBare
  /-- The second map has the templates with expressions. -/
  patterned : router.patterned.entries = registry.entries.filter fun entry => !entry.2.1.isBare
  /-- Both have the same number of templates. -/
  size : router.size = registry.size
  /-- Both have templates with the same texts. -/
  contains : ∀ text, router.contains text = registry.contains text
  /-- Both list the same templates. -/
  templates : router.templates = registry.templates

namespace Files

variable {router : Router α} {registry : Registry α} (files : Files router registry)

include files

/-- A text stands in the map of its sort just if it is registered. -/
theorem mem_sort_iff {text : Text} {noVariables : Bool} :
    text ∈ (registry.sort noVariables).map Prod.fst ↔
      text ∈ registry.keys ∧ ('\x7b' ∉ text ↔ noVariables = true) := by
  have sorted : ∀ entry ∈ registry.entries,
      (isFixed entry.2.1 == noVariables) = true ↔ ('\x7b' ∉ entry.1 ↔ noVariables = true) := by
    intro entry member
    rw [files.keyed entry member, ← isFixed_iff_notMem_text, beq_iff_eq, Bool.eq_iff_iff]
  simp only [Registry.sort, OrderedMap.keys, List.mem_map, List.mem_filter]
  constructor
  · rintro ⟨entry, ⟨member, sort⟩, rfl⟩
    exact ⟨⟨entry, member, rfl⟩, (sorted entry member).mp sort⟩
  · rintro ⟨⟨entry, member, rfl⟩, sort⟩
    exact ⟨entry, ⟨member, (sorted entry member).mpr sort⟩, rfl⟩

/-- The fixed templates of a router are those of the registry without a brace. -/
theorem mem_keys_fixed_iff {text : Text} :
    text ∈ router.fixed.keys ↔ text ∈ registry.keys ∧ '\x7b' ∉ text := by
  rw [OrderedMap.keys, files.fixed, files.mem_sort_iff]
  simp

/-- The other templates of a router are those of the registry with a brace. -/
theorem mem_keys_patterned_iff {text : Text} :
    text ∈ router.patterned.keys ↔ text ∈ registry.keys ∧ '\x7b' ∈ text := by
  rw [OrderedMap.keys, files.patterned, files.mem_sort_iff]
  simp

/-- A router contains the templates of its registry. -/
theorem contains_eq (text : Text) : router.contains text = registry.contains text := by
  rw [Bool.eq_iff_iff, Router.contains, Bool.or_eq_true, OrderedMap.contains_eq_true_iff,
    OrderedMap.contains_eq_true_iff, OrderedMap.contains_eq_true_iff, files.mem_keys_fixed_iff,
    files.mem_keys_patterned_iff, ← and_or_left, and_iff_left (Classical.em _).symm]

/-- A template is replaced just if its text is registered: only one of the maps can have it. -/
theorem replaces_eq (template : Template) :
    router.replaces template = registry.contains template.text := by
  rw [Router.replaces, Bool.eq_iff_iff, OrderedMap.contains_eq_true_iff]
  have sort : isFixed template = true ↔ '\x7b' ∉ template.text := isFixed_iff_notMem_text
  split_ifs with noVariables
  · rw [OrderedMap.contains_eq_true_iff, files.mem_keys_fixed_iff,
      and_iff_left (sort.mp noVariables)]
  · rw [OrderedMap.contains_eq_true_iff, files.mem_keys_patterned_iff,
      and_iff_left (not_not.mp (mt sort.mpr noVariables))]

/-- The two maps of a router show the templates that it files. -/
theorem shows : Shows router registry := by
  have fixed := files.fixed.trans registry.sort_true
  have patterned := files.patterned.trans registry.sort_false
  refine ⟨fun entry member => ?_, fun _ => files.notMem_patterned, fixed, patterned, ?_,
    files.contains_eq, ?_⟩
  · rw [fixed, patterned, List.mem_append, List.mem_filter, List.mem_filter] at member
    exact files.keyed entry (member.elim And.left And.left)
  · rw [Router.size, OrderedMap.size, OrderedMap.size, OrderedMap.size, fixed, patterned,
      ← List.length_append]
    exact (List.filter_append_perm _ _).length_eq
  · rw [Router.templates, entries, fixed, patterned, Registry.templates, List.map_append,
      List.map_map, List.map_map, List.filter_map, List.filter_map]
    rfl

/-- A router refuses the changes that its registry refuses, with the same errors. -/
theorem refusal?_eq (change : Change α) : router.refusal? change = registry.refusal? change := by
  rw [Router.refusal?]
  cases change with
  | addText text value =>
    rw [Router.change, Registry.refusal?]
    cases Template.parse text <;> rfl
  | add template value => rfl
  | remove text =>
    rw [Router.change, Registry.refusal?, ← files.contains_eq, Router.remove, Router.contains]
    cases router.fixed.contains text <;> cases router.patterned.contains text <;> rfl

/-- A router logs what its registry does. -/
theorem log_eq (change : Change α) : router.log change = registry.log change := by
  rw [Router.log, Registry.log]
  simp only [files.replaces_eq]

/-- A URI is looked up among the templates without expressions alone. -/
theorem get?_fixed (uri : Text) :
    router.fixed.get? uri = (registry.get? uri).filter fun entry => entry.1.isBare := by
  ext entry
  rw [OrderedMap.get?_eq_some_iff, files.shows.fixed, List.mem_filter, Option.filter_eq_some_iff,
    OrderedMap.get?_eq_some_iff]

/-- A router resolves as its registry does. -/
theorem resolve_registry (required lists maps : Datum) (uri : Text) :
    router.resolve required lists maps uri = registry.resolve required lists maps uri := by
  rewrite [Router.resolve, Registry.resolve, files.get?_fixed, files.shows.patterned]
  rfl

/-- **A call** is answered alike, and it keeps the templates filed. -/
theorem call (asked : Call α) :
    (router.call asked).1 = (registry.call asked).1 ∧
      Files (router.call asked).2 (registry.call asked).2 := by
  cases asked with
  | change change =>
    refine ⟨?_, files.changed change⟩
    rw [Router.call, Registry.call, files.log_eq, files.refusal?_eq]
  | contains text =>
    refine ⟨?_, files⟩
    rw [Router.call, Registry.call, files.contains_eq]
  | size =>
    refine ⟨?_, files⟩
    rw [Router.call, Registry.call, files.shows.size]
  | templates =>
    refine ⟨?_, files⟩
    rw [Router.call, Registry.call, files.shows.templates]
  | resolve required lists maps uri =>
    refine ⟨?_, files⟩
    rw [Router.call, Registry.call, files.resolve_registry]

/-- **Any calls** are answered alike. The induction is on the calls, and what carries it is that the
templates are filed. -/
theorem answers (calls : List (Call α)) :
    (Router.answers Router.call router calls).1 =
        (Router.answers Registry.call registry calls).1 ∧
      Files (Router.answers Router.call router calls).2
        (Router.answers Registry.call registry calls).2 := by
  induction calls generalizing router registry with
  | nil => exact ⟨rfl, files⟩
  | cons asked later ih =>
    obtain ⟨alike, filed⟩ := files.call asked
    obtain ⟨replies, last⟩ := ih filed
    exact ⟨congrArg₂ List.cons alike replies, last⟩

end Files

/-- A call that fails leaves the router as it is. -/
theorem call_of_failed {router : Router α} {asked : Call α} {error : Error}
    (failed : (router.call asked).1 = .failed error) : (router.call asked).2 = router := by
  cases asked with
  | change change =>
    rw [call, refusal?] at failed
    rw [call, changed]
    cases outcome : router.change change with
    | ok next =>
      rw [outcome] at failed
      cases failed
    | error error => rfl
  | contains text => rfl
  | size => rfl
  | templates => rfl
  | resolve required lists maps uri => rfl

/-- **A router answers like an ordered map of its templates.** The map puts a template in the place
of one with the same text and else at the end, and taking a template out takes its entry out. After
any calls the replies are those of the map, the log lines included, and the two maps of the router
show it. A call that fails leaves both as they are. -/
theorem answers_registry (calls : List (Call α)) :
    (answers call ({} : Router α) calls).1 =
        (answers Registry.call (.empty : Registry α) calls).1 ∧
      Shows (answers call ({} : Router α) calls).2
        (answers Registry.call (.empty : Registry α) calls).2 ∧
      (∀ asked error, (call (answers call ({} : Router α) calls).2 asked).1 = .failed error →
        (call (answers call ({} : Router α) calls).2 asked).2 =
          (answers call ({} : Router α) calls).2) ∧
      ∀ (registry : Registry α) (template : Template) (value : α) (text : Text),
        (registry.register template value).entries =
            (if template.text ∈ registry.keys then
              registry.entries.map fun entry =>
                if entry.1 = template.text then (entry.1, template, value) else entry
            else registry.entries ++ [(template.text, template, value)]) ∧
          (registry.erase text).entries = registry.entries.filter (·.1 ≠ text) := by
  obtain ⟨alike, files⟩ := Files.empty.answers calls
  exact ⟨alike, files.shows, fun _ _ => call_of_failed, fun registry template value text =>
    ⟨registry.entries_register template value, rfl⟩⟩

/-- A template is replaced, a text that is no template is refused, and so is taking out what is not
there, which leaves the router as it is. -/
theorem answers_registry_replaced :
    let patterned : Text := ['u', '/', '\x7b', 'x', '\x7d']
    let calls : List (Call Nat) := [.change (.addText patterned 1),
      .change (.addText ['u', '/', 'm', 'e'] 2), .change (.addText ['u', '/', '\x7b'] 3),
      .change (.addText patterned 4)]
    let router := (answers call ({} : Router Nat) calls).2
    router.entries.map (fun entry => (entry.1.text, entry.2)) =
        [(['u', '/', 'm', 'e'], 2), (patterned, 4)] ∧
      router.log (.addText patterned 5) =
        ["Replacing the value registered for template 'u/\x7bx\x7d'"] ∧
      (call router (.change (.remove ['z']))).1 = .failed (.unknownTemplate ['z']) ∧
      (call router (.change (.remove ['z']))).2 = router := by
  intro patterned calls router
  have refused : router.refusal? (.remove ['z']) = some (.unknownTemplate ['z']) := by
    decide +kernel
  have failed : (call router (.change (.remove ['z']))).1 = .failed (.unknownTemplate ['z']) := by
    rw [call, refused]
    rfl
  exact ⟨by decide +kernel, by decide +kernel, failed,
    (answers_registry calls).2.2.1 _ _ failed⟩

end Router

end UriTemplates
