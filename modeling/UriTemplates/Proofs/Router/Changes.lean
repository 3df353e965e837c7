import UriTemplates.Proofs.Grammar.Printing
import UriTemplates.Proofs.Matching.Retrieval
import UriTemplates.Proofs.OrderedMap
import UriTemplates.Router

/-!
# Routers over many changes

A router is changed by adding and removing templates, and a change that fails leaves it as it is
(`Router.changed`). Its two maps are one list of templates in the order of registration
(`Router.Registry`), which is split by whether a template has variables. The text of a template
tells which (`Router.isFixed_iff_notMem_text`), so every change keeps the split
(`Router.Files.changed`), and it holds after any changes (`Router.files_after`).
-/

namespace UriTemplates

/-- A template without variables is written as its literal parts. -/
theorem Template.text_of_literals {template : Template} {literals : List Literal}
    (parts : template.parts = Part.literals literals) :
    template.text = (literals.map Literal.text).flatten := by
  rw [text, parts, Part.literals, List.flatMap_map]
  rfl

namespace Router

variable {α : Type}

/-- A template has no variables just where all its parts are literal. -/
theorem isFixed_iff {template : Template} :
    isFixed template = true ↔ ∃ literals, template.parts = Part.literals literals := by
  have noNames : isFixed template = true ↔ template.occurrences = [] := by
    rw [isFixed, List.isEmpty_iff, Template.variableNames]
    cases template.occurrences with
    | nil => simp [Template.firstUses]
    | cons v rest => simp [Template.firstUses]
  rw [noNames, Template.occurrences, List.flatMap_eq_nil_iff]
  constructor
  · intro none
    refine Part.exists_literals (List.filterMap_eq_nil_iff.mpr fun part member => ?_)
    cases part with
    | literal part => rfl
    | expression part => exact (part.nonempty (none _ member)).elim
  · rintro ⟨literals, same⟩
    rw [same, ← List.flatMap_eq_nil_iff, Part.occurrences_literals]

/-- The text of a template tells whether it has variables. -/
theorem isFixed_iff_notMem_text {template : Template} :
    isFixed template = true ↔ '\x7b' ∉ template.text := by
  constructor
  · intro noVariables brace
    obtain ⟨literals, parts⟩ := isFixed_iff.mp noVariables
    rw [Template.text_of_literals parts, List.mem_flatten] at brace
    obtain ⟨text, member, inside⟩ := brace
    obtain ⟨literal, -, rfl⟩ := List.mem_map.mp member
    exact Text.notMem_of_isLiteral literal.valid inside
  · intro noBrace
    refine isFixed_iff.mpr (Part.exists_literals (List.filterMap_eq_nil_iff.mpr ?_))
    rintro (part | part) member
    · rfl
    · exact (noBrace (List.mem_flatMap.mpr ⟨_, member, List.mem_cons_self⟩)).elim

/-- Whether a template is fixed depends on its text alone. -/
theorem isFixed_congr {template other : Template} (same : template.text = other.text) :
    isFixed template = isFixed other := by
  rw [Bool.eq_iff_iff, isFixed_iff_notMem_text, isFixed_iff_notMem_text, same]

/-- A change of the templates of a router. -/
inductive Change (α : Type) where
  /-- Read a text as a template and add it with its value. -/
  | addText (text : Text) (value : α)
  /-- Add a template with its value. -/
  | add (template : Template) (value : α)
  /-- Take out the template with a text. -/
  | remove (text : Text)

/-- The template that a change registers, with its value. -/
def Change.registers? : Change α → Option (Template × α)
  | .addText text value =>
    match Template.parse text with
    | .ok template => some (template, value)
    | .error _ => none
  | .add template value => some (template, value)
  | .remove _ => none

/-- What a change makes of a router. -/
def change (router : Router α) : Change α → Except Error (Router α)
  | .addText text value => (Template.parse text).map (router.add · value)
  | .add template value => .ok (router.add template value)
  | .remove text => router.remove text

/-- A router after a change, which leaves it as it is if it fails. -/
def changed (router : Router α) (change : Change α) : Router α :=
  match router.change change with
  | .ok router => router
  | .error _ => router

/-- A change that registers a template adds it. -/
theorem changed_of_registers? {change : Change α} {template : Template} {value : α}
    (registers : change.registers? = some (template, value)) (router : Router α) :
    router.changed change = router.add template value := by
  cases change with
  | addText text held =>
    rw [Change.registers?] at registers
    rw [changed, Router.change]
    cases read : Template.parse text with
    | error error =>
      rw [read] at registers
      cases registers
    | ok other =>
      rw [read] at registers
      cases registers
      rfl
  | add other held =>
    cases registers
    rfl
  | remove text => cases registers

/-- The router that changes make of the empty one. -/
def after (changes : List (Change α)) : Router α :=
  changes.foldl changed {}

/-- Templates with their values by their texts, in the order of registration. -/
abbrev Registry (α : Type) : Type :=
  OrderedMap Text (Template × α)

namespace Registry

/-- Register a template: in the place of one that is written the same, else at the end. -/
def register (registry : Registry α) (template : Template) (value : α) : Registry α :=
  registry.insert template.text (template, value)

/-- A registry after a change. -/
def changed (registry : Registry α) : Change α → Registry α
  | .addText text value =>
    match Template.parse text with
    | .ok template => registry.register template value
    | .error _ => registry
  | .add template value => registry.register template value
  | .remove text => registry.erase text

/-- The registry that changes make of the empty one. -/
def after (changes : List (Change α)) : Registry α :=
  changes.foldl changed .empty

/-- The templates that are written without variables, or those with variables. -/
def sort (registry : Registry α) (noVariables : Bool) : List (Text × Template × α) :=
  registry.entries.filter fun entry => isFixed entry.2.1 == noVariables

end Registry

/-- Whether the two maps of a router are the templates of a registry without and with variables,
in the order of registration. -/
structure Files (router : Router α) (registry : Registry α) : Prop where
  /-- Every template stands under its own text. -/
  keyed : ∀ entry ∈ registry.entries, entry.1 = entry.2.1.text
  /-- The templates that are compared as texts have no variables. -/
  fixed : router.fixed.entries = registry.sort true
  /-- The templates that are matched have variables. -/
  patterned : router.patterned.entries = registry.sort false

namespace Files

variable {router : Router α} {registry : Registry α}

theorem empty : Files ({} : Router α) .empty :=
  ⟨nofun, rfl, rfl⟩

/-- A template is registered among those of its sort. -/
theorem sort_register (files : Files router registry) (template : Template) (value : α)
    (noVariables : Bool) :
    (registry.register template value).sort noVariables =
      if isFixed template == noVariables then
        OrderedMap.put template.text (template, value) (registry.sort noVariables)
      else registry.sort noVariables := by
  refine OrderedMap.filter_put fun old present => ?_
  rw [isFixed_congr (files.keyed _ present)]

/-- A template is filed with those of its sort. -/
theorem add (files : Files router registry) (template : Template) (value : α) :
    Files (router.add template value) (registry.register template value) := by
  refine ⟨fun entry member => ?_, ?_, ?_⟩
  · rcases OrderedMap.mem_of_mem_put member with rfl | old
    · rfl
    · exact files.keyed entry old
  · rw [files.sort_register, ← files.fixed, Router.add]
    cases isFixed template <;> rfl
  · rw [files.sort_register, ← files.patterned, Router.add]
    cases isFixed template <;> rfl

/-- No text stands for two templates. -/
theorem notMem_patterned (files : Files router registry) {text : Text}
    (present : text ∈ router.fixed.keys) : text ∉ router.patterned.keys := by
  intro again
  obtain ⟨entry, member, rfl⟩ := List.mem_map.mp present
  obtain ⟨other, memberOther, same⟩ := List.mem_map.mp again
  rw [files.fixed] at member
  rw [files.patterned] at memberOther
  obtain ⟨known, noVariables⟩ := List.mem_filter.mp member
  obtain ⟨knownOther, withVariables⟩ := List.mem_filter.mp memberOther
  rw [files.keyed _ known, files.keyed _ knownOther] at same
  rw [beq_iff_eq] at noVariables withVariables
  rw [isFixed_congr same, noVariables] at withVariables
  cases withVariables

/-- Taking a text out takes it out of both maps, one of which does not have it. -/
theorem changed_remove (files : Files router registry) (text : Text) :
    (router.changed (.remove text)).fixed.entries =
        router.fixed.entries.filter (·.1 ≠ text) ∧
      (router.changed (.remove text)).patterned.entries =
        router.patterned.entries.filter (·.1 ≠ text) := by
  rw [Router.changed, Router.change, Router.remove]
  cases inFixed : router.fixed.contains text with
  | true =>
    have absent : text ∉ router.patterned.keys :=
      files.notMem_patterned (OrderedMap.contains_eq_true_iff.mp inFixed)
    exact ⟨rfl, (OrderedMap.filter_of_notMem absent).symm⟩
  | false =>
    have absent := OrderedMap.contains_eq_false_iff.mp inFixed
    refine ⟨?_, ?_⟩
    · rw [OrderedMap.filter_of_notMem absent]
      cases router.patterned.contains text <;> rfl
    · cases inPatterned : router.patterned.contains text with
      | true => rfl
      | false =>
        exact (OrderedMap.filter_of_notMem (OrderedMap.contains_eq_false_iff.mp inPatterned)).symm

/-- **A change keeps the templates filed**, one that fails included. -/
theorem changed (files : Files router registry) (change : Change α) :
    Files (router.changed change) (registry.changed change) := by
  cases change with
  | addText text value =>
    rw [Router.changed, Router.change, Registry.changed]
    cases Template.parse text with
    | error error => exact files
    | ok template => exact files.add template value
  | add template value => exact files.add template value
  | remove text =>
    obtain ⟨fixed, patterned⟩ := files.changed_remove text
    refine ⟨fun entry member => files.keyed entry (List.mem_filter.mp member).1, ?_, ?_⟩
    · rw [fixed, files.fixed]
      exact List.filter_comm _ _ _
    · rw [patterned, files.patterned]
      exact List.filter_comm _ _ _

end Files

/-- Templates are filed after any changes. -/
theorem files_after (changes : List (Change α)) : Files (after changes) (.after changes) := by
  suffices from_any : ∀ (router : Router α) registry, Files router registry →
      Files (changes.foldl Router.changed router) (changes.foldl Registry.changed registry) from
    from_any {} .empty .empty
  induction changes with
  | nil => exact fun _ _ files => files
  | cons change changes ih => exact fun _ _ files => ih _ _ (files.changed change)

end Router

end UriTemplates
