import UriTemplates.Proofs.Reading.Loop
import UriTemplates.Pattern.Capture

/-!
# Patterns as they are written

A pattern is matched by the regular expression that it is written as. Both read the same
beginnings of a text in the same order of preference (`Pattern.ends_regex`), provided that
every choice has an option and no separator is torn apart when it is written before an
element (`Pattern.isFaithful`). A search only depends on these ends (`Regex.search_eq`).
-/

namespace UriTemplates

variable {β γ κ : Type}

namespace Readings

/-- What the ways to read the beginning of a text leave, in order of preference. -/
def ends (readings : Readings β) (text : Text) : List Text :=
  (readings text).map Reading.rest

/-- What can be left is what some reading leaves. -/
theorem mem_ends {readings : Readings β} {text rest : Text} :
    rest ∈ readings.ends text ↔ ∃ marks, ⟨marks, rest⟩ ∈ readings text := by
  constructor
  · intro member
    obtain ⟨⟨marks, left⟩, found, rfl⟩ := List.mem_map.mp member
    exact ⟨marks, found⟩
  · rintro ⟨marks, found⟩
    exact List.mem_map.mpr ⟨⟨marks, rest⟩, found, rfl⟩

/-- A text is read whole if a reading leaves nothing of it. -/
theorem isSome_whole?_iff {readings : Readings β} {text : Text} :
    (readings.whole? text).isSome = true ↔ [] ∈ readings.ends text := by
  rw [mem_ends]
  constructor
  · intro found
    obtain ⟨marks, first⟩ := Option.isSome_iff_exists.mp found
    exact ⟨marks, derives_of_whole? first⟩
  · rintro ⟨marks, derived⟩
    exact Option.isSome_iff_exists.mpr (exists_whole?_of_derives derived)

/-- To look for one item along a list is to ask whether the list holds it. -/
theorem findSome?_if_eq {α δ : Type} [DecidableEq α] (items : List α) (item : α) (answer : δ)
    [Decidable (item ∈ items)] :
    (items.findSome? fun other => if other = item then some answer else none) =
      if item ∈ items then some answer else none := by
  have general : ∀ all : List α,
      (all.findSome? fun other => if other = item then some answer else none) =
        if item ∈ all then some answer else none := by
    intro all
    induction all with
    | nil => rfl
    | cons other all ih =>
      by_cases same : other = item
      · simp [same]
      · simp [same, Ne.symm same, ih]
  exact (general items).trans (by congr)

theorem ends_char (test : Char → Bool) :
    ends (char test : Readings β) = ends (char test : Readings γ) := by
  funext text
  cases text with
  | nil => rfl
  | cons c rest =>
    simp only [ends, char]
    split <;> rfl

/-- Reading one after the other leaves what the second leaves of what the first leaves. -/
theorem ends_andThen (first second : Readings β) (text : Text) :
    (first.andThen second).ends text = (first.ends text).flatMap second.ends := by
  simp only [ends, andThen, continued, List.map_flatMap, List.flatMap_map, List.map_map,
    Function.comp_def]

theorem ends_orElse (first second : Readings β) (text : Text) :
    (first.orElse second).ends text = first.ends text ++ second.ends text :=
  List.map_append

/-- To record the span does not change what is left. -/
theorem ends_marked (inner : Readings β) (mark : Text → β) :
    (inner.marked mark).ends = inner.ends := by
  funext text
  simp only [ends, marked, List.map_map, Function.comp_def]

variable {first second : Readings β} {others more : Readings γ}

theorem ends_andThen_congr (same : first.ends = others.ends) (sameNext : second.ends = more.ends) :
    (first.andThen second).ends = (others.andThen more).ends := by
  funext text
  rw [ends_andThen, ends_andThen, same, sameNext]

theorem ends_orElse_congr (same : first.ends = others.ends) (sameNext : second.ends = more.ends) :
    (first.orElse second).ends = (others.orElse more).ends := by
  funext text
  rw [ends_orElse, ends_orElse, same, sameNext]

/-- What a number of times leaves depends on what one time leaves. -/
theorem ends_times_congr (same : first.ends = others.ends) :
    (count : Nat) → (first.times count).ends = (others.times count).ends
  | 0 => rfl
  | count + 1 => ends_andThen_congr same (ends_times_congr same count)

/-- After an iteration a loop goes on with what is left, unless the iteration read nothing. -/
theorem ends_afterIteration (body : Readings β) (isLazy : Bool) (limit : Option Nat)
    (text : Text) (reading : Reading β) :
    (afterIteration body isLazy limit text reading).map Reading.rest =
      if reading.rest.length < text.length then
        (body.further isLazy (limit.map (· - 1))).ends reading.rest
      else [reading.rest] := by
  simp only [afterIteration]
  split
  · simp only [continued, ends, List.map_map, Function.comp_def]
  · rfl

/-- What further iterations leave depends on what one iteration leaves. The induction is on the
length of the text, since only an iteration that reads something is followed by others. -/
theorem ends_further_congr (same : first.ends = others.ends) (isLazy : Bool)
    (limit : Option Nat) :
    (first.further isLazy limit).ends = (others.further isLazy limit).ends := by
  funext text
  induction size : text.length using Nat.strongRecOn generalizing text limit with
  | ind size ih =>
    subst size
    let onward (further : Text → List Text) (rest : Text) : List Text :=
      if rest.length < text.length then further rest else [rest]
    have iterated {δ : Type} (body : Readings δ) :
        ((body text).flatMap (afterIteration body isLazy limit text)).map Reading.rest =
          (body.ends text).flatMap
            (onward (body.further isLazy (limit.map (· - 1))).ends) := by
      simp only [List.map_flatMap, ends_afterIteration, ends, List.flatMap_map, onward]
    have agree : ((first text).flatMap (afterIteration first isLazy limit text)).map
          Reading.rest =
        ((others text).flatMap (afterIteration others isLazy limit text)).map Reading.rest := by
      rw [iterated, iterated, same]
      apply List.flatMap_congr
      intro rest _
      simp only [onward]
      split
      · rename_i shorter
        exact ih _ shorter _ rest rfl
      · rfl
    simp only [ends, further_eq]
    split
    · rfl
    · split
      · rw [List.map_append, List.map_append, agree]
        rfl
      · rw [List.map_append, List.map_append, agree]
        rfl

theorem ends_loop_congr (same : first.ends = others.ends) (quantifier : Quantifier)
    (isLazy : Bool) : (first.loop quantifier isLazy).ends = (others.loop quantifier isLazy).ends :=
  ends_andThen_congr (ends_times_congr same _) (ends_further_congr same isLazy _)

end Readings

namespace Regex

/-- What a regular expression leaves does not depend on what its readings record. -/
theorem ends_readings (regex : Regex) :
    (regex.readings : Readings β).ends = (regex.readings : Readings γ).ends := by
  induction regex with
  | empty => rfl
  | char test => exact Readings.ends_char test.accepts
  | seq first second same sameNext => exact Readings.ends_andThen_congr same sameNext
  | alt first second same sameNext => exact Readings.ends_orElse_congr same sameNext
  | group inner same => exact same
  | loop body quantifier isLazy same => exact Readings.ends_loop_congr same quantifier isLazy

/-- A search asks about what is left after each reading in turn. -/
theorem search_eq {α : Type} (regex : Regex) (cursor : Cursor) (next : Cursor → Option α) :
    regex.search cursor next =
      ((regex.readings : Readings β).ends cursor.rest).findSome? fun rest =>
        next (Cursor.start rest) := by
  rw [search_follows (β := β) regex, Readings.ends, List.findSome?_map]
  rfl

/-- An expression matches the texts of which one of its readings leaves nothing. -/
theorem isMatch_iff {regex : Regex} {text : Text} :
    regex.isMatch text = true ↔ [] ∈ (regex.readings : Readings β).ends text := by
  have ended : ∀ rest, (atEnd (Cursor.start rest)).isSome = true ↔ rest = [] := by
    intro rest
    cases rest with
    | nil => simp [atEnd, Cursor.start]
    | cons c rest => simp [atEnd, Cursor.start]
  rw [isMatch, search_eq (β := β), List.findSome?_isSome_iff]
  simp only [ended, exists_eq_right]
  rfl

/-- Whether an expression has no alternatives at its top level. -/
def isUndivided : Regex → Bool
  | alt _ _ => false
  | _ => true

/-- One expression after another is read as one and then the other. -/
theorem readings_andThen (first second : Regex) :
    (first.andThen second).readings = (first.readings.andThen second.readings : Readings β) := by
  unfold andThen
  split
  · exact (Readings.stop_andThen _).symm
  · exact (Readings.andThen_stop _).symm
  · rfl

/-- Expressions without bars have none one after the other. -/
theorem isUndivided_andThen {first second : Regex} (undivided : first.isUndivided = true)
    (undividedNext : second.isUndivided = true) : (first.andThen second).isUndivided = true := by
  unfold andThen
  split
  · exact undividedNext
  · exact undivided
  · rfl

/-- Expressions without bars can be written directly after each other. -/
theorem splice_eq_andThen {first second : Regex} (undivided : first.isUndivided = true)
    (undividedNext : second.isUndivided = true) : first.splice second = first.andThen second := by
  have before : first.splice second = first.spliceBefore second := by
    cases first with
    | alt => cases undivided
    | _ => rfl
  rw [before]
  cases second with
  | alt => cases undividedNext
  | _ => rfl

/-- Expressions without bars that are written directly after each other have no bar, and are read
one after the other. -/
theorem spliceAll_undivided {regexes : List Regex}
    (undivided : ∀ regex ∈ regexes, regex.isUndivided = true) :
    (spliceAll regexes).isUndivided = true ∧
      (spliceAll regexes).readings =
        (regexes.foldr (fun regex later => regex.readings.andThen later) Readings.stop :
          Readings β) := by
  induction regexes with
  | nil => exact ⟨rfl, rfl⟩
  | cons regex regexes ih =>
    obtain ⟨first, later⟩ := List.forall_mem_cons.mp undivided
    obtain ⟨rest, same⟩ := ih later
    have joined : spliceAll (regex :: regexes) = regex.andThen (spliceAll regexes) :=
      splice_eq_andThen first rest
    rw [joined, readings_andThen, same]
    exact ⟨isUndivided_andThen first rest, rfl⟩

end Regex

namespace Pattern

/-- Induction over a pattern: what holds of a node whenever it holds of the node's children
holds of every pattern. -/
theorem induction_nodes {motive : Pattern κ → Prop} (plain : ∀ regex, motive (plain regex))
    (capture : ∀ key inner, motive inner → motive (capture key inner))
    (seq : ∀ nodes, (∀ node ∈ nodes, motive node) → motive (seq nodes))
    (choice : ∀ options, (∀ option ∈ options, motive option) → motive (choice options))
    (optional : ∀ inner isLazy, motive inner → motive (optional inner isLazy))
    (repeated : ∀ element separator isLazy requiresMore, motive element →
      motive (repeated element separator isLazy requiresMore)) :
    ∀ pattern, motive pattern :=
  @Pattern.rec κ motive (fun nodes => ∀ node ∈ nodes, motive node) plain capture seq choice
    optional repeated (by simp)
    (fun _ _ first later => List.forall_mem_cons.mpr ⟨first, later⟩)

mutual

/-- The nodes of a pattern, itself among them. -/
def nodes : Pattern κ → List (Pattern κ)
  | plain regex => [plain regex]
  | capture key inner => capture key inner :: inner.nodes
  | seq nodes => seq nodes :: nodesOfAll nodes
  | choice options => choice options :: nodesOfAll options
  | optional inner isLazy => optional inner isLazy :: inner.nodes
  | repeated element separator isLazy requiresMore =>
    repeated element separator isLazy requiresMore :: element.nodes

/-- The nodes of all patterns of a list. -/
def nodesOfAll : List (Pattern κ) → List (Pattern κ)
  | [] => []
  | node :: nodes => node.nodes ++ nodesOfAll nodes

end

/-- The nodes of patterns are those of each pattern. -/
theorem nodesOfAll_eq (patterns : List (Pattern κ)) :
    nodesOfAll patterns = patterns.flatMap nodes := by
  induction patterns with
  | nil => rfl
  | cons node patterns ih => rw [nodesOfAll, ih, List.flatMap_cons]

/-- Induction over a pattern all nodes of which satisfy a condition: what holds of a node that
satisfies it whenever it holds of the node's children holds of the pattern. -/
theorem induction_where {condition motive : Pattern κ → Prop}
    (plain : ∀ regex, condition (plain regex) → motive (plain regex))
    (capture : ∀ key inner, motive inner → motive (capture key inner))
    (seq : ∀ nodes, (∀ node ∈ nodes, motive node) → motive (seq nodes))
    (choice : ∀ options, condition (choice options) → (∀ option ∈ options, motive option) →
      motive (choice options))
    (optional : ∀ inner isLazy, motive inner → motive (optional inner isLazy))
    (repeated : ∀ element separator isLazy requiresMore,
      condition (repeated element separator isLazy requiresMore) → motive element →
        motive (repeated element separator isLazy requiresMore))
    (pattern : Pattern κ) (each : ∀ node ∈ pattern.nodes, condition node) : motive pattern := by
  have ofAll {patterns : List (Pattern κ)} (each : ∀ node ∈ nodesOfAll patterns, condition node) :
      ∀ child ∈ patterns, ∀ node ∈ child.nodes, condition node := by
    intro child member node inside
    exact each node (nodesOfAll_eq patterns ▸ List.mem_flatMap.mpr ⟨child, member, inside⟩)
  induction pattern using induction_nodes with
  | plain regex => exact plain regex (each _ (.head _))
  | capture key inner ih =>
    exact capture key inner (ih (List.forall_mem_cons.mp each).2)
  | seq nodes ih =>
    have others := ofAll (List.forall_mem_cons.mp each).2
    exact seq nodes fun node member => ih node member (others node member)
  | choice options ih =>
    have others := ofAll (List.forall_mem_cons.mp each).2
    exact choice options (each _ (.head _)) fun option member =>
      ih option member (others option member)
  | optional inner isLazy ih =>
    exact optional inner isLazy (ih (List.forall_mem_cons.mp each).2)
  | repeated element separator isLazy requiresMore ih =>
    exact repeated element separator isLazy requiresMore (each _ (.head _))
      (ih (List.forall_mem_cons.mp each).2)

theorem isLocal_readingsInOrder {nodes : List (Pattern κ)}
    (isLocal : ∀ node ∈ nodes, node.readings.IsLocal) : (readingsInOrder nodes).IsLocal := by
  induction nodes with
  | nil => exact Readings.isLocal_stop
  | cons node nodes ih =>
    obtain ⟨first, later⟩ := List.forall_mem_cons.mp isLocal
    exact first.andThen (ih later)

theorem isLocal_readingsOfEither {options : List (Pattern κ)}
    (isLocal : ∀ option ∈ options, option.readings.IsLocal) :
    (readingsOfEither options).IsLocal := by
  induction options with
  | nil => exact Readings.isLocal_never
  | cons option options ih =>
    obtain ⟨first, later⟩ := List.forall_mem_cons.mp isLocal
    exact first.orElse (ih later)

/-- The readings of a pattern are local. -/
theorem isLocal_readings (pattern : Pattern κ) : pattern.readings.IsLocal := by
  induction pattern using induction_nodes with
  | plain regex => exact regex.isLocal_readings
  | capture key inner isLocal => exact isLocal.marked _
  | seq nodes isLocal => exact isLocal_readingsInOrder isLocal
  | choice options isLocal => exact isLocal_readingsOfEither isLocal
  | optional inner isLazy isLocal => exact isLocal.loop .optional isLazy
  | repeated element separator isLazy requiresMore isLocal =>
    exact isLocal.andThen ((separator.isLocal_readings.andThen isLocal).loop _ isLazy)

mutual

/-- Whether what a pattern is written as means what the pattern means: every choice has an
option, and every separator has no alternatives at its top level, which would divide what is
written around it, and does not match the empty text. -/
def isFaithful : Pattern κ → Bool
  | plain _ => true
  | capture _ inner => inner.isFaithful
  | seq nodes => allFaithful nodes
  | choice options => !options.isEmpty && allFaithful options
  | optional inner _ => inner.isFaithful
  | repeated element separator _ _ =>
    element.isFaithful && separator.isUndivided && !separator.isMatch []

/-- Whether all patterns of a list are written faithfully. -/
def allFaithful : List (Pattern κ) → Bool
  | [] => true
  | node :: nodes => node.isFaithful && allFaithful nodes

end

/-- Patterns are written faithfully just if each of them is. -/
theorem allFaithful_iff {nodes : List (Pattern κ)} :
    allFaithful nodes = true ↔ ∀ node ∈ nodes, node.isFaithful = true := by
  induction nodes with
  | nil => simp [allFaithful]
  | cons node nodes ih => simp [allFaithful, ih]

/-- A sequence is written faithfully just if its nodes are. -/
theorem isFaithful_seq {nodes : List (Pattern κ)} :
    (seq nodes).isFaithful = true ↔ ∀ node ∈ nodes, node.isFaithful = true :=
  allFaithful_iff

/-- A choice is written faithfully just if it has options and they are. -/
theorem isFaithful_choice {options : List (Pattern κ)} :
    (choice options).isFaithful = true ↔
      options ≠ [] ∧ ∀ option ∈ options, option.isFaithful = true := by
  rw [isFaithful, Bool.and_eq_true, allFaithful_iff, Bool.not_eq_true', List.isEmpty_eq_false_iff]

theorem groups_eq_map (nodes : List (Pattern κ)) : groups nodes = nodes.map regex := by
  induction nodes with
  | nil => rfl
  | cons node nodes ih => rw [groups, ih]; rfl

/-- Groups that are written after each other leave what the nodes leave in order. -/
theorem ends_spliceAll {nodes : List (Pattern κ)}
    (same : ∀ node ∈ nodes, (node.regex.readings : Readings β).ends = node.readings.ends) :
    ((Regex.spliceAll (groups nodes)).readings : Readings β).ends =
      (readingsInOrder nodes).ends := by
  have undivided : ∀ regex ∈ groups nodes, regex.isUndivided = true := by
    rw [groups_eq_map]
    intro regex member
    obtain ⟨node, -, rfl⟩ := List.mem_map.mp member
    rfl
  rw [(Regex.spliceAll_undivided undivided).2, groups_eq_map, List.foldr_map]
  clear undivided
  induction nodes with
  | nil => rfl
  | cons node nodes ih =>
    obtain ⟨first, later⟩ := List.forall_mem_cons.mp same
    exact Readings.ends_andThen_congr first (ih later)

/-- Groups with bars between them leave what the options leave. -/
theorem ends_oneOf {first : Pattern κ} {options : List (Pattern κ)}
    (same : ∀ option ∈ first :: options,
      (option.regex.readings : Readings β).ends = option.readings.ends) :
    ((Regex.oneOf (groups (first :: options))).readings : Readings β).ends =
      (readingsOfEither (first :: options)).ends := by
  induction options generalizing first with
  | nil =>
    rw [readingsOfEither, readingsOfEither, Readings.orElse_never]
    exact same first List.mem_cons_self
  | cons next options ih =>
    obtain ⟨here, later⟩ := List.forall_mem_cons.mp same
    exact Readings.ends_orElse_congr here (ih later)

/-- **A pattern and what it is written as.** They read the same beginnings of a text, in the
same order of preference. -/
theorem ends_regex (pattern : Pattern κ) (faithful : pattern.isFaithful = true) :
    (pattern.regex.readings : Readings β).ends = pattern.readings.ends := by
  induction pattern using induction_nodes with
  | plain regex => exact Regex.ends_readings regex
  | capture key inner same =>
    exact (same faithful).trans (Readings.ends_marked _ _).symm
  | seq nodes same =>
    have each := isFaithful_seq.mp faithful
    exact ends_spliceAll fun node member => same node member (each node member)
  | choice options same =>
    obtain ⟨nonempty, each⟩ := isFaithful_choice.mp faithful
    obtain ⟨first, options, rfl⟩ := List.exists_cons_of_ne_nil nonempty
    exact ends_oneOf fun option member => same option member (each option member)
  | optional inner isLazy same => exact Readings.ends_loop_congr (same faithful) _ isLazy
  | repeated element separator isLazy requiresMore same =>
    simp only [isFaithful, Bool.and_eq_true] at faithful
    obtain ⟨⟨faithfulElement, undivided⟩, -⟩ := faithful
    have sameElement := same faithfulElement
    have written : separator.splice (.group element.body) =
        separator.andThen (.group element.body) :=
      Regex.splice_eq_andThen undivided rfl
    simp only [regex, body, moreElements, written, Regex.readings, Regex.readings_andThen]
    exact Readings.ends_andThen_congr sameElement (Readings.ends_loop_congr
      (Readings.ends_andThen_congr (Regex.ends_readings separator) sameElement) _ isLazy)

end Pattern

end UriTemplates
