import UriTemplates.Proofs.Expansion.Language

/-!
# Expansion variable by variable

Where an operator writes its separator first, each contribution follows a separator of its own, so
an expression expands to the expansions of its variables one after the other
(`Expression.expand_flatten`), and an exploded list is written as its items would be
(`Operator.introduced_list`). A query only differs from its continuation in the character that it
starts with (`Operator.assemble_query`).
-/

namespace UriTemplates

/-- A text with another first character, if it has one. -/
def Text.startingWith (c : Char) : Text → Text
  | [] => []
  | _ :: rest => c :: rest

/-- The expression of a kind with a single variable. -/
def Expression.single (operator : Operator) (v : Variable) : Expression :=
  ⟨operator, [v], List.cons_ne_nil v []⟩

namespace Operator

/-- Whether an operator writes its separator before every contribution. -/
def introducesEach (operator : Operator) : Bool :=
  operator.first = [operator.separator]

variable {operator : Operator}

/-- What a variable contributes, with the separator before it. -/
def introduced (operator : Operator) (contributed : Option Text) : Text :=
  operator.assemble contributed.toList

/-- An operator that introduces every contribution writes its separator before each of them. -/
theorem assemble_of_introducesEach (each : operator.introducesEach = true)
    (contributions : List Text) :
    operator.assemble contributions = contributions.flatMap (operator.separator :: ·) := by
  cases contributions with
  | nil => rfl
  | cons first later =>
    have starts : operator.first = [operator.separator] := of_decide_eq_true each
    simp [assemble, starts, Text.joined_cons_eq, List.flatMap_def]

/-- Contributions are put together as they are introduced one by one. -/
theorem assemble_flatten (each : operator.introducesEach = true)
    (contributions : List (Option Text)) :
    operator.assemble (contributions.filterMap id) =
      (contributions.map operator.introduced).flatten := by
  induction contributions with
  | nil => rfl
  | cons contributed contributions ih =>
    rw [List.map_cons, List.flatten_cons, ← ih, introduced]
    cases contributed <;> simp [assemble_of_introducesEach each]

/-- A query and its continuation only differ in their first character. -/
theorem assemble_query (contributions : List Text) :
    query.assemble contributions = (continuation.assemble contributions).startingWith '?' := by
  cases contributions <;> rfl

/-- A variable contributes the same to a query as to the continuation of one. -/
theorem contribution_query (v : Variable) (value : Value) :
    query.contribution v value = continuation.contribution v value := by
  cases value <;> rfl

/-- Without names, the items of an exploded list are introduced as texts are. -/
theorem introduced_list (each : operator.introducesEach = true) (unnamed : operator.isNamed = false)
    {v : Variable} (exploded : v.isExploded = true) {items : List Text} {contributed : Option Text}
    (accepted : operator.contribution v (.list items) = .ok contributed) :
    operator.introduced contributed =
      (items.map fun item => operator.introduced (some (operator.encode item))).flatten := by
  have bare : operator.withName v.name = id := by
    funext text
    simp [withName, unnamed]
  simp only [contribution] at accepted
  split_ifs at accepted with truncated empty
  · cases accepted
    rw [List.isEmpty_iff.mp empty]
    rfl
  · cases accepted
    obtain ⟨first, later, rfl⟩ := List.exists_cons_of_ne_nil (List.isEmpty_eq_false_iff.mp
      (Bool.eq_false_iff.mpr empty))
    simp [introduced, assemble_of_introducesEach each, listContribution, exploded, bare,
      Text.joined_cons_eq, Function.comp_def]

/-- A text that is not truncated is introduced encoded. -/
theorem contribution_text (unnamed : operator.isNamed = false) {v : Variable}
    (whole : v.length? = none) (text : Text) :
    operator.contribution v (.text text) = .ok (some (operator.encode text)) := by
  simp [contribution, textContribution, whole, withName, unnamed]

/-- A value contributes something unless it is a list or a map under a truncation. -/
theorem exists_contribution {v : Variable} {value : Value}
    (whole : v.length?.isSome = true → value = .undefined ∨ ∃ text, value = .text text) :
    ∃ contributed, operator.contribution v value = .ok contributed := by
  by_cases truncated : v.length?.isSome = true
  · rcases whole truncated with rfl | ⟨text, rfl⟩
    · exact ⟨_, rfl⟩
    · exact ⟨_, rfl⟩
  · cases value with
    | undefined => exact ⟨_, rfl⟩
    | text text => exact ⟨_, rfl⟩
    | list items =>
      simp only [contribution, if_neg truncated]
      split_ifs <;> exact ⟨_, rfl⟩
    | map map =>
      simp only [contribution, if_neg truncated]
      split_ifs <;> exact ⟨_, rfl⟩

end Operator

namespace Expression

variable {operator : Operator} {environment others : Environment} {occurrences : List Variable}

/-- The contributions of variables in an environment. -/
abbrev Contribute (operator : Operator) (environment : Environment) (occurrences : List Variable)
    (contributions : List (Option Text)) : Prop :=
  List.Forall₂ (fun v contributed =>
    operator.contribution v (environment.value v.name) = .ok contributed) occurrences contributions

/-- The variables of an expression contribute something unless one of them is truncated and a list
or a map. -/
theorem exists_contribute (operator : Operator)
    (whole : ∀ v ∈ occurrences, v.length?.isSome = true →
      environment.value v.name = .undefined ∨ ∃ text, environment.value v.name = .text text) :
    ∃ contributions, Contribute operator environment occurrences contributions := by
  simp only [Contribute, ← mapM_eq_ok_iff, exists_mapM_eq_ok_iff]
  intro v occurs
  exact operator.exists_contribution (whole v occurs)

/-- An expression expands to what the contributions of its variables assemble to. -/
theorem expand_of_contribute (nonempty : occurrences ≠ []) {contributions : List (Option Text)}
    (accepted : Contribute operator environment occurrences contributions) :
    expand environment ⟨operator, occurrences, nonempty⟩ =
      .ok (operator.assemble (contributions.filterMap id)) :=
  expand_eq_ok_iff.mpr ⟨contributions, mapM_eq_ok_iff.mpr accepted, rfl⟩

/-- An expression of one variable expands to what the variable contributes, introduced by the
operator. -/
theorem expand_single {v : Variable} {contributed : Option Text}
    (accepted : operator.contribution v (environment.value v.name) = .ok contributed) :
    expand environment (single operator v) = .ok (operator.introduced contributed) := by
  refine (expand_of_contribute (List.cons_ne_nil v []) (.cons accepted .nil)).trans ?_
  cases contributed <;> rfl

/-- Where contributions are introduced one by one, an expression expands to them. -/
theorem expand_flatten (each : operator.introducesEach = true) (nonempty : occurrences ≠ [])
    {contributions : List (Option Text)}
    (accepted : Contribute operator environment occurrences contributions) :
    expand environment ⟨operator, occurrences, nonempty⟩ =
      .ok (contributions.map operator.introduced).flatten := by
  rw [expand_of_contribute nonempty accepted, operator.assemble_flatten each]

/-- The texts that an exploded list stands for, as variables of their own. -/
theorem contribute_texts (unnamed : operator.isNamed = false) {scalars : List Variable}
    {items : List Text}
    (bound : List.Forall₂ (fun w item => w.length? = none ∧ others.value w.name = .text item)
      scalars items) :
    Contribute operator others scalars (items.map fun item => some (operator.encode item)) := by
  rw [Contribute, List.forall₂_map_right_iff]
  refine bound.imp fun w item ⟨whole, known⟩ => ?_
  rw [known, operator.contribution_text unnamed whole]

/-- Contributions only depend on the values of the variables that occur. -/
theorem contribute_congr {contributions : List (Option Text)}
    (same : ∀ v ∈ occurrences, others.value v.name = environment.value v.name)
    (accepted : Contribute operator environment occurrences contributions) :
    Contribute operator others occurrences contributions := by
  rw [Contribute, List.forall₂_iff_zip] at accepted ⊢
  refine ⟨accepted.1, fun {v contributed} member => ?_⟩
  rw [same v (List.of_mem_zip member).1]
  exact accepted.2 member

/-- **Expressions distribute over their variables.** Where no list or map is truncated, labels, path
segments, path parameters and continuations of queries expand to the expansions of their variables
one after the other; a query expands to what its continuation expands to, starting with a question
mark; and in labels and path segments an exploded list may be replaced by variables that have its
items as texts. -/
theorem expand_distributes (nonempty : occurrences ≠ [])
    (whole : ∀ v ∈ occurrences, v.length?.isSome = true →
      environment.value v.name = .undefined ∨ ∃ text, environment.value v.name = .text text) :
    (∀ operator ∈ [Operator.label, .path, .parameter, .continuation], ∃ texts,
      List.Forall₂ (fun v text => expand environment (single operator v) = .ok text)
          occurrences texts ∧
        expand environment ⟨operator, occurrences, nonempty⟩ = .ok texts.flatten) ∧
    (∃ text, expand environment ⟨.continuation, occurrences, nonempty⟩ = .ok text ∧
      expand environment ⟨.query, occurrences, nonempty⟩ = .ok (text.startingWith '?')) ∧
    ∀ operator ∈ [Operator.label, .path], ∀ before v after items,
      occurrences = before ++ v :: after → v.isExploded = true →
        environment.value v.name = .list items → ∀ (others : Environment) (scalars : List Variable)
          (some_ : before ++ scalars ++ after ≠ []),
          List.Forall₂ (fun w item => w.length? = none ∧ others.value w.name = .text item)
            scalars items →
          (∀ w ∈ before ++ after, others.value w.name = environment.value w.name) →
            expand environment ⟨operator, occurrences, nonempty⟩ =
              expand others ⟨operator, before ++ scalars ++ after, some_⟩ := by
  refine ⟨?_, ?_, ?_⟩
  · intro operator member
    have each : operator.introducesEach = true := by
      simp only [List.mem_cons, List.not_mem_nil, or_false] at member
      rcases member with rfl | rfl | rfl | rfl <;> decide
    obtain ⟨contributions, accepted⟩ := exists_contribute operator whole
    refine ⟨contributions.map operator.introduced, ?_, expand_flatten each nonempty accepted⟩
    rw [List.forall₂_map_right_iff]
    exact accepted.imp fun v contributed => expand_single
  · obtain ⟨contributions, accepted⟩ := exists_contribute .continuation whole
    have acceptedQuery : Contribute .query environment occurrences contributions :=
      accepted.imp fun v contributed known => (Operator.contribution_query v _).trans known
    refine ⟨_, expand_of_contribute nonempty accepted, ?_⟩
    rw [expand_of_contribute nonempty acceptedQuery, Operator.assemble_query]
  · rintro operator member before v after items rfl exploded listed others scalars some_ bound same
    have each : operator.introducesEach = true ∧ operator.isNamed = false := by
      simp only [List.mem_cons, List.not_mem_nil, or_false] at member
      rcases member with rfl | rfl <;> decide
    obtain ⟨sameBefore, sameAfter⟩ := List.forall_mem_append.mp same
    obtain ⟨wholeBefore, wholeLater⟩ := List.forall_mem_append.mp whole
    obtain ⟨wholeHere, wholeAfter⟩ := List.forall_mem_cons.mp wholeLater
    obtain ⟨front, first⟩ := exists_contribute operator wholeBefore
    obtain ⟨contributed, here⟩ := operator.exists_contribution wholeHere
    obtain ⟨back, last⟩ := exists_contribute operator wholeAfter
    have replaced := contribute_texts each.2 bound
    rw [expand_flatten each.1 nonempty (List.rel_append first (.cons here last)),
      expand_flatten each.1 some_ (List.rel_append
        (List.rel_append (contribute_congr sameBefore first) replaced)
        (contribute_congr sameAfter last))]
    rw [listed] at here
    simp [Operator.introduced_list each.1 each.2 exploded here, Function.comp_def]

/-- Path segments with a truncated text, an undefined variable and an exploded list whose last item
is empty, and the same segments with a variable for each item. -/
theorem expand_distributes_segments :
    let x : Variable := ⟨['x'], .truncated 1, rfl, rfl⟩
    let u : Variable := ⟨['u'], .truncated 1, rfl, rfl⟩
    let s : Variable := ⟨['s'], .exploded, rfl, rfl⟩
    let y : Variable := ⟨['y'], .plain, rfl, rfl⟩
    let z : Variable := ⟨['z'], .plain, rfl, rfl⟩
    let environment : Environment :=
      ⟨[(['x'], .text ['a', 'b']), (['s'], .list [['c'], []])], by decide⟩
    let others : Environment :=
      ⟨[(['x'], .text ['a', 'b']), (['y'], .text ['c']), (['z'], .text [])], by decide⟩
    expand environment ⟨.path, [x, u, s], by simp⟩ = .ok ['/', 'a', '/', 'c', '/'] ∧
      expand environment ⟨.path, [x, u, s], by simp⟩ =
        expand others ⟨.path, [x, u, y, z], by simp⟩ ∧
      ∃ text, expand environment ⟨.continuation, [x, u, s], by simp⟩ = .ok text ∧
        expand environment ⟨.query, [x, u, s], by simp⟩ = .ok (text.startingWith '?') := by
  intro x u s y z environment others
  have whole : ∀ v ∈ [x, u, s], v.length?.isSome = true →
      environment.value v.name = .undefined ∨ ∃ text, environment.value v.name = .text text := by
    simp only [List.forall_mem_cons, List.not_mem_nil, IsEmpty.forall_iff, implies_true, and_true]
    exact ⟨fun _ => .inr ⟨['a', 'b'], rfl⟩, fun _ => .inl rfl, fun truncated => nomatch truncated⟩
  obtain ⟨-, query, list⟩ := expand_distributes (by simp) whole
  exact ⟨rfl, list .path (by simp) [x, u] s [] [['c'], []] rfl rfl rfl others [y, z] (by simp)
    (.cons ⟨rfl, rfl⟩ (.cons ⟨rfl, rfl⟩ .nil)) (by decide), query⟩

end Expression

end UriTemplates
