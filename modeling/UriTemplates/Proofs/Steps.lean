import Mathlib.Data.List.Forall2
import Mathlib.Data.List.Perm.Basic
import Mathlib.Tactic.Tauto

/-!
# Successful steps

Two steps succeed where the second succeeds with what the first gives (`bind_eq_ok_iff`). The
steps of a traversal succeed each on its own (`mapM_eq_ok_iff`), and if each of them does, so
does the traversal (`exists_mapM_eq_ok_iff`). The same holds of steps that give a result or none,
and so a traversal in another order gives the same results in another order (`mapM_of_perm`).
-/

namespace UriTemplates

variable {α β ε : Type}

/-- Two steps succeed where the second succeeds with what the first gives. -/
theorem bind_eq_ok_iff {step : Except ε α} {next : α → Except ε β} {result : β} :
    (step >>= next) = .ok result ↔ ∃ given, step = .ok given ∧ next given = .ok result := by
  cases step <;> simp [bind, Except.bind]

theorem return_eq_ok_iff {given result : α} :
    (pure given : Except ε α) = .ok result ↔ given = result := by
  simp [pure, Except.pure]

/-- Two steps fail where the first fails, or the second with what the first gives. -/
theorem bind_eq_error_iff {step : Except ε α} {next : α → Except ε β} {error : ε} :
    (step >>= next) = .error error ↔
      step = .error error ∨ ∃ given, step = .ok given ∧ next given = .error error := by
  cases step <;> simp [bind, Except.bind]

/-- A step is taken for all items if it is for the first and then for the others. -/
theorem mapM_cons_eq_ok_iff {step : α → Except ε β} {item : α} {items : List α}
    {results : List β} :
    (item :: items).mapM step = .ok results ↔ ∃ first rest, step item = .ok first ∧
      items.mapM step = .ok rest ∧ results = first :: rest := by
  simp only [List.mapM_cons, bind_eq_ok_iff, return_eq_ok_iff]
  constructor
  · rintro ⟨first, here, rest, later, rfl⟩
    exact ⟨first, rest, here, later, rfl⟩
  · rintro ⟨first, rest, here, later, rfl⟩
    exact ⟨first, here, rest, later, rfl⟩

/-- A successful traversal is pointwise. -/
theorem mapM_eq_ok_iff {step : α → Except ε β} {items : List α} {results : List β} :
    items.mapM step = .ok results ↔
      List.Forall₂ (fun item result => step item = .ok result) items results := by
  induction items generalizing results with
  | nil => cases results <;> simp [return_eq_ok_iff]
  | cons item items ih =>
    rw [mapM_cons_eq_ok_iff, List.forall₂_cons_left_iff]
    simp only [ih]

/-- Steps that only give images give the images of all items. -/
theorem eq_map_of_mapM {step : α → Except ε β} {image : α → β} {items : List α}
    {results : List β}
    (agree : ∀ item ∈ items, ∀ result, step item = .ok result → result = image item)
    (accepted : items.mapM step = .ok results) : results = items.map image := by
  have pointwise := mapM_eq_ok_iff.mp accepted
  induction pointwise with
  | nil => rfl
  | cons first later ih =>
    obtain ⟨here, others⟩ := List.forall_mem_cons.mp agree
    rw [List.map_cons, here _ first, ih others (mapM_eq_ok_iff.mpr later)]

theorem exists_of_forall₂ {related : α → β → Prop} {xs : List α} {ys : List β}
    (pointwise : List.Forall₂ related xs ys) : ∀ x ∈ xs, ∃ y, related x y := by
  induction pointwise with
  | nil => simp
  | cons first _ ih => exact List.forall_mem_cons.mpr ⟨⟨_, first⟩, ih⟩

/-- What a traversal gives is given by one of its steps. -/
theorem exists_of_mem_mapM {step : α → Except ε β} {items : List α} {results : List β}
    (accepted : items.mapM step = .ok results) :
    ∀ result ∈ results, ∃ item, step item = .ok result :=
  exists_of_forall₂ (mapM_eq_ok_iff.mp accepted).flip

/-- A traversal succeeds where every step does. -/
theorem exists_mapM_eq_ok_iff {step : α → Except ε β} {items : List α} :
    (∃ results, items.mapM step = .ok results) ↔
      ∀ item ∈ items, ∃ result, step item = .ok result := by
  simp only [mapM_eq_ok_iff]
  constructor
  · rintro ⟨results, pointwise⟩
    exact exists_of_forall₂ pointwise
  · intro each
    induction items with
    | nil => exact ⟨[], .nil⟩
    | cons item items ih =>
      obtain ⟨⟨first, here⟩, later⟩ := List.forall_mem_cons.mp each
      obtain ⟨results, pointwise⟩ := ih later
      exact ⟨first :: results, .cons here pointwise⟩

/-- A traversal by steps that give a result or none is pointwise. -/
theorem mapM_eq_some_iff {step : α → Option β} {items : List α} {results : List β} :
    items.mapM step = some results ↔
      List.Forall₂ (fun item result => step item = some result) items results := by
  induction items generalizing results with
  | nil => cases results <;> simp
  | cons item items ih =>
    rw [List.mapM_cons, List.forall₂_cons_left_iff]
    simp only [Option.bind_eq_bind, Option.bind_eq_some_iff, Option.pure_def, Option.some.injEq,
      ih]
    constructor
    · rintro ⟨first, here, rest, later, rfl⟩
      exact ⟨first, rest, here, later, rfl⟩
    · rintro ⟨first, rest, here, later, rfl⟩
      exact ⟨first, here, rest, later, rfl⟩

/-- A traversal that undoes an image gives what it is the image of. -/
theorem mapM_map_eq_some {step : β → Option α} {image : α → β} {items : List α}
    (undone : ∀ item ∈ items, step (image item) = some item) :
    (items.map image).mapM step = some items := by
  rw [mapM_eq_some_iff, List.forall₂_map_left_iff, List.forall₂_same]
  exact undone

/-- A traversal gives results where every step gives one. -/
theorem isSome_mapM_iff {step : α → Option β} {items : List α} :
    (items.mapM step).isSome = true ↔ ∀ item ∈ items, (step item).isSome = true := by
  induction items with
  | nil => simp
  | cons item items ih =>
    rw [List.mapM_cons, List.forall_mem_cons, ← ih]
    cases step item <;> cases items.mapM step <;> simp

/-- **A traversal in another order** gives the same results in another order. -/
theorem mapM_of_perm {step : α → Option β} {items others : List α} (perm : items.Perm others)
    {results : List β} (read : items.mapM step = some results) :
    ∃ moved, others.mapM step = some moved ∧ results.Perm moved := by
  obtain ⟨moved, pointwise, same⟩ := List.perm_comp_forall₂ perm.symm (mapM_eq_some_iff.mp read)
  exact ⟨moved, mapM_eq_some_iff.mpr pointwise, same.symm⟩

/-- If what is related to an item is its image, then items are related one by one to their images.
-/
theorem forall₂_iff_eq_map {related : α → β → Prop} {image : α → β}
    {able : β → Prop} {xs : List α} {ys : List β}
    (each : ∀ x ∈ xs, ∀ y, related x y ↔ y = image x ∧ able y) :
    List.Forall₂ related xs ys ↔ ys = xs.map image ∧ ∀ y ∈ ys, able y := by
  induction xs generalizing ys with
  | nil => cases ys <;> simp
  | cons x xs ih =>
    obtain ⟨here, later⟩ := List.forall_mem_cons.mp each
    cases ys with
    | nil => simp
    | cons y ys =>
      rw [List.forall₂_cons, here y, ih later, List.map_cons, List.cons.injEq,
        List.forall_mem_cons]
      tauto

/-- Whether two results are the same error or are both good and related. -/
inductive SameOutcome {α β ε : Type} (related : α → β → Prop) : Except ε α → Except ε β → Prop
  /-- The same error. -/
  | error (error : ε) : SameOutcome related (.error error) (.error error)
  /-- Two good results. -/
  | ok {first : α} {second : β} (good : related first second) :
    SameOutcome related (.ok first) (.ok second)

namespace SameOutcome

variable {γ δ : Type} {related : α → β → Prop} {relatedNext : γ → δ → Prop}

/-- Steps that go on alike from related results have the same outcome. -/
theorem bind {step : Except ε α} {other : Except ε β} {next : α → Except ε γ}
    {otherNext : β → Except ε δ} (same : SameOutcome related step other)
    (going : ∀ first second, related first second →
      SameOutcome relatedNext (next first) (otherNext second)) :
    SameOutcome relatedNext (step >>= next) (other >>= otherNext) := by
  cases same with
  | error error => exact .error error
  | ok good => exact going _ _ good

/-- Two traversals whose steps have the same outcomes have the same outcome. -/
theorem mapM {step : γ → Except ε α} {other : γ → Except ε β} {items : List γ}
    (each : ∀ item ∈ items, SameOutcome related (step item) (other item)) :
    SameOutcome (List.Forall₂ related) (items.mapM step) (items.mapM other) := by
  induction items with
  | nil => exact .ok .nil
  | cons item items ih =>
    obtain ⟨here, later⟩ := List.forall_mem_cons.mp each
    rw [List.mapM_cons, List.mapM_cons]
    refine here.bind fun first second good => ?_
    exact (ih later).bind fun rest others more => .ok (.cons good more)

end SameOutcome

end UriTemplates
