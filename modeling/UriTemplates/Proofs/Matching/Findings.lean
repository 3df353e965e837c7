import UriTemplates.Proofs.Binding.Agreement
import UriTemplates.Proofs.Matching.Contents

/-!
# Findings are made

Something is found at every occurrence of a variable, so what is captured of an expression never
fails to be read: it gives bindings, or it stems from no expansion (`Expression.exists_bindings`).
The same holds for all parts of a template together, and the bindings are for their variables in
order (`Template.exists_bindingsFrom`). So they can only contradict each other where a name occurs
twice (`Template.ofCaptures_of_bindings`).
-/

namespace UriTemplates

open Captures (textsAt)

/-- What is kept of a list still tells in order where it stems from. -/
theorem sublist_of_filterMap {α δ ε : Type} {keep : α → Option δ} {image : δ → ε}
    {origin : α → ε} {items : List α}
    (same : ∀ item ∈ items, ∀ kept, keep item = some kept → image kept = origin item) :
    ((items.filterMap keep).map image).Sublist (items.map origin) := by
  induction items with
  | nil => exact .slnil
  | cons item items ih =>
    obtain ⟨here, later⟩ := List.forall_mem_cons.mp same
    rw [List.filterMap_cons, List.map_cons]
    cases known : keep item with
    | none => exact (ih later).cons _
    | some kept =>
      rw [List.map_cons, here kept known]
      exact (ih later).cons_cons _

/-- Findings are made where each single one is. -/
theorem Binding.exists_findings? {operator : Operator} {part index : Nat} {evidence : Evidence}
    {hints : Hints} {occurrences : List Variable}
    (each : ∀ v ∈ occurrences.zipIdx index,
      ∃ found, finding operator part evidence hints v.2 v.1 = .ok found) :
    ∃ found, findings? operator part evidence hints index occurrences = .ok found := by
  induction occurrences generalizing index with
  | nil => exact ⟨_, rfl⟩
  | cons v rest ih =>
    rw [List.zipIdx_cons, List.forall_mem_cons] at each
    obtain ⟨⟨here, found⟩, others⟩ := each
    obtain ⟨later, foundLater⟩ := ih others
    rw [findings?, found]
    cases here with
    | impossible => exact ⟨none, rfl⟩
    | silent => exact ⟨_, by rw [foundLater]; rfl⟩
    | value value => exact ⟨_, by rw [foundLater]; rfl⟩

namespace Expression

variable {expression : Expression} {part : Nat} {hints : Hints} {captures : Captures Site}
  {text : Text} {marks : List (Site × Option Text)}

/-- **What is captured of an expression can be read**, if only as what stems from no
expansion. -/
theorem exists_bindings
    (derived : (patternOf expression.operator (expression.fields part hints)).readings.Derives text
      marks)
    (shown : ∀ site, site.part = part → textsAt captures site = textsAt marks site) :
    ∃ result, expression.bindings part (captures.evidence part) hints = .ok result := by
  have each : ∀ v ∈ expression.occurrences.zipIdx, ∃ found, Binding.finding expression.operator part
      (captures.evidence part) hints v.2 v.1 = .ok found := by
    intro v occurs
    obtain ⟨contents, shows⟩ := exists_contents derived shown
      (expression.field_mem_fields hints part (List.mem_zipIdx_iff_getElem?.mp occurs))
    exact shows.exists_finding hints
  obtain ⟨found, known⟩ := Binding.exists_findings? each
  rw [bindings, known]
  exact ⟨_, rfl⟩

/-- Bindings are made for the variables of the expression, in order. -/
theorem sublist_of_bindings {evidence : Evidence} {bindings : List Binding}
    (bound : expression.bindings part evidence hints = .ok (some bindings)) :
    (bindings.map Binding.occurrence).Sublist expression.occurrences := by
  obtain ⟨found, accepted, -, rfl⟩ := bindings_eq_some_iff.mp bound
  have occurrences : found.map Prod.fst = expression.occurrences := by
    have each := Binding.findings?_eq_some_iff.mp accepted
    have same : List.Forall₂ Eq (found.map Prod.fst)
        (expression.occurrences.zipIdx.map Prod.fst) := by
      rw [List.forall₂_map_left_iff, List.forall₂_map_right_iff]
      exact each.flip.imp fun _ _ known => known.1
    rw [List.forall₂_eq_eq_eq] at same
    rw [same, List.zipIdx_map_fst]
  rw [← occurrences]
  exact sublist_of_filterMap fun result _ binding known => by
    rw [Binding.ofFinding?_eq_some_iff.mp known]

end Expression

namespace Template

/-- **The bindings of what parts read.** They are made in any case, for the variables in order, and
no expression is without bindings if each of them has bindings by itself. The induction is on the
parts; each sees its own captures only. -/
theorem exists_bindingsFrom {parts : List Part} {index : Nat} {hints : Hints}
    {patterns : List (Pattern Site)} {text : Text} {marks : List (Site × Option Text)}
    {captures : Captures Site} (built : Part.patterns index hints parts = .ok patterns)
    (derived : (Pattern.seq patterns).readings.Derives text marks)
    (shown : ∀ site, index ≤ site.part → textsAt captures site = textsAt marks site) :
    ∃ result, bindingsFrom captures hints index parts = .ok result ∧
      (∀ bindings ∈ result,
        (bindings.map Binding.occurrence).Sublist (parts.flatMap Part.occurrences)) ∧
      ((∀ before expression after, parts = before ++ Part.expression expression :: after →
        ∃ bindings, expression.bindings (index + before.length)
          (captures.evidence (index + before.length)) hints = .ok (some bindings)) →
        result.isSome = true) := by
  induction parts generalizing index patterns text marks with
  | nil => exact ⟨some [], rfl, by simp, fun _ => rfl⟩
  | cons part parts ih =>
    obtain ⟨first, rest, rfl, here, later⟩ := Part.patterns_cons.mp built
    obtain ⟨front, back, before, after, rfl, rfl, read, readLater⟩ :=
      Pattern.derives_seq_cons.mp derived
    obtain ⟨shownHere, shownLater⟩ := Captures.agree_of_append (Part.part_of_derives here read)
      (Part.le_part_of_derives later readLater) shown
    obtain ⟨result, bound, sublist, isSome⟩ := ih later readLater shownLater
    have isSomeLater : (∀ before expression after,
        part :: parts = before ++ Part.expression expression :: after →
        ∃ bindings, expression.bindings (index + before.length)
          (captures.evidence (index + before.length)) hints = .ok (some bindings)) →
        result.isSome = true := by
      refine fun each => isSome fun before expression after same => ?_
      have given := each (part :: before) expression after (congrArg (part :: ·) same)
      rwa [List.length_cons, ← Nat.add_assoc, Nat.add_right_comm] at given
    cases part with
    | literal part => exact ⟨result, bound, sublist, isSomeLater⟩
    | expression part =>
      obtain ⟨-, rfl⟩ := Expression.pattern_eq_ok_iff.mp here
      obtain ⟨outcome, boundHere⟩ := Expression.exists_bindings read shownHere
      have known : bindingsFrom captures hints index (.expression part :: parts) =
          .ok (outcome.bind fun bindings => result.map (bindings ++ ·)) := by
        rw [bindingsFrom, boundHere]
        cases outcome with
        | none => rfl
        | some bindings =>
          simp only [bind, Except.bind, bound]
          rfl
      refine ⟨_, known, ?_, ?_⟩
      · intro bindings member
        obtain ⟨bindingsHere, rfl, put⟩ := Option.bind_eq_some_iff.mp member
        obtain ⟨bindingsLater, rfl, rfl⟩ := Option.map_eq_some_iff.mp put
        rw [List.map_append, List.flatMap_cons]
        exact (Expression.sublist_of_bindings boundHere).append (sublist bindingsLater rfl)
      · intro each
        obtain ⟨bindingsHere, given⟩ := each [] part parts rfl
        obtain rfl := Except.ok.inj (boundHere.symm.trans given)
        obtain ⟨bindingsLater, rfl⟩ := Option.isSome_iff_exists.mp (isSomeLater each)
        rfl

/-- Bindings that are made in the order of their variables give a match, unless a name that occurs
twice has bindings that contradict each other. -/
theorem ofCaptures_of_bindings {template : Template} {hints : Hints} {captures : Captures Site}
    {bindings : List Binding}
    (bound : bindingsFrom captures hints 0 template.parts = .ok (some bindings))
    (inOrder : (bindings.map Binding.occurrence).Sublist template.occurrences) :
    (∃ found, template.ofCaptures hints (some captures) = .ok (some found)) ∨
      ∃ name, template.ofCaptures hints (some captures) = .error (.inconsistentBinding name) ∧
        2 ≤ (template.occurrences.map Variable.name).count name := by
  rw [ofCaptures, bound]
  cases merged : Bindings.ofList bindings with
  | ok kept =>
    refine .inl ⟨⟨template, kept⟩, ?_⟩
    simp only [bind, Except.bind, merged]
    rfl
  | error error =>
    obtain ⟨name, rfl, twice⟩ := Bindings.exists_of_ofList_eq_error merged
    refine .inr ⟨name, by simp only [bind, Except.bind, merged], ?_⟩
    have among := (inOrder.map Variable.name).count_le name
    rw [List.map_map] at among
    exact twice.trans among

end Template

end UriTemplates
