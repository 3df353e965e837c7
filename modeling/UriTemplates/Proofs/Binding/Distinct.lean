import Mathlib.Data.List.Nodup
import UriTemplates.Binding.Merged
import UriTemplates.Proofs.OrderedMap

/-!
# Bindings of distinct names

Where no name is bound twice, nothing is merged: the bindings by name are the bindings in
order (`Bindings.ofList_of_nodup`), and every variable has the value of its own finding
(`Bindings.value_of_findings`).
-/

namespace UriTemplates

open Binding (Finding ofFinding?)

/-- The value that a finding gives. -/
def Binding.Finding.toValue : Binding.Finding → Value
  | .value known => known
  | _ => .undefined

/-- A binding stems from a finding if the finding is its value and is made for its occurrence. -/
theorem Binding.ofFinding?_eq_some_iff {result : Variable × Finding} {binding : Binding} :
    ofFinding? result = some binding ↔ result = (binding.occurrence, .value binding.value) := by
  obtain ⟨v, finding⟩ := result
  obtain ⟨occurrence, value⟩ := binding
  cases finding <;> simp [ofFinding?]

/-- A finding that binds nothing has no value. -/
theorem Binding.toValue_of_ofFinding? {result : Variable × Finding}
    (unbound : ofFinding? result = none) : result.2.toValue = .undefined := by
  obtain ⟨v, finding⟩ := result
  cases finding with
  | value value => cases unbound
  | silent => rfl
  | impossible => rfl

/-- Bindings have distinct names if the findings do. -/
theorem Binding.nodup_ofFinding? {findings : List (Variable × Finding)}
    (distinct : (findings.map fun result => result.1.name).Nodup) :
    ((findings.filterMap ofFinding?).map fun binding => binding.occurrence.name).Nodup := by
  rw [List.map_filterMap]
  refine (List.Sublist.nodup ?_ distinct)
  induction findings with
  | nil => simp
  | cons result findings ih =>
    have later := ih (List.nodup_cons.mp distinct).2
    rw [List.filterMap_cons, List.map_cons]
    cases outcome : ofFinding? result with
    | none => exact later.cons _
    | some binding =>
      rw [ofFinding?_eq_some_iff.mp outcome]
      exact later.cons_cons _

namespace Bindings

/-- The name of a binding and the binding. -/
def entry (binding : Binding) : Text × Binding :=
  (binding.occurrence.name, binding)

/-- A binding whose name is new is put among the others as it is. -/
theorem add_of_notMem {bindings : Bindings} {binding : Binding}
    (new : binding.occurrence.name ∉ bindings.keys) :
    bindings.add binding = .ok (bindings.insert binding.occurrence.name binding) := by
  have absent : bindings.get? binding.occurrence.name = none :=
    OrderedMap.lookup_eq_none_iff.mpr new
  rw [add, absent]

/-- **Bindings of distinct names are kept as they are.** -/
theorem ofList_of_nodup {bindings : List Binding}
    (distinct : (bindings.map fun binding => binding.occurrence.name).Nodup) :
    ∃ merged, ofList bindings = .ok merged ∧ merged.entries = bindings.map entry := by
  have general : ∀ (bindings : List Binding) (start : Bindings),
      (start.keys ++ bindings.map fun binding => binding.occurrence.name).Nodup →
      ∃ merged, bindings.foldlM add start = .ok merged ∧
        merged.entries = start.entries ++ bindings.map entry := by
    intro bindings
    induction bindings with
    | nil =>
      intro start _
      exact ⟨start, rfl, (List.append_nil _).symm⟩
    | cons binding bindings ih =>
      intro start distinct
      rw [List.map_cons] at distinct
      have new : binding.occurrence.name ∉ start.keys := fun known =>
        (List.nodup_append.mp distinct).2.2 _ known _ List.mem_cons_self rfl
      have keys : (start.insert binding.occurrence.name binding).keys =
          start.keys ++ [binding.occurrence.name] := by
        rw [OrderedMap.keys_insert, if_neg new]
      obtain ⟨merged, folded, entries⟩ := ih (start.insert binding.occurrence.name binding)
        (by rwa [keys, List.append_assoc, List.singleton_append])
      refine ⟨merged, ?_, ?_⟩
      · rw [List.foldlM_cons, add_of_notMem new]
        exact folded
      · rw [entries, OrderedMap.entries_insert_of_notMem new, List.append_assoc]
        rfl
  exact general bindings .empty (by simpa [OrderedMap.keys, OrderedMap.empty] using distinct)

/-- What is kept of one binding. -/
theorem values_of_single {v : Variable} {value : Value} {kept : Bindings}
    (merged : Bindings.ofList [⟨v, value⟩] = .ok kept) :
    kept.values.entries = [(v.name, value)] ∧ kept.values.value v.name = value := by
  have alone : ([⟨v, value⟩].map fun binding : Binding => binding.occurrence.name).Nodup :=
    List.nodup_singleton _
  obtain ⟨other, put, values⟩ := ofList_of_nodup alone
  obtain rfl : other = kept := Except.ok.inj (put.symm.trans merged)
  have entries : other.values.entries = [(v.name, value)] := by
    simp only [Bindings.values, OrderedMap.mapValues, values]
    rfl
  have known : other.values.get? v.name = some value :=
    OrderedMap.get?_eq_some_iff.mpr (by rw [entries]; exact List.mem_singleton_self _)
  exact ⟨entries, by rw [Environment.value, known, Option.getD_some]⟩

/-- A variable has the value that was found for it. -/
theorem value_of_findings {findings : List (Variable × Finding)} {merged : Bindings}
    (distinct : (findings.map fun result => result.1.name).Nodup)
    (entries : merged.entries = (findings.filterMap ofFinding?).map entry) :
    ∀ result ∈ findings, Environment.value merged.values result.1.name = result.2.toValue := by
  have values : merged.values.entries = findings.filterMap fun result =>
      (ofFinding? result).map fun binding => (binding.occurrence.name, binding.value) := by
    simp only [Bindings.values, OrderedMap.mapValues, entries, List.map_filterMap, Option.map_map]
    rfl
  intro result member
  rw [Environment.value, OrderedMap.get?]
  cases outcome : ofFinding? result with
  | some binding =>
    have found : (binding.occurrence.name, binding.value) ∈ merged.values.entries := by
      rw [values, List.mem_filterMap]
      exact ⟨result, member, by rw [outcome, Option.map_some]⟩
    obtain rfl := Binding.ofFinding?_eq_some_iff.mp outcome
    rw [OrderedMap.lookup_of_mem merged.values.distinct found]
    rfl
  | none =>
    have absent : result.1.name ∉ merged.values.entries.map Prod.fst := by
      intro known
      obtain ⟨⟨name, value⟩, found, rfl⟩ := List.mem_map.mp known
      rw [values, List.mem_filterMap] at found
      obtain ⟨other, among, same⟩ := found
      obtain ⟨binding, bound, same⟩ := Option.map_eq_some_iff.mp same
      have names : other.1.name = result.1.name := by
        rw [Binding.ofFinding?_eq_some_iff.mp bound]
        exact congrArg Prod.fst same
      rw [← List.inj_on_of_nodup_map distinct among member names, bound] at outcome
      cases outcome
    rw [OrderedMap.lookup_eq_none_iff.mpr absent, Binding.toValue_of_ofFinding? outcome]
    rfl

end Bindings

end UriTemplates
