import Mathlib.Data.List.Basic
import UriTemplates.OrderedMap

/-!
# Looking up and putting

A look-up finds the value of the entry under a key, and fails just where the key has none. A value
under a new key comes last, and one under a present key takes the place of the old one.
-/

namespace UriTemplates

namespace OrderedMap

variable {κ α : Type}

theorem ext_entries {first second : OrderedMap κ α} (same : first.entries = second.entries) :
    first = second := by
  cases first
  cases second
  cases same
  rfl

variable [DecidableEq κ]

/-- Nothing is found just under the keys that no entry has. -/
theorem lookup_eq_none_iff {key : κ} {entries : List (κ × α)} :
    lookup key entries = none ↔ key ∉ entries.map Prod.fst := by
  induction entries with
  | nil => simp [lookup]
  | cons entry rest ih =>
    obtain ⟨other, value⟩ := entry
    rw [lookup, List.map_cons, List.mem_cons]
    split
    · rename_i same
      simp [same]
    · rename_i differs
      simp [ih, Ne.symm differs]

/-- Where keys are distinct, an entry is what is found under its key. -/
theorem lookup_of_mem {key : κ} {value : α} {entries : List (κ × α)}
    (distinct : (entries.map Prod.fst).Nodup) (member : (key, value) ∈ entries) :
    lookup key entries = some value := by
  induction entries with
  | nil => cases member
  | cons entry rest ih =>
    obtain ⟨other, first⟩ := entry
    rw [List.map_cons, List.nodup_cons] at distinct
    rw [lookup]
    rcases List.mem_cons.mp member with same | later
    · cases same
      exact if_pos rfl
    · have differs : other ≠ key := by
        rintro rfl
        exact distinct.1 (List.mem_map.mpr ⟨_, later, rfl⟩)
      rw [if_neg differs, ih distinct.2 later]

/-- What a map has under a key is what the entry of the key holds. -/
theorem get?_eq_some_iff {map : OrderedMap κ α} {key : κ} {value : α} :
    map.get? key = some value ↔ (key, value) ∈ map.entries := by
  refine ⟨fun found => ?_, lookup_of_mem map.distinct⟩
  have known : key ∈ map.entries.map Prod.fst := by
    by_contra absent
    rw [get?, lookup_eq_none_iff.mpr absent] at found
    cases found
  obtain ⟨⟨_, other⟩, member, rfl⟩ := List.mem_map.mp known
  rw [get?, lookup_of_mem map.distinct member] at found
  cases found
  exact member

/-- With its values changed, a map has the changed value under a key. -/
theorem get?_mapValues {β : Type} (f : α → β) (map : OrderedMap κ α) (key : κ) :
    (map.mapValues f).get? key = (map.get? key).map f := by
  obtain ⟨entries, distinct⟩ := map
  simp only [get?, mapValues]
  clear distinct
  induction entries with
  | nil => rfl
  | cons entry entries ih =>
    obtain ⟨other, value⟩ := entry
    rw [List.map_cons, lookup, lookup]
    split
    · rfl
    · exact ih

/-- A new key is appended with its value. -/
theorem put_of_notMem {key : κ} {value : α} {entries : List (κ × α)}
    (new : key ∉ entries.map Prod.fst) : put key value entries = entries ++ [(key, value)] := by
  induction entries with
  | nil => rfl
  | cons entry rest ih =>
    obtain ⟨other, old⟩ := entry
    rw [List.map_cons, List.mem_cons, not_or] at new
    rw [put, if_neg (Ne.symm new.1), ih new.2, List.cons_append]

/-- A value is put in the place of the one under its key, if there is one, and else at the end. -/
theorem put_eq {key : κ} {value : α} {entries : List (κ × α)}
    (distinct : (entries.map Prod.fst).Nodup) :
    put key value entries =
      if key ∈ entries.map Prod.fst then
        entries.map fun entry => if entry.1 = key then (entry.1, value) else entry
      else entries ++ [(key, value)] := by
  split_ifs with present
  · induction entries with
    | nil => cases present
    | cons entry rest ih =>
      obtain ⟨other, old⟩ := entry
      obtain ⟨apart, distinct⟩ := List.nodup_cons.mp distinct
      rw [put, List.map_cons]
      split_ifs with same
      · subst same
        congr 1
        refine ((List.map_congr_left fun entry member => if_neg ?_).trans (List.map_id rest)).symm
        rintro rfl
        exact apart (List.mem_map.mpr ⟨entry, member, rfl⟩)
      · rw [ih distinct ((List.mem_cons.mp present).resolve_left (Ne.symm same))]
  · exact put_of_notMem present

/-- Putting a value under a key leaves the other entries as they are. -/
theorem mem_of_mem_put {key : κ} {value : α} {entry : κ × α} {entries : List (κ × α)}
    (member : entry ∈ put key value entries) : entry = (key, value) ∨ entry ∈ entries := by
  induction entries with
  | nil => exact .inl (List.mem_singleton.mp member)
  | cons first rest ih =>
    rw [put] at member
    split at member
    · rename_i same
      subst same
      rcases List.mem_cons.mp member with new | later
      · exact .inl new
      · exact .inr (List.mem_cons_of_mem _ later)
    · rcases List.mem_cons.mp member with same | later
      · exact .inr (same ▸ List.mem_cons_self)
      · exact (ih later).imp_right (List.mem_cons_of_mem _)

/-- A part of the entries to which an entry under the key belongs or not is put to as the whole
is. -/
theorem filter_put {key : κ} {value : α} {keep : κ × α → Bool} {entries : List (κ × α)}
    (same : ∀ old, (key, old) ∈ entries → keep (key, old) = keep (key, value)) :
    (put key value entries).filter keep =
      if keep (key, value) then put key value (entries.filter keep)
      else entries.filter keep := by
  induction entries with
  | nil =>
    rw [put, List.filter_cons]
    rfl
  | cons entry rest ih =>
    obtain ⟨other, old⟩ := entry
    rw [put]
    split
    · rename_i found
      subst found
      rw [List.filter_cons, List.filter_cons, same old List.mem_cons_self]
      split
      · rw [put, if_pos rfl]
      · rfl
    · rename_i differs
      rw [List.filter_cons, List.filter_cons,
        ih fun old member => same old (List.mem_cons_of_mem _ member)]
      split
      · rw [put, if_neg differs]
        split <;> rfl
      · rfl

theorem contains_eq_true_iff {map : OrderedMap κ α} {key : κ} :
    map.contains key = true ↔ key ∈ map.keys := by
  rw [← not_iff_not, Bool.not_eq_true, contains, get?, Option.isSome_eq_false_iff,
    Option.isNone_iff_eq_none, lookup_eq_none_iff]
  rfl

theorem contains_eq_false_iff {map : OrderedMap κ α} {key : κ} :
    map.contains key = false ↔ key ∉ map.keys := by
  rw [← contains_eq_true_iff, Bool.not_eq_true]

/-- Taking out a key that has no entry changes nothing. -/
theorem filter_of_notMem {map : OrderedMap κ α} {key : κ} (absent : key ∉ map.keys) :
    map.entries.filter (·.1 ≠ key) = map.entries := by
  refine List.filter_eq_self.mpr fun entry member => decide_eq_true ?_
  rintro rfl
  exact absent (List.mem_map_of_mem member)

/-- A value under a new key comes last. -/
theorem entries_insert_of_notMem {map : OrderedMap κ α} {key : κ} {value : α}
    (new : key ∉ map.keys) : (map.insert key value).entries = map.entries ++ [(key, value)] :=
  put_of_notMem new

/-- Pairs with different keys are the entries of the map that they make. -/
theorem entries_ofList_of_nodup {pairs : List (κ × α)} (distinct : (pairs.map Prod.fst).Nodup) :
    (ofList pairs).entries = pairs := by
  suffices general : ∀ start : OrderedMap κ α, (start.keys ++ pairs.map Prod.fst).Nodup →
      (pairs.foldl (fun map pair => map.insert pair.1 pair.2) start).entries =
        start.entries ++ pairs from
    general empty distinct
  induction pairs with
  | nil => simp
  | cons pair later ih =>
    intro start nodup
    have new : pair.1 ∉ start.keys := fun old =>
      (List.nodup_append.mp nodup).2.2 _ old _ List.mem_cons_self rfl
    have keys : (start.insert pair.1 pair.2).keys = start.keys ++ [pair.1] := by
      rw [keys_insert, if_neg new]
    rw [List.map_cons, List.nodup_cons] at distinct
    rw [List.foldl_cons, ih distinct.2, entries_insert_of_notMem new, List.append_assoc,
      List.singleton_append]
    rw [keys, List.append_assoc, List.singleton_append, ← List.map_cons]
    exact nodup

theorem ofList_entries (map : OrderedMap κ α) : ofList map.entries = map :=
  ext_entries (entries_ofList_of_nodup map.distinct)

end OrderedMap

end UriTemplates
