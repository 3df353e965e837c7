import Mathlib.Data.List.Forall2
import UriTemplates.Binding.Basic

/-!
# Values and pairs

Captured values have one entry each, and captured pairs of a key and an item are the entries of
the values that they are written as (`Binding.Paired`). Where the texts that pairs are written as
stand among the values in the order of the pairs, pairing the values finds an entry for each of
them and uses up the pairs (`Binding.exists_paired`): a value that is written like the next pair
but does not stem from it takes the pair early, which leaves no pair over.
-/

namespace UriTemplates

namespace Binding

/-- Whether a value is what a pair of a key and an item is written as, as an item of its own or
after the name of the variable. -/
def Writes (value : Text) (pair : Text × Text) : Prop :=
  isWrittenEntry value pair.1 pair.2 = true ∨ value = pair.1 ++ ',' :: pair.2

/-- The entries that captured values and pairs make up: every value has one entry, and every pair
is in its turn the entry of a value that it is written as. -/
inductive Paired (name : Text) : (values : List Text) → (pairs entries : List (Text × Text)) → Prop
  /-- There are no entries without values, and no pairs. -/
  | nil : Paired name [] [] []
  /-- The next value is written as the next pair. -/
  | own {value : Text} {pair : Text × Text} {values : List Text}
      {pairs entries : List (Text × Text)} (written : Writes value pair)
      (later : Paired name values pairs entries) :
      Paired name (value :: values) (pair :: pairs) (pair :: entries)
  /-- The next value stands under the name of the variable. -/
  | named {value : Text} {values : List Text} {pairs entries : List (Text × Text)}
      (later : Paired name values pairs entries) :
      Paired name (value :: values) pairs ((name, value) :: entries)

variable {name : Text} {values : List Text} {pairs entries : List (Text × Text)}

/-- Every value has one entry. -/
theorem Paired.length_eq (paired : Paired name values pairs entries) :
    entries.length = values.length := by
  induction paired with
  | nil => rfl
  | own _ _ ih => rw [List.length_cons, List.length_cons, ih]
  | named _ ih => rw [List.length_cons, List.length_cons, ih]

/-- Whether pairs are written among values, each as an item of its own and in their order. -/
abbrev WrittenAmong (pairs : List (Text × Text)) (values : List Text) : Prop :=
  List.SublistForall₂ (fun pair value => isWrittenEntry value pair.1 pair.2 = true) pairs values

/-- What is written for more pairs is written for the later ones. -/
theorem WrittenAmong.of_cons {pair : Text × Text} (among : WrittenAmong (pair :: pairs) values) :
    WrittenAmong pairs values := by
  obtain ⟨written, each, inside⟩ := List.sublistForall₂_iff.mp among
  obtain ⟨first, rest, -, later, rfl⟩ := List.forall₂_cons_left_iff.mp each
  exact List.sublistForall₂_iff.mpr ⟨rest, later, (List.sublist_cons_self _ _).trans inside⟩

/-- Pairing takes the next pair as soon as a value is written like it, so it is never behind the
place where the pair stands. -/
theorem exists_pairedEntries?_of_writtenAmong (among : WrittenAmong pairs values) :
    ∃ entries, pairedEntries? name values (pairs.map Prod.fst) (pairs.map Prod.snd) =
      some entries ∧ Paired name values pairs entries := by
  induction values generalizing pairs with
  | nil =>
    cases among
    exact ⟨[], rfl, .nil⟩
  | cons value values ih =>
    cases pairs with
    | nil =>
      obtain ⟨entries, known, paired⟩ := ih .nil
      exact ⟨_, congrArg (Option.map _) known, paired.named⟩
    | cons pair pairs =>
      simp only [List.map_cons, pairedEntries?]
      split_ifs with written
      · have later : WrittenAmong pairs values := by
          cases among with
          | cons _ later => exact later
          | cons_right later => exact WrittenAmong.of_cons later
        obtain ⟨entries, known, paired⟩ := ih later
        exact ⟨_, congrArg (Option.map _) known, paired.own (.inl written)⟩
      · have later : WrittenAmong (pair :: pairs) values := by
          cases among with
          | cons here _ => exact (written here).elim
          | cons_right later => exact later
        obtain ⟨entries, known, paired⟩ := ih later
        exact ⟨_, congrArg (Option.map _) known, paired.named⟩

/-- Where all values are written as pairs, the pairs are the entries. -/
theorem paired_map {written : Text × Text → Text}
    (writes : ∀ pair ∈ pairs, Writes (written pair) pair) :
    Paired name (pairs.map written) pairs pairs := by
  induction pairs with
  | nil => exact .nil
  | cons pair pairs ih =>
    obtain ⟨here, later⟩ := List.forall_mem_cons.mp writes
    exact (ih later).own here

/-- **Every value has an entry, and every pair is used**, where pairs are written among the values
in order. Only pairs that are items of their own have other values between them. -/
theorem exists_paired {written : Text × Text → Text}
    (among : (pairs.map written).Sublist values)
    (writes : ∀ pair ∈ pairs, Writes (written pair) pair)
    (apart : values.length ≠ pairs.length →
      ∀ pair ∈ pairs, isWrittenEntry (written pair) pair.1 pair.2 = true) :
    ∃ entries, entries? name values (pairs.map Prod.fst) (pairs.map Prod.snd) = some entries ∧
      Paired name values pairs entries := by
  unfold entries?
  rw [List.length_map]
  split_ifs with same
  · obtain rfl : pairs.map written = values :=
      among.eq_of_length (by rw [List.length_map, same])
    refine ⟨pairs, ?_, paired_map writes⟩
    rw [List.zip_map', List.map_id']
  · refine exists_pairedEntries?_of_writtenAmong (List.sublistForall₂_iff.mpr ⟨_, ?_, among⟩)
    rw [List.forall₂_map_right_iff, List.forall₂_same]
    exact apart same

end Binding

end UriTemplates
