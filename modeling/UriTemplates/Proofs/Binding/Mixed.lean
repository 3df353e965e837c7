import Mathlib.Data.List.Nodup
import UriTemplates.Proofs.Binding.Findings
import UriTemplates.Proofs.Binding.Pairing

/-!
# Texts among pairs

An exploded variable with a name may be captured in part as texts under its own name and in part
as pairs of a key and an item. As the entries that are paired (`Binding.entries?`) make up a map,
there is one such text at most (`Binding.Paired.length_le`). The pairs before it are taken in turn,
and then it is an entry under the name of the variable, unless it is written like the key of the
next pair and the item of this pair is empty: then it takes the pair. So the entries are those
that were written just if no such pair follows (`Binding.entries?_mixed`).
-/

namespace UriTemplates.Binding

variable {name : Text} {written : Text × Text → Text} {before after entries : List (Text × Text)}

/-- Every value is a pair of its own or an entry under the name. -/
theorem Paired.length_le {values : List Text} {pairs : List (Text × Text)}
    (paired : Paired name values pairs entries) :
    values.length ≤ pairs.length + entries.countP fun entry => decide (entry.1 = name) := by
  induction paired with
  | nil => exact Nat.le_refl 0
  | own _ _ ih =>
    rw [List.length_cons, List.length_cons, List.countP_cons]
    omega
  | named _ ih =>
    rw [List.length_cons, List.countP_cons_of_pos (by simp)]
    omega

/-- Pairs whose values come next are taken in turn. -/
theorem pairedEntries?_append (name : Text)
    (writes : ∀ pair ∈ before, isWrittenEntry (written pair) pair.1 pair.2)
    (values keys items : List Text) :
    pairedEntries? name (before.map written ++ values) (before.map Prod.fst ++ keys)
        (before.map Prod.snd ++ items) =
      (pairedEntries? name values keys items).map (before ++ ·) := by
  induction before with
  | nil => exact Option.map_id'.symm
  | cons pair before ih =>
    obtain ⟨here, later⟩ := List.forall_mem_cons.mp writes
    simp only [List.map_cons, List.cons_append, pairedEntries?, if_pos here, ih later,
      Option.map_map, Function.comp_def]

/-- Entries that are written with their keys and items are paired again as they are. -/
theorem pairedEntries?_pairs (name : Text)
    (writes : ∀ pair ∈ after, isWrittenEntry (written pair) pair.1 pair.2) :
    pairedEntries? name (after.map written) (after.map Prod.fst) (after.map Prod.snd) =
      some after := by
  have paired := pairedEntries?_append name writes [] [] []
  simpa [pairedEntries?] using paired

/-- A text without an equals sign is written as an entry just if it is the key of an empty item. -/
theorem isWrittenEntry_iff {text key item : Text} (apart : '=' ∉ text) :
    isWrittenEntry text key item = true ↔ text = key ∧ item = [] := by
  have differs : text ≠ key ++ '=' :: item := by
    rintro rfl
    exact apart (by simp)
  simp [isWrittenEntry, differs, and_comm]

/-- A text among the values of pairs: it is an entry under the name, unless it takes the next
pair. -/
theorem pairedEntries?_text {text : Text} (apart : '=' ∉ text)
    (writes : ∀ pair ∈ before ++ after, isWrittenEntry (written pair) pair.1 pair.2)
    (paired : pairedEntries? name (before.map written ++ text :: after.map written)
      ((before ++ after).map Prod.fst) ((before ++ after).map Prod.snd) = some entries) :
    (∃ rest, after = (text, []) :: rest) ∧ (∃ later, entries = before ++ (text, []) :: later) ∨
      (¬ ∃ rest, after = (text, []) :: rest) ∧ entries = before ++ (name, text) :: after := by
  obtain ⟨writesBefore, writesAfter⟩ := List.forall_mem_append.mp writes
  rw [List.map_append, List.map_append, pairedEntries?_append name writesBefore] at paired
  obtain ⟨found, known, rfl⟩ := Option.map_eq_some_iff.mp paired
  have read := pairedEntries?_pairs name writesAfter
  cases after with
  | nil => exact .inr ⟨by simp, congrArg (before ++ ·) (Option.some.inj known).symm⟩
  | cons pair after =>
    change pairedEntries? name (text :: (pair :: after).map written)
      (pair.1 :: after.map Prod.fst) (pair.2 :: after.map Prod.snd) = some found at known
    rw [pairedEntries?] at known
    split_ifs at known with taken
    · obtain ⟨same, empty⟩ := (isWrittenEntry_iff apart).mp taken
      obtain rfl : pair = (text, []) := Prod.ext same.symm empty
      obtain ⟨later, -, rfl⟩ := Option.map_eq_some_iff.mp known
      exact .inl ⟨⟨after, rfl⟩, later, rfl⟩
    · refine .inr ⟨?_, congrArg (before ++ ·) (Option.some.inj (known.symm.trans ?_))⟩
      · rintro ⟨rest, same⟩
        obtain rfl := (List.cons.inj same).1
        exact taken ((isWrittenEntry_iff apart).mpr ⟨rfl, rfl⟩)
      · exact congrArg (Option.map _) read

/-- What an entry is captured as: the entry, or its item if it stands under the name. -/
def captured (name : Text) (written : Text × Text → Text) (entry : Text × Text) : Text :=
  if entry.1 = name then entry.2 else written entry

/-- The entries that do not stand under the name. -/
def foreign (name : Text) (entries : List (Text × Text)) : List (Text × Text) :=
  entries.filter fun entry => entry.1 ≠ name

/-- If no entry stands under the name, then all of them are foreign to it. -/
theorem foreign_eq_self (other : ∀ entry ∈ entries, entry.1 ≠ name) :
    foreign name entries = entries :=
  List.filter_eq_self.mpr fun entry member => by simpa using other entry member

/-- Every entry is either foreign to the name or stands under it. -/
theorem length_foreign (name : Text) (entries : List (Text × Text)) :
    (foreign name entries).length + entries.countP (fun entry => decide (entry.1 = name)) =
      entries.length := by
  induction entries with
  | nil => rfl
  | cons entry entries ih =>
    rw [foreign] at ih ⊢
    by_cases own : entry.1 = name
    · rw [List.filter_cons_of_neg (by simpa using own),
        List.countP_cons_of_pos (by simpa using own), List.length_cons]
      omega
    · rw [List.filter_cons_of_pos (by simpa using own),
        List.countP_cons_of_neg (by simpa using own), List.length_cons, List.length_cons]
      omega

/-- If no entry stands under the name, then entries are captured as they are written. -/
theorem map_captured (other : ∀ entry ∈ entries, entry.1 ≠ name) :
    entries.map (captured name written) = entries.map written :=
  List.map_congr_left fun entry member => if_neg (other entry member)

/-- Entries of which one at most stands under the name. -/
theorem foreign_or_exists (few : entries.countP (fun entry => decide (entry.1 = name)) ≤ 1) :
    (∀ entry ∈ entries, entry.1 ≠ name) ∨ ∃ before text after,
      entries = before ++ (name, text) :: after ∧ ∀ entry ∈ before ++ after, entry.1 ≠ name := by
  by_cases own : ∃ entry ∈ entries, entry.1 = name
  · obtain ⟨⟨key, text⟩, member, same⟩ := own
    obtain rfl : key = name := same
    obtain ⟨before, after, rfl⟩ := List.append_of_mem member
    rw [List.countP_append, List.countP_cons_of_pos (by simp)] at few
    have none : (before ++ after).countP (fun entry => decide (entry.1 = key)) = 0 := by
      rw [List.countP_append]
      omega
    exact .inr ⟨before, text, after, rfl, by simpa using List.countP_eq_zero.mp none⟩
  · exact .inl fun entry member same => own ⟨entry, member, same⟩

/-- The entry under the name is followed by what stands after it. -/
theorem infix_iff {text : Text} (other : ∀ entry ∈ before ++ after, entry.1 ≠ name) :
    (∃ key, [(name, key), (key, [])] <:+: before ++ (name, text) :: after) ↔
      ∃ rest, after = (text, []) :: rest := by
  have new : ∀ key, (name, key) ∉ before ∧ (name, key) ∉ after := fun key =>
    ⟨fun member => other _ (List.mem_append_left after member) rfl,
      fun member => other _ (List.mem_append_right before member) rfl⟩
  constructor
  · rintro ⟨key, front, back, same⟩
    rw [List.append_assoc] at same
    obtain ⟨-, text_eq, rest⟩ :=
      (List.append_cons_inj_of_notMem (new key).1 (new key).2).mp same.symm
    obtain rfl : text = key := congrArg Prod.snd text_eq
    exact ⟨back, rest⟩
  · rintro ⟨rest, rfl⟩
    exact ⟨text, before, rest, by simp⟩

/-- **Texts among pairs.** Where the entries that are found make up a map, they are those that were
written just if no entry under the name comes before an empty item with its text for a key. -/
theorem entries?_mixed {found : List (Text × Text)}
    (writes : ∀ entry ∈ foreign name entries, isWrittenEntry (written entry) entry.1 entry.2)
    (apart : ∀ entry ∈ entries, '=' ∉ entry.2)
    (decoded : ∀ entry ∈ entries, Percent.decode entry.1 = Percent.decode name → entry.1 = name)
    (read : entries? name (entries.map (captured name written))
      ((foreign name entries).map Prod.fst) ((foreign name entries).map Prod.snd) = some found)
    (paired : Paired name (entries.map (captured name written)) (foreign name entries) found)
    (distinct : ((found.map decodedEntry).map Prod.fst).Nodup) :
    found.map decodedEntry = entries.map decodedEntry ↔
      ∀ key, ¬ [(name, key), (key, [])] <:+: entries := by
  have few : entries.countP (fun entry => decide (entry.1 = name)) ≤ 1 := by
    have once : found.countP (fun entry => decide (entry.1 = name)) ≤ 1 :=
      calc found.countP (fun entry => decide (entry.1 = name))
          ≤ ((found.map decodedEntry).map Prod.fst).count (Percent.decode name) := by
            rw [List.count, List.countP_map, List.countP_map]
            refine List.countP_mono_left fun entry _ own => ?_
            simpa [decodedEntry] using congrArg Percent.decode (of_decide_eq_true own)
        _ ≤ 1 := List.nodup_iff_count_le_one.mp distinct _
    have values := paired.length_le
    have lengths := length_foreign name entries
    rw [List.length_map] at values
    omega
  obtain other | ⟨before, text, after, rfl, other⟩ := foreign_or_exists few
  · rw [foreign_eq_self other, map_captured other, entries?, if_pos (by simp), List.zip_map',
      List.map_id'] at read
    obtain rfl := Option.some.inj read
    refine iff_of_true rfl fun key inside => ?_
    exact other (name, key) (inside.subset List.mem_cons_self) rfl
  · rw [← not_exists, infix_iff other]
    obtain ⟨otherBefore, otherAfter⟩ := List.forall_mem_append.mp other
    have values : (before ++ (name, text) :: after).map (captured name written) =
        before.map written ++ text :: after.map written := by
      rw [List.map_append, List.map_cons, map_captured otherBefore, map_captured otherAfter]
      simp [captured]
    have pairs : foreign name (before ++ (name, text) :: after) = before ++ after := by
      have none : foreign name ((name, text) :: after) = foreign name after :=
        List.filter_cons_of_neg (by simp)
      rw [foreign, List.filter_append, ← foreign, ← foreign, none, foreign_eq_self otherBefore,
        foreign_eq_self otherAfter]
    rw [values, pairs, entries?, if_neg (by simp)] at read
    rw [pairs] at writes
    obtain ⟨follows, later, rfl⟩ | ⟨free, rfl⟩ :=
      pairedEntries?_text (apart (name, text) (by simp)) writes read
    · refine iff_of_false (fun same => ?_) (not_not_intro follows)
      obtain ⟨rest, rfl⟩ := follows
      rw [List.map_append, List.map_append, List.append_cancel_left_eq, List.map_cons,
        List.map_cons] at same
      have keys : Percent.decode text = Percent.decode name :=
        congrArg Prod.fst (List.cons.inj same).1
      exact otherAfter _ List.mem_cons_self (decoded (text, []) (by simp) keys)
    · exact iff_of_true rfl free

end UriTemplates.Binding
