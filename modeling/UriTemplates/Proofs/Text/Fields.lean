import Mathlib.Data.List.Basic
import UriTemplates.Text.Basic

/-!
# Joining and cutting

Joined items are found again by cutting at the separator, provided that no item holds it
(`Text.fields_joined`). Groups of items may be joined one by one and then together
(`Text.joined_flatten`), unless a group is empty. Where every text follows a separator, counting
the separators tells whether the texts hold others (`Text.eq_of_flatMap_cons`). A text is cut at its
first or at its last separator if it has one (`Text.cut_cases`, `Text.cutLast_cases`).
-/

namespace UriTemplates.Text

variable {separator : Char}

@[simp] theorem joined_nil : joined separator [] = [] :=
  rfl

@[simp] theorem joined_singleton (item : Text) : joined separator [item] = item :=
  List.intercalate_singleton

theorem joined_cons (item : Text) {items : List Text} (nonempty : items ≠ []) :
    joined separator (item :: items) = item ++ separator :: joined separator items := by
  rw [joined, List.intercalate_cons_of_ne_nil nonempty, List.append_assoc]
  rfl

@[simp] theorem joined_cons_cons (first second : Text) (items : List Text) :
    joined separator (first :: second :: items) =
      first ++ separator :: joined separator (second :: items) :=
  joined_cons first (List.cons_ne_nil second items)

/-- Every item but the first one follows a separator. -/
theorem joined_cons_eq (item : Text) (items : List Text) :
    joined separator (item :: items) = item ++ (items.map (separator :: ·)).flatten := by
  induction items generalizing item with
  | nil => simp
  | cons next items ih => rw [joined_cons_cons, ih, List.map_cons, List.flatten_cons,
      List.cons_append]

/-- Joined items are only empty if there is a single item, which is empty. -/
theorem joined_eq_nil_iff {items : List Text} (nonempty : items ≠ []) :
    joined separator items = [] ↔ items = [[]] := by
  obtain ⟨item, later, rfl⟩ := List.exists_cons_of_ne_nil nonempty
  rw [joined_cons_eq]
  cases later <;> simp

/-- Two lists of items are joined with a separator between them. -/
theorem joined_append {first second : List Text} (nonempty : first ≠ [])
    (nonemptyNext : second ≠ []) :
    joined separator (first ++ second) =
      joined separator first ++ separator :: joined separator second := by
  induction first with
  | nil => exact (nonempty rfl).elim
  | cons item first ih =>
    by_cases last : first = []
    · subst last
      rw [List.singleton_append, joined_cons item nonemptyNext, joined_singleton]
    · rw [List.cons_append, joined_cons item (by simp [last]), joined_cons item last, ih last,
        List.append_assoc, List.cons_append]

/-- A character other than the separator is held by joined items if one of them holds it. -/
theorem mem_joined_iff {c : Char} (other : c ≠ separator) {items : List Text} :
    c ∈ joined separator items ↔ ∃ item ∈ items, c ∈ item := by
  induction items with
  | nil => simp
  | cons item items ih =>
    by_cases last : items = []
    · subst last
      simp
    · rw [joined_cons item last, List.mem_append, List.mem_cons, ih, List.exists_mem_cons_iff]
      simp [other]

/-- Joined items hold no other characters than their own and the separator. -/
theorem notMem_joined {c : Char} (other : c ≠ separator) {items : List Text}
    (each : ∀ item ∈ items, c ∉ item) : c ∉ joined separator items := by
  rw [mem_joined_iff other]
  rintro ⟨item, member, inside⟩
  exact each item member inside

/-- A character other than the separator is held by a text if one of its fields holds it. -/
theorem mem_iff_exists_fields {c : Char} (other : c ≠ separator) {text : Text} :
    c ∈ text ↔ ∃ field ∈ fields separator text, c ∈ field := by
  rw [← mem_joined_iff other, joined_fields]

/-- Groups of items may be joined one by one and then together. -/
theorem joined_flatten {groups : List (List Text)} (nonempty : ∀ group ∈ groups, group ≠ []) :
    joined separator (groups.map (joined separator)) = joined separator groups.flatten := by
  induction groups with
  | nil => rfl
  | cons group groups ih =>
    obtain ⟨first, later⟩ := List.forall_mem_cons.mp nonempty
    by_cases last : groups = []
    · subst last
      simp
    · have more : groups.flatten ≠ [] := by
        obtain ⟨next, others, rfl⟩ := List.exists_cons_of_ne_nil last
        simp [later next List.mem_cons_self]
      rw [List.map_cons, joined_cons _ (by simpa using last), ih later, List.flatten_cons,
        joined_append first more]

/-- A text is cut at its first separator. -/
theorem cut_append {before : Text} (apart : separator ∉ before) (after : Text) :
    cut separator (before ++ separator :: after) = (before, some after) := by
  have inside : ∀ c ∈ before, (c != separator) = true := by
    intro c member
    exact bne_iff_ne.mpr fun same => apart (same ▸ member)
  simp [cut, List.takeWhile_append_of_pos inside, List.dropWhile_append_of_pos inside]

theorem cut_of_notMem {text : Text} (apart : separator ∉ text) :
    cut separator text = (text, none) := by
  have inside : ∀ c ∈ text, (c != separator) = true := by
    intro c member
    exact bne_iff_ne.mpr fun same => apart (same ▸ member)
  rw [cut, ← List.append_nil text, List.takeWhile_append_of_pos inside,
    List.dropWhile_append_of_pos inside]
  simp

/-- A text is cut at its first separator, if it has one. -/
theorem cut_cases (separator : Char) (text : Text) :
    separator ∉ text ∧ cut separator text = (text, none) ∨
      ∃ before after, text = before ++ separator :: after ∧ separator ∉ before ∧
        cut separator text = (before, some after) := by
  by_cases member : separator ∈ text
  · obtain ⟨before, after, rfl, apart⟩ := List.eq_append_cons_of_mem member
    exact .inr ⟨before, after, rfl, apart, cut_append apart after⟩
  · exact .inl ⟨member, cut_of_notMem member⟩

/-- A text is cut at its last separator. -/
theorem cutLast_append {after : Text} (apart : separator ∉ after) (before : Text) :
    cutLast separator (before ++ separator :: after) = (some before, after) := by
  have reversed : separator ∉ after.reverse := by simpa using apart
  rw [cutLast, List.reverse_append, List.reverse_cons, List.append_assoc, List.singleton_append,
    cut_append reversed]
  simp

theorem cutLast_of_notMem {text : Text} (apart : separator ∉ text) :
    cutLast separator text = (none, text) := by
  rw [cutLast, cut_of_notMem (by simpa using apart)]
  simp

/-- A text is cut at its last separator, if it has one. -/
theorem cutLast_cases (separator : Char) (text : Text) :
    separator ∉ text ∧ cutLast separator text = (none, text) ∨
      ∃ before after, text = before ++ separator :: after ∧ separator ∉ after ∧
        cutLast separator text = (some before, after) := by
  by_cases member : separator ∈ text
  · obtain ⟨after, before, split, apart⟩ :=
      List.eq_append_cons_of_mem (List.mem_reverse.mpr member)
    have same : text = before.reverse ++ separator :: after.reverse := by
      rw [← List.reverse_reverse text, split]
      simp
    rw [same]
    exact .inr ⟨_, _, rfl, by simpa using apart, cutLast_append (by simpa using apart) _⟩
  · exact .inl ⟨member, cutLast_of_notMem member⟩

theorem fields_of_notMem {text : Text} (apart : separator ∉ text) :
    fields separator text = [text] := by
  induction text with
  | nil => rfl
  | cons c rest ih =>
    rw [List.mem_cons, not_or] at apart
    rw [fields, if_neg (Ne.symm apart.1), ih apart.2]

/-- The fields before a separator come before those after it. -/
theorem fields_append_cons (before after : Text) :
    fields separator (before ++ separator :: after) =
      fields separator before ++ fields separator after := by
  induction before with
  | nil => simp [fields]
  | cons c before ih =>
    rw [List.cons_append, fields, fields, ih]
    split
    · rfl
    · obtain ⟨field, more, found⟩ := List.exists_cons_of_ne_nil (fields_ne_nil separator before)
      rw [found]
      rfl

theorem fields_append {text : Text} (apart : separator ∉ text) (rest : Text) :
    fields separator (text ++ separator :: rest) = text :: fields separator rest := by
  rw [fields_append_cons, fields_of_notMem apart, List.singleton_append]

/-- No field holds the separator. -/
theorem notMem_of_mem_fields {text : Text} :
    ∀ field ∈ fields separator text, separator ∉ field := by
  induction text with
  | nil => simp [fields]
  | cons c rest ih =>
    rw [fields]
    split
    · exact List.forall_mem_cons.mpr ⟨List.not_mem_nil, ih⟩
    · rename_i other
      obtain ⟨field, more, found⟩ := List.exists_cons_of_ne_nil (fields_ne_nil separator rest)
      rw [found] at ih ⊢
      obtain ⟨here, later⟩ := List.forall_mem_cons.mp ih
      exact List.forall_mem_cons.mpr ⟨by simp [here, Ne.symm other], later⟩

/-- What stands before the first separator and what stands after it are determined. -/
theorem append_cons_inj {first second rest more : Text} (apart : separator ∉ first)
    (apartOther : separator ∉ second)
    (same : first ++ separator :: rest = second ++ separator :: more) :
    first = second ∧ rest = more := by
  have heads := congrArg (fields separator) same
  rw [fields_append apart, fields_append apartOther] at heads
  obtain rfl := (List.cons.inj heads).1
  exact ⟨rfl, (List.cons.inj (List.append_cancel_left same)).2⟩

/-- Cutting at the separator gives the joined items back. -/
theorem fields_joined {items : List Text} (nonempty : items ≠ [])
    (apart : ∀ item ∈ items, separator ∉ item) :
    fields separator (joined separator items) = items := by
  induction items with
  | nil => exact (nonempty rfl).elim
  | cons item items ih =>
    obtain ⟨first, later⟩ := List.forall_mem_cons.mp apart
    by_cases last : items = []
    · subst last
      rw [joined_singleton, fields_of_notMem first]
    · rw [joined_cons item last, fields_append first, ih last later]

/-- Items without the separator are determined by what they are joined to. -/
theorem joined_injective {first second : List Text} (nonempty : first ≠ [])
    (nonemptyOther : second ≠ []) (apart : ∀ item ∈ first, separator ∉ item)
    (apartOther : ∀ item ∈ second, separator ∉ item)
    (same : joined separator first = joined separator second) : first = second := by
  rw [← fields_joined nonempty apart, same, fields_joined nonemptyOther apartOther]

/-- Texts that follow a separator each hold at least as many separators. -/
theorem length_le_count (separator : Char) (texts : List Text) :
    texts.length ≤ (texts.flatMap (separator :: ·)).count separator := by
  induction texts with
  | nil => exact Nat.le_refl 0
  | cons text texts ih =>
    rw [List.flatMap_cons, List.count_append, List.count_cons_self, List.length_cons]
    omega

/-- Texts that follow a separator each hold no other one if there are just as many. -/
theorem count_eq_length_iff {texts : List Text} :
    (texts.flatMap (separator :: ·)).count separator = texts.length ↔
      ∀ text ∈ texts, separator ∉ text := by
  induction texts with
  | nil => simp
  | cons text texts ih =>
    have := length_le_count separator texts
    rw [List.forall_mem_cons, ← ih, ← List.count_eq_zero, List.flatMap_cons, List.count_append,
      List.count_cons_self, List.length_cons]
    omega

/-- After an empty item, every item follows a separator. -/
theorem joined_nil_cons (texts : List Text) :
    joined separator ([] :: texts) = texts.flatMap (separator :: ·) := by
  rw [joined_cons_eq, List.nil_append, List.flatMap_def]

/-- Texts without the separator are no fewer than other texts that are joined to the same. -/
theorem length_le_of_joined {first second : List Text}
    (nonempty : first ≠ []) (nonemptyOther : second ≠ [])
    (apart : ∀ text ∈ second, separator ∉ text)
    (same : joined separator first = joined separator second) : first.length ≤ second.length := by
  have prepended : first.flatMap (separator :: ·) = second.flatMap (separator :: ·) := by
    rw [← joined_nil_cons, ← joined_nil_cons, joined_cons _ nonempty, joined_cons _ nonemptyOther,
      same]
  calc first.length
      ≤ (first.flatMap (separator :: ·)).count separator := length_le_count separator first
    _ = (second.flatMap (separator :: ·)).count separator := by rw [prepended]
    _ = second.length := count_eq_length_iff.mpr apart

/-- Texts after a separator each are determined by what they are written as, if they are no fewer
than the separators. -/
theorem eq_of_flatMap_cons {first second : List Text} (enough : second.length ≤ first.length)
    (apart : ∀ text ∈ second, separator ∉ text)
    (same : first.flatMap (separator :: ·) = second.flatMap (separator :: ·)) : first = second := by
  have bound := length_le_count separator first
  have apartOther : ∀ text ∈ first, separator ∉ text := by
    rw [← count_eq_length_iff]
    rw [same, count_eq_length_iff.mpr apart] at bound ⊢
    exact Nat.le_antisymm enough bound
  rw [← joined_nil_cons, ← joined_nil_cons] at same
  have whole := joined_injective (List.cons_ne_nil _ _) (List.cons_ne_nil _ _)
    (List.forall_mem_cons.mpr ⟨List.not_mem_nil, apartOther⟩)
    (List.forall_mem_cons.mpr ⟨List.not_mem_nil, apart⟩) same
  exact (List.cons.inj whole).2

end UriTemplates.Text
