import UriTemplates.Proofs.Matching.Soundness
import UriTemplates.Proofs.Pattern.Interchange

/-!
# The contents behind captures

What is captured of one field of an expression is captured of contents that the field may have as
items (`Expression.exists_contents`). In a match of a template this holds at every expression
(`Template.exists_contents`). Along the first reading of a template each part is read as it is alone
(`Template.exists_whole?_of_append`).
-/

namespace UriTemplates

open Captures (textsAt)

namespace Expression

variable {expression : Expression} {part : Nat} {hints : Hints} {captures : Captures Site}
  {text : Text} {marks : List (Site × Option Text)}

/-- Where no names are written, what is captured of a field is captured of one content. -/
theorem exists_content_unnamed (unnamed : expression.operator.isNamed = false)
    (derived : (patternOf expression.operator (expression.fields part hints)).readings.Derives text
      marks)
    (shown : ∀ site, site.part = part → textsAt captures site = textsAt marks site)
    {field : Field} (member : field ∈ expression.fields part hints) :
    ∃ content : Option Content, field.ShowsItems (content.toList.flatMap field.steps) captures := by
  have each := expression.isOf_fields part hints
  have nonempty := expression.fields_ne_nil part hints
  have here : ∀ facet, textsAt captures (field.site facet) = textsAt marks (field.site facet) :=
    fun facet => shown _ (part_of_mem_fields member)
  obtain ⟨selection, isOf, -, rfl⟩ := exists_selection_of_derives unnamed each nonempty derived
  obtain ⟨⟨own, content⟩, chosen, rfl⟩ : ∃ chosen ∈ selection, chosen.1 = field := by
    rw [← isOf.fields_eq] at member
    exact List.mem_map.mp member
  have distinct := expression.nodup_index part hints
  rw [← isOf.fields_eq, List.map_map] at distinct
  refine ⟨content, fun step found => ?_, fun facet => ?_, fun _ whole => ?_⟩
  · obtain ⟨known, among, found⟩ := List.mem_flatMap.mp found
    exact Field.admitsItem_steps (isOf.admits _ chosen known (Option.mem_toList.mp among)) step
      found
  · rw [here, Selection.textsAt_marks distinct _ chosen, List.flatMap_assoc]
    refine List.flatMap_congr fun known _ => ?_
    rw [own.marks_eq_steps, Captures.textsAt_flatMap]
  · cases content with
    | none => exact Nat.zero_le 1
    | some known => simp [Field.steps_of_whole whole]

/-- **What is captured of a field** is captured of contents that it may have as items. -/
theorem exists_contents
    (derived : (patternOf expression.operator (expression.fields part hints)).readings.Derives text
      marks)
    (shown : ∀ site, site.part = part → textsAt captures site = textsAt marks site)
    {field : Field} (member : field ∈ expression.fields part hints) :
    ∃ contents, field.ShowsItems contents captures := by
  have each := expression.isOf_fields part hints
  have operator := (each field member).operator_eq
  cases named : expression.operator.isNamed with
  | false =>
    obtain ⟨content, shows⟩ := exists_content_unnamed named derived shown member
    exact ⟨_, shows⟩
  | true =>
    obtain ⟨steps, known, -, rfl⟩ := (derives_patternOf_named named each).mp derived
    exact ⟨_, Selection.showsItems_itemsOf (expression.nodup_index part hints) known member
      (operator ▸ named) fun facet => shown _ (part_of_mem_fields member)⟩

variable (expression hints) in
/-- The variable at a position of an expression has a field there. -/
theorem field_mem_fields (part : Nat) {v : Variable} {position : Nat}
    (placed : expression.occurrences[position]? = some v) :
    expression.field part hints v position ∈ expression.fields part hints := by
  rw [fields_eq_map]
  exact List.mem_map.mpr ⟨(v, position), List.mem_zipIdx_iff_getElem?.mpr placed, rfl⟩

end Expression

/-- What parts read is at each expression what its pattern reads, and it is captured there. -/
theorem Part.exists_derives_of_getElem? {parts : List Part} {index : Nat} {hints : Hints}
    {patterns : List (Pattern Site)} {text : Text} {marks : List (Site × Option Text)}
    {captures : Captures Site} {offset : Nat} {expression : Expression}
    (built : Part.patterns index hints parts = .ok patterns)
    (derived : (Pattern.seq patterns).readings.Derives text marks)
    (shown : ∀ site, index ≤ site.part → textsAt captures site = textsAt marks site)
    (placed : parts[offset]? = some (.expression expression)) :
    ∃ span marksHere,
      (Expression.patternOf expression.operator
        (expression.fields (index + offset) hints)).readings.Derives span marksHere ∧
      ∀ site, site.part = index + offset → textsAt captures site = textsAt marksHere site := by
  induction parts generalizing index offset patterns text marks with
  | nil => cases placed
  | cons part parts ih =>
    obtain ⟨first, rest, rfl, here, later⟩ := Part.patterns_cons.mp built
    obtain ⟨front, back, before, after, rfl, rfl, read, readLater⟩ :=
      Pattern.derives_seq_cons.mp derived
    obtain ⟨shownHere, shownLater⟩ := Captures.agree_of_append (Part.part_of_derives here read)
      (Part.le_part_of_derives later readLater) shown
    cases offset with
    | zero =>
      obtain rfl : part = .expression expression := by simpa using placed
      obtain ⟨-, rfl⟩ := Expression.pattern_eq_ok_iff.mp here
      exact ⟨front, before, read, shownHere⟩
    | succ offset =>
      have position : index + 1 + offset = index + (offset + 1) := by omega
      rw [← position]
      exact ih later readLater shownLater (by simpa using placed)

/-- Along the first reading of parts a part among them is read as it is alone, between readings of
the parts before and after it. -/
theorem Template.exists_whole?_of_append {before after : List Part} {part : Part} {index : Nat}
    {hints : Hints} {patterns : List (Pattern Site)} {text : Text}
    {marks : List (Site × Option Text)} {captures : Captures Site}
    (built : Part.patterns index hints (before ++ part :: after) = .ok patterns)
    (read : (Pattern.seq patterns).readings.whole? text = some marks)
    (shown : ∀ site, index ≤ site.part → textsAt captures site = textsAt marks site) :
    ∃ patternsBefore pattern patternsAfter front span back marksBefore marksHere marksAfter,
      Part.patterns index hints before = .ok patternsBefore ∧
      part.pattern (index + before.length) hints = .ok pattern ∧
      Part.patterns (index + before.length + 1) hints after = .ok patternsAfter ∧
      text = front ++ (span ++ back) ∧
      (Pattern.seq patternsBefore).readings.Derives front marksBefore ∧
      pattern.readings.whole? span = some marksHere ∧
      (Pattern.seq patternsAfter).readings.Derives back marksAfter ∧
      ∀ site, site.part = index + before.length →
        textsAt captures site = textsAt marksHere site := by
  induction before generalizing index patterns text marks with
  | nil =>
    obtain ⟨first, rest, rfl, here, later⟩ := Part.patterns_cons.mp built
    obtain ⟨span, back, marksHere, marksAfter, rfl, rfl, readHere, readLater⟩ :=
      Pattern.exists_of_whole?_seq read
    have derived := Readings.derives_of_whole? readHere
    have derivedLater := Readings.derives_of_whole? readLater
    obtain ⟨shownHere, -⟩ := Captures.agree_of_append (Part.part_of_derives here derived)
      (Part.le_part_of_derives later derivedLater) shown
    exact ⟨[], first, rest, [], span, back, [], marksHere, marksAfter, rfl, here, later, rfl,
      Pattern.derives_seq_nil.mpr ⟨rfl, rfl⟩, readHere, derivedLater, shownHere⟩
  | cons other before ih =>
    obtain ⟨first, rest, rfl, here, later⟩ := Part.patterns_cons.mp built
    obtain ⟨span, back, marksHere, marksLater, rfl, rfl, readHere, readLater⟩ :=
      Pattern.exists_of_whole?_seq read
    have derived := Readings.derives_of_whole? readHere
    obtain ⟨-, shownLater⟩ := Captures.agree_of_append (Part.part_of_derives here derived)
      (Part.le_part_of_derives later (Readings.derives_of_whole? readLater)) shown
    obtain ⟨patternsBefore, pattern, patternsAfter, front, inner, final, marksBefore, marksInner,
      marksAfter, builtBefore, builtHere, builtAfter, rfl, derivedBefore, readInner, derivedAfter,
      shownInner⟩ := ih later readLater shownLater
    have position : index + 1 + before.length = index + (other :: before).length := by
      rw [List.length_cons]
      omega
    rw [position] at builtHere builtAfter shownInner
    exact ⟨first :: patternsBefore, pattern, patternsAfter, span ++ front, inner, final,
      marksHere ++ marksBefore, marksInner, marksAfter,
      Part.patterns_cons.mpr ⟨_, _, rfl, here, builtBefore⟩, builtHere, builtAfter, by simp,
      Pattern.derives_seq_cons.mpr ⟨_, _, _, _, rfl, rfl, derived, derivedBefore⟩, readInner,
      derivedAfter, shownInner⟩

/-- **What a match captures of a field** is captured of contents that it may have as items. -/
theorem Template.exists_contents {template : Template} {hints : Hints} {uri : Text}
    {captures : Captures Site} (captured : template.capture hints uri = .ok (some captures))
    {index position : Nat} {expression : Expression} {v : Variable}
    (placed : template.parts[index]? = some (.expression expression))
    (occurs : expression.occurrences[position]? = some v) :
    ∃ contents, (expression.field index hints v position).ShowsItems contents captures := by
  obtain ⟨patterns, built, derived⟩ := exists_derives_of_capture captured
  obtain ⟨span, marks, read, shown⟩ :=
    Part.exists_derives_of_getElem? built derived (fun _ _ => rfl) placed
  rw [Nat.zero_add] at read shown
  exact Expression.exists_contents read shown (expression.field_mem_fields hints index occurs)

end UriTemplates
