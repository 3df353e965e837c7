import UriTemplates.Proofs.Matching.Forms
import UriTemplates.Proofs.Matching.Single
import UriTemplates.Proofs.Template.Foremost
import UriTemplates.Proofs.Text.Sequences

/-!
# Truncated variables

What a match binds a truncated variable to. The pattern of the variable counts code points by their
first triplets, and the value is read from the bytes of all triplets (`Template.match?_truncated`).
Both count the same where the bytes are well-formed UTF-8, and then expanding the variable with the
value truncates nothing. A code point that is not UTF-8 is read as several replacement characters,
so the value can be longer than the truncation allows (`Template.match?_truncated_overlong`). A
variable that stands alone matches an encoded text just if it has no more code points than the
truncation allows (`Template.match?_counted`).
-/

namespace UriTemplates

open Captures (textsAt)

/-- Whether a truncated occurrence is bound to what a number of code points stand for. It is bound
to as many code points just if they are well-formed UTF-8, and then the value expands whole. -/
structure Binding.CountsCodePoints (binding : Binding) (operator : Operator) (length : Nat)
    (written : Text) : Prop where
  /-- The value is what was captured stands for. -/
  value_eq : binding.value = .text (Percent.decode written)
  /-- No more code points were captured than the truncation allows. -/
  counted : ∃ count ≤ length, Percent.InCodePoints operator.allowsReserved count written ∧
    count ≤ (Percent.decode written).length ∧ (Percent.decode written).length ≤ 4 * count ∧
      ((Percent.decode written).length = count ↔
        (Utf8.decode? (Percent.bytes written)).isSome = true)
  /-- A value of well-formed code points is not too long, and nothing of it is left out. -/
  whole : (Utf8.decode? (Percent.bytes written)).isSome = true →
    (Percent.decode written).length ≤ length ∧
      operator.contribution binding.occurrence binding.value =
        .ok (some (operator.withName binding.occurrence.name
          (operator.encode (Percent.decode written))))

/-- A text that is not longer than a truncation allows is written whole. -/
theorem Operator.contribution_of_length_le {operator : Operator} {v : Variable} {text : Text}
    {length : Nat} (truncated : v.length? = some length) (short : text.length ≤ length) :
    operator.contribution v (.text text) =
      .ok (some (operator.withName v.name (operator.encode text))) := by
  rw [contribution, textContribution, truncated]
  simp only [List.take_of_length_le short]

/-- A variable with a length is truncated to it. -/
theorem Variable.modifier_of_length? {v : Variable} {length : Nat}
    (truncated : v.length? = some length) : v.modifier = .truncated length := by
  unfold length? at truncated
  split at truncated
  · rename_i other modifier
    rw [modifier, Option.some.inj truncated]
  · cases truncated

/-- The code points that a truncated occurrence is bound to. -/
theorem Binding.countsCodePoints {binding : Binding} {operator : Operator} {length count : Nat}
    {written : Text} (truncated : binding.occurrence.length? = some length)
    (value_eq : binding.value = .text (Percent.decode written)) (bound : count ≤ length)
    (points : Percent.InCodePoints operator.allowsReserved count written) :
    binding.CountsCodePoints operator length written where
  value_eq := value_eq
  counted := ⟨count, bound, points, points.length_decode⟩
  whole wellFormed := by
    have same : (Percent.decode written).length = count := points.length_decode.2.2.mpr wellFormed
    have short : (Percent.decode written).length ≤ length := same ▸ bound
    rw [value_eq]
    exact ⟨short, Operator.contribution_of_length_le truncated short⟩

/-- What is found of a truncated field are the code points that were captured. -/
theorem Field.ShowsItems.exists_points {field : Field} {contents : List Content}
    {captures : Captures Site} (shows : field.ShowsItems contents captures) {hints : Hints}
    {length : Nat} (truncated : field.occurrence.length? = some length) {value : Value}
    (found : Binding.finding field.operator field.part (captures.evidence field.part) hints
      field.index field.occurrence = .ok (.value value)) :
    ∃ written, captures.evidence field.part field.index .value = some [written] ∧
      value = .text (Percent.decode written) ∧
      ∃ count ≤ length, Percent.InCodePoints field.operator.allowsReserved count written := by
  have modifier := Variable.modifier_of_length? truncated
  obtain ⟨values, captured, some_, unrepeated, read⟩ := Binding.finding_eq_value found
  obtain ⟨-, read⟩ := read.resolve_right fun ⟨untruncated, _⟩ => by
    rw [truncated] at untruncated
    cases untruncated
  -- A truncated variable has a value only if a single text is captured.
  obtain ⟨written, rfl, rfl⟩ : ∃ written, values = [written] ∧
      value = .text (Percent.decode written) := by
    unfold Binding.textsFinding at read
    rw [modifier] at read
    match values, read with
    | [written], read =>
      cases read
      exact ⟨written, rfl, rfl⟩
  have evidence := eq_some_of_getD_eq_cons captured
  have valued : textsAt captures (field.site .value) = [written] :=
    (Captures.texts?_eq_some_iff.mp evidence).1
  have member : written ∈ contents.flatMap field.units := by
    rw [← shows.textsAt_value, valued]
    exact List.mem_singleton_self written
  obtain ⟨content, among, inside⟩ := List.mem_flatMap.mp member
  have shown : ∃ known, field.Admits known ∧ written ∈ field.units known :=
    ⟨content, (shows.admits content among).1, inside⟩
  obtain ⟨text, own, points⟩ := (Field.exists_truncated_iff modifier).mp shown
  obtain rfl : written = text := List.mem_singleton.mp own
  exact ⟨written, evidence, rfl, points⟩

namespace Template

variable {template : Template} {hints : Hints} {uri : Text} {found : Match}

/-- **What truncated occurrences are bound to.** A match binds every truncated occurrence to what
the code points of one captured text stand for, and no more of them are captured than the truncation
allows. The value is not longer, and nothing of it is left out when it is expanded, where these code
points are well-formed UTF-8; otherwise it has more characters than code points were counted. -/
theorem match?_truncated (matched : template.match? hints uri = .ok (some found)) :
    ∃ captures bindings, template.capture hints uri = .ok (some captures) ∧
      bindingsFrom captures hints 0 template.parts = .ok (some bindings) ∧
      (∀ name binding, found.bindings.get? name = some binding → binding ∈ bindings) ∧
      ∀ binding ∈ bindings, ∀ length, binding.occurrence.length? = some length →
        ∃ index expression position written,
          template.parts[index]? = some (.expression expression) ∧
          expression.occurrences[position]? = some binding.occurrence ∧
          captures.evidence index position .value = some [written] ∧
          binding.CountsCodePoints expression.operator length written := by
  obtain ⟨captures, bindings, captured, made, -, merged⟩ := match?_eq_some_iff.mp matched
  refine ⟨captures, bindings, captured, made, fun name binding bound => ?_,
    fun binding member length truncated => ?_⟩
  · exact ((Bindings.represent_ofList merged).present name binding bound).2.mem
  · obtain ⟨index, expression, position, placed, occurs, known⟩ :=
      exists_finding_of_mem made member
    rw [Nat.zero_add] at known
    obtain ⟨contents, shows⟩ := exists_contents captured placed occurs
    obtain ⟨written, valued, value_eq, count, bound, points⟩ :=
      shows.exists_points truncated known
    exact ⟨index, expression, position, written, placed, occurs, valued,
      Binding.countsCodePoints truncated value_eq bound points⟩

/-- A character and a surrogate are two code points, and they are bound as four characters. -/
theorem match?_truncated_surrogate :
    let v : Variable := ⟨['x'], .truncated 2, rfl, rfl⟩
    let template : Template := ⟨[.expression ⟨.simple, [v], by simp⟩]⟩
    let binding : Binding := ⟨v, .text ['é', '\uFFFD', '\uFFFD', '\uFFFD']⟩
    ∃ found, template.match? {} "%C3%A9%ED%A0%80".toList = .ok (some found) ∧
      found.bindings.get? v.name = some binding ∧
      ∃ written, binding.CountsCodePoints .simple 2 written := by
  intro v template binding
  have matched : template.match? {} "%C3%A9%ED%A0%80".toList =
      .ok (some ⟨template, ⟨[(v.name, binding)], by decide⟩⟩) := by decide +kernel
  refine ⟨_, matched, rfl, ?_⟩
  obtain ⟨captures, bindings, -, -, kept, each⟩ := match?_truncated matched
  have member : binding ∈ bindings := kept v.name binding rfl
  obtain ⟨index, expression, position, written, placed, -, -, counts⟩ := each binding member 2 rfl
  have among : Part.expression expression ∈ template.parts := List.mem_of_getElem? placed
  obtain rfl := Part.expression.inj (List.mem_singleton.mp among)
  exact ⟨written, counts⟩

/-- The two bytes of an overlong form are one code point, and they are bound as two characters, of
which a truncation to one keeps only the first. -/
theorem match?_truncated_overlong :
    let v : Variable := ⟨['x'], .truncated 1, rfl, rfl⟩
    let template : Template := ⟨[.expression ⟨.simple, [v], by simp⟩]⟩
    let value : Value := .text ['\uFFFD', '\uFFFD']
    ∃ found, template.match? {} "%C0%80".toList = .ok (some found) ∧
      found.bindings.get? v.name = some ⟨v, value⟩ ∧
      template.expand found.bindings.values = .ok "%EF%BF%BD".toList ∧
      Operator.encode .simple ['\uFFFD', '\uFFFD'] = "%EF%BF%BD%EF%BF%BD".toList := by
  intro v template value
  have matched : template.match? {} "%C0%80".toList =
      .ok (some ⟨template, ⟨[(v.name, ⟨v, value⟩)], by decide⟩⟩) := by decide +kernel
  exact ⟨_, matched, by decide +kernel, by decide +kernel, by decide +kernel⟩

end Template

/-- No hints are needed to say that the value of a variable that is not exploded is a text. -/
theorem Hints.tells_text {v : Variable} (whole : v.isExploded = false) (text : Text) :
    Hints.Tells {} v (.text text) where
  list _ list := by cases list
  map _ map := by cases map
  text _ _ := by simp
  truncated _ := by simp
  exploded apart := by
    rw [whole] at apart
    cases apart
  required required := by cases required

/-- A truncation keeps a text that is short enough. -/
theorem Variable.kept_of_length_le {v : Variable} {length : Nat} {text : Text}
    (truncated : v.length? = some length) (short : text.length ≤ length) : v.kept text = text := by
  rw [kept, truncated]
  exact List.take_of_length_le short

theorem Operator.assemble_single (operator : Operator) (text : Text) :
    operator.assemble [text] = operator.first ++ text := by
  rw [assemble, List.isEmpty_cons, if_neg Bool.false_ne_true, Text.joined_singleton]

namespace Field

variable {field : Field} {length count : Nat} {text : Text}

/-- Code points of a truncated field are read in one way only. -/
theorem whole?_unnamed_truncated (truncated : field.occurrence.length? = some length)
    (points : Percent.InCodePoints field.operator.allowsReserved count text)
    (bound : count ≤ length) :
    field.unnamed.readings.whole? text = some [field.mark .value text] := by
  rw [unnamed, Variable.modifier_of_length? truncated]
  apply Readings.whole?_eq_of_unique
  · exact (derives_captureCodePoints (Nat.zero_le length)).mpr
      ⟨⟨count, Nat.zero_le count, bound, points⟩, rfl⟩
  · intro other derived
    exact ((derives_captureCodePoints (Nat.zero_le length)).mp derived).2

/-- What is captured of a truncated field without a name is its text. -/
theorem marks_of_truncated (unnamed : field.operator.isNamed = false)
    (truncated : field.occurrence.length? = some length) (text : Text) :
    field.marks (.texts [text]) = [field.mark .value text] := by
  have whole : field.occurrence.isExploded = false :=
    Variable.isExploded_of_length? (Option.isSome_of_eq_some truncated)
  rw [marks_of_whole whole, nameMarks_of_unnamed unnamed]
  rfl

end Field

namespace Expression

variable {expression : Expression} {part : Nat} {hints : Hints} {v : Variable} {length : Nat}
  {text : Text} {environment : Environment}

/-- An encoded text that is too long for a truncated variable is not read. -/
theorem whole?_eq_none_of_lt (unnamed : expression.operator.isNamed = false)
    (single : expression.occurrences = [v]) (truncated : v.length? = some length)
    (long : length < text.length) :
    (patternOf expression.operator (expression.fields part hints)).readings.whole?
      (expression.operator.first ++ expression.operator.encode text) = none := by
  rw [Readings.whole?_eq_none_iff]
  intro marks derived
  obtain ⟨selection, isOf, written, -⟩ := exists_selection_of_derives unnamed
    (expression.isOf_fields part hints) (expression.fields_ne_nil part hints) derived
  rw [fields_single part hints single, Selection.isOf_cons_iff] at isOf
  obtain ⟨content, later, rfl, admits, ended⟩ := isOf
  obtain rfl := Selection.isOf_nil_iff.mp ended
  have whole : v.isExploded = false :=
    Variable.isExploded_of_length? (Option.isSome_of_eq_some truncated)
  have counted : Percent.InCodePoints expression.operator.allowsReserved text.length
      (expression.operator.encode text) := Percent.inCodePoints_encode text
  cases content with
  | none =>
    -- Only an empty text can be left out, and it is never too long.
    have nothing : expression.operator.encode text = [] := (List.append_eq_nil_iff.mp written).2
    have empty : ¬ 1 ≤ text.length := mt counted.pos_iff.mp (not_not.mpr nothing)
    omega
  | some known =>
    let field : Field := expression.field part hints v 0
    have shown : ∃ known, field.Admits known ∧
        expression.operator.encode text = field.written known :=
      ⟨known, admits known rfl,
        List.append_cancel_left (written.trans (expression.operator.assemble_single _))⟩
    obtain ⟨own, writes, count, bound, points⟩ :=
      (Field.exists_truncated_iff (Variable.modifier_of_length? truncated)).mp shown
    rw [Field.written_single unnamed whole] at writes
    have exactly : text.length = count := counted.count_eq (writes ▸ points)
    omega

/-- A text that is not too long is expanded to its encoding. -/
theorem expand_of_length_le (unnamed : expression.operator.isNamed = false)
    (single : expression.occurrences = [v]) (truncated : v.length? = some length)
    (short : text.length ≤ length) (bound : environment.value v.name = .text text) :
    expression.expand environment =
      .ok (expression.operator.first ++ expression.operator.encode text) := by
  have contributed : expression.operator.contribution v (environment.value v.name) =
      .ok (some (expression.operator.encode text)) := by
    rw [bound, Operator.contribution_of_length_le truncated short, Operator.withName, unnamed]
    rfl
  refine expand_eq_ok_iff.mpr ⟨[some (expression.operator.encode text)], ?_,
    expression.operator.assemble_single _⟩
  rw [single, mapM_eq_ok_iff]
  exact .cons contributed .nil

/-- The whole of a text that is not too long is captured. -/
theorem whole?_of_length_le (unnamed : expression.operator.isNamed = false)
    (single : expression.occurrences = [v]) (truncated : v.length? = some length)
    (short : text.length ≤ length) (bound : environment.value v.name = .text text) :
    (patternOf expression.operator (expression.fields part hints)).readings.whole?
      (expression.operator.first ++ expression.operator.encode text) =
        some (expression.selection part hints environment).marks := by
  let field : Field := expression.field part hints v 0
  have content : field.content? (environment.value v.name) =
      some (.texts [expression.operator.encode text]) := by
    have kept : field.occurrence.kept text = text := Variable.kept_of_length_le truncated short
    rw [bound, Field.content?, Operator.content?, kept]
    rfl
  have alone : field.unnamed.readings.whole? (expression.operator.encode text) = some _ :=
    Field.whole?_unnamed_truncated truncated (Percent.inCodePoints_encode text) short
  have read := whole?_patternOf_single unnamed rfl alone
  rw [selection_single part hints single, content, fields_single part hints single,
    ← expression.operator.assemble_single, Selection.marks_cons_some,
    Field.marks_of_truncated unnamed truncated]
  exact read

end Expression

namespace Template

variable {template : Template} {expression : Expression} {v : Variable} {length : Nat}

/-- There is no match where the text of an expression between literals is not read. -/
theorem match?_between_of_unread {before after : List Literal} {hints : Hints} {text : Text}
    (parts : template.parts = Part.literals before ++ .expression expression :: Part.literals after)
    (fits : ∀ v ∈ expression.occurrences, Expression.contradiction? hints v = none)
    (unread : (Expression.patternOf expression.operator
      (expression.fields before.length hints)).readings.whole? text = none) :
    template.match? hints ((before.map Literal.text).flatten ++
      (text ++ (after.map Literal.text).flatten)) = .ok none := by
  have built := pattern_eq_ok_iff.mpr ⟨_, parts ▸ Part.patterns_between before after fits, rfl⟩
  rw [match?_eq_ofCaptures built, Pattern.whole?_between, unread, ofCaptures]

/-- **Truncations count characters.** A truncated variable that stands alone in an expression
without names matches an encoded text just if the text has no more characters than the truncation
allows, however many bytes they have, and then the variable is bound to this text. -/
theorem match?_counted (parts : template.parts = [.expression expression])
    (unnamed : expression.operator.isNamed = false) (single : expression.occurrences = [v])
    (truncated : v.length? = some length) (text : Text) :
    (text.length ≤ length → ∃ bindings : Bindings,
      template.match? {} (expression.operator.first ++ expression.operator.encode text) =
          .ok (some ⟨template, bindings⟩) ∧
        bindings.values.entries = [(v.name, .text text)]) ∧
      (length < text.length → template.match? {}
        (expression.operator.first ++ expression.operator.encode text) = .ok none) := by
  have between : template.parts =
      Part.literals [] ++ .expression expression :: Part.literals [] := parts
  have whole : v.isExploded = false :=
    Variable.isExploded_of_length? (Option.isSome_of_eq_some truncated)
  have own : ∀ w ∈ expression.occurrences, w = v := by simp [single]
  constructor
  · intro short
    let environment : Environment := ⟨[(v.name, .text text)], List.nodup_singleton v.name⟩
    have bound : environment.value v.name = .text text := by
      rw [Environment.value, OrderedMap.get?_eq_some_iff.mpr (List.mem_singleton_self _)]
      rfl
    have expandedHere := Expression.expand_of_length_le unnamed single truncated short bound
    have expanded : template.expand environment =
        .ok (expression.operator.first ++ expression.operator.encode text) := by
      rw [expand_eq_ok_iff, parts]
      exact ⟨_, mapM_eq_ok_iff.mpr (.cons expandedHere .nil), List.flatten_singleton⟩
    have told : ∀ w ∈ expression.occurrences, Hints.TellsKept {} w (environment.value w.name) := by
      intro w occurs
      rw [own w occurs, bound]
      exact .of_tells (Hints.tells_text whole text)
    obtain ⟨bindings, matched, entries⟩ := match?_between between (by simp [single]) told expanded
      fun known expandedKnown => by
        obtain rfl := Except.ok.inj (expandedHere.symm.trans expandedKnown)
        exact Expression.whole?_of_length_le unnamed single truncated short bound
    refine ⟨bindings, matched, entries.trans ?_⟩
    simp [Environment.restricted, single, bound, Variable.kept?,
      Variable.kept_of_length_le truncated short]
  · intro long
    have fits : ∀ w ∈ expression.occurrences, Expression.contradiction? {} w = none := fun w _ =>
      (Hints.fits_none w .undefined).contradiction?_eq_none
    have unread := match?_between_of_unread between fits
      (Expression.whole?_eq_none_of_lt unnamed single truncated long)
    rwa [List.map_nil, List.flatten_nil, List.nil_append, List.append_nil] at unread

/-- Two characters of seven bytes are matched by a truncation to two, and three characters of one
byte each are not. -/
theorem match?_counted_two :
    ∃ template, Template.parse "\x7b+x:2\x7d".toList = .ok template ∧
      (∃ bindings : Bindings,
        template.match? {} "%E2%82%AC%F0%9F%98%80".toList = .ok (some ⟨template, bindings⟩) ∧
          bindings.values.entries = [(['x'], .text ['€', '😀'])]) ∧
      template.match? {} "a/b".toList = .ok none := by
  let v : Variable := ⟨['x'], .truncated 2, rfl, rfl⟩
  let expression : Expression := ⟨.reserved, [v], by simp⟩
  let template : Template := ⟨[.expression expression]⟩
  have parsed : Template.parse "\x7b+x:2\x7d".toList = .ok template := by decide +kernel
  have encoded : Operator.reserved.encode ['€', '😀'] = "%E2%82%AC%F0%9F%98%80".toList := by
    decide +kernel
  have kept : Operator.reserved.encode ['a', '/', 'b'] = "a/b".toList := by decide +kernel
  have parts : template.parts = [.expression expression] := rfl
  have short := (match?_counted parts rfl rfl rfl ['€', '😀']).1 (by decide)
  have long := (match?_counted parts rfl rfl rfl ['a', '/', 'b']).2 (by decide)
  rw [← encoded, ← kept]
  exact ⟨template, parsed, short, long⟩

end Template

end UriTemplates
