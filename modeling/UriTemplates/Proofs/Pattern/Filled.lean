import UriTemplates.Proofs.Pattern.Written

/-!
# Choices without options

A choice without options has nothing to read, but it is written as the empty group, which matches
the empty text. So matching takes it for an empty sequence: with one in its place
(`Pattern.filled`) a pattern is written as before (`Pattern.regex_filled`) and the same captures
are found (`Pattern.captures?_filled`). What is then read differs only if there is such a choice
(`Pattern.filled_eq`), and where separators keep the elements of repetitions apart, it is what the
written expression reads (`Pattern.isFaithful_filled`).
-/

namespace UriTemplates.Pattern

variable {κ : Type}

mutual

/-- A pattern with an empty sequence in the place of every choice without options. -/
def filled : Pattern κ → Pattern κ
  | plain regex => plain regex
  | capture key inner => capture key inner.filled
  | seq nodes => seq (allFilled nodes)
  | choice [] => seq []
  | choice (first :: options) => choice (first.filled :: allFilled options)
  | optional inner isLazy => optional inner.filled isLazy
  | repeated element separator isLazy requiresMore =>
    repeated element.filled separator isLazy requiresMore

/-- The patterns of a list, each filled. -/
def allFilled : List (Pattern κ) → List (Pattern κ)
  | [] => []
  | node :: nodes => node.filled :: allFilled nodes

end

mutual

/-- Whether every separator in a pattern has no alternatives at its top level, which would
divide what is written around it, and does not match the empty text. -/
def separatesWell : Pattern κ → Bool
  | plain _ => true
  | capture _ inner => inner.separatesWell
  | seq nodes => allSeparateWell nodes
  | choice options => allSeparateWell options
  | optional inner _ => inner.separatesWell
  | repeated element separator _ _ =>
    element.separatesWell && separator.isUndivided && !separator.isMatch []

/-- Whether the separators in all patterns of a list are such. -/
def allSeparateWell : List (Pattern κ) → Bool
  | [] => true
  | node :: nodes => node.separatesWell && allSeparateWell nodes

end

/-- Filling goes through the patterns of a list one by one. -/
theorem allFilled_eq_map (nodes : List (Pattern κ)) : allFilled nodes = nodes.map filled := by
  induction nodes with
  | nil => rfl
  | cons node nodes ih => rw [allFilled, ih, List.map_cons]

/-! ### What is written -/

/-- Patterns that are written alike make up the same groups. -/
theorem groups_allFilled {nodes : List (Pattern κ)}
    (same : ∀ node ∈ nodes, node.filled.body = node.body) :
    groups (allFilled nodes) = groups nodes := by
  induction nodes with
  | nil => rfl
  | cons node nodes ih =>
    obtain ⟨first, later⟩ := List.forall_mem_cons.mp same
    rw [allFilled, groups, groups, first, ih later]

/-- A filled pattern is written inside of its group as the pattern is. -/
theorem body_filled (pattern : Pattern κ) : pattern.filled.body = pattern.body := by
  induction pattern using induction_nodes with
  | plain regex => rfl
  | capture key inner same => rw [filled, body, body, same]
  | seq nodes same => rw [filled, body, body, groups_allFilled same]
  | choice options same =>
    cases options with
    | nil => rfl
    | cons first options =>
      rw [filled, body, body, ← allFilled, groups_allFilled same]
  | optional inner isLazy same => rw [filled, body, body, same]
  | repeated element separator isLazy requiresMore same => rw [filled, body, body, same]

/-- **A filled pattern is written as the pattern is.** -/
theorem regex_filled (pattern : Pattern κ) : pattern.filled.regex = pattern.regex :=
  congrArg Regex.group pattern.body_filled

/-- Filled patterns make up the groups of the patterns. -/
theorem groups_filled (nodes : List (Pattern κ)) : groups (allFilled nodes) = groups nodes :=
  groups_allFilled fun node _ => node.body_filled

/-! ### What is captured -/

/-- Whether the same captures are found for a filled pattern, with a span and without one. -/
structure RecapturesFilled (pattern : Pattern κ) : Prop where
  ofAbsent : pattern.filled.capturesOfAbsent = pattern.capturesOfAbsent
  inSpan : ∀ span, pattern.filled.capturesIn span = pattern.capturesIn span

/-- Filled nodes one after the other have the same captures in the same spans. -/
theorem capturesInOrder_filled {nodes : List (Pattern κ)}
    (same : ∀ node ∈ nodes, node.RecapturesFilled) (spans : List Text) :
    capturesInOrder (allFilled nodes) spans = capturesInOrder nodes spans := by
  induction nodes generalizing spans with
  | nil => rfl
  | cons node nodes ih =>
    obtain ⟨first, later⟩ := List.forall_mem_cons.mp same
    cases spans with
    | nil => rfl
    | cons span spans => rw [allFilled, capturesInOrder, capturesInOrder, first.inSpan, ih later]

/-- The first filled option that matches has the captures of the option. -/
theorem capturesOfChosen_filled {options : List (Pattern κ)}
    (same : ∀ option ∈ options, option.RecapturesFilled) (division span : Text) :
    capturesOfChosen division (allFilled options) span =
      capturesOfChosen division options span := by
  induction options with
  | nil => rfl
  | cons option options ih =>
    obtain ⟨first, later⟩ := List.forall_mem_cons.mp same
    rw [allFilled, capturesOfChosen, capturesOfChosen, regex_filled, first.inSpan, ih later]

/-- A sequence of filled nodes has the captures of the sequence. -/
theorem recapturesFilled_seq {nodes : List (Pattern κ)}
    (same : ∀ node ∈ nodes, node.RecapturesFilled) : (seq nodes).RecapturesFilled := by
  match nodes with
  | [] => exact ⟨rfl, fun _ => rfl⟩
  | [only] =>
    have alone := same only List.mem_cons_self
    exact ⟨alone.ofAbsent, alone.inSpan⟩
  | first :: second :: nodes =>
    refine ⟨rfl, fun span => ?_⟩
    have divided : divisionText (seq (allFilled (first :: second :: nodes))) =
        divisionText (seq (first :: second :: nodes)) := by
      rw [divisionText, divisionText, groups_filled]
    rw [filled, capturesIn, capturesIn, groups_filled, divided]
    · cases Regex.spans? (groups (first :: second :: nodes)) (Cursor.start span) with
      | none => rfl
      | some spans => exact capturesInOrder_filled same spans
    · exact nofun
    · exact nofun

/-- A filled choice has the captures of the choice. Without options nothing is captured, and no
text but the empty one is divided. -/
theorem recapturesFilled_choice {options : List (Pattern κ)}
    (same : ∀ option ∈ options, option.RecapturesFilled) : (choice options).RecapturesFilled := by
  cases options with
  | nil =>
    refine ⟨rfl, fun span => ?_⟩
    cases span <;> rfl
  | cons first options =>
    refine ⟨rfl, fun span => ?_⟩
    have divided : divisionText (choice (allFilled (first :: options))) =
        divisionText (choice (first :: options)) := by
      rw [divisionText, divisionText, groups_filled]
    rw [filled, ← allFilled, capturesIn, capturesIn, divided, capturesOfChosen_filled same]
    rfl

/-- **The captures of a filled pattern** are those of the pattern. -/
theorem recapturesFilled (pattern : Pattern κ) : pattern.RecapturesFilled := by
  induction pattern using induction_nodes with
  | plain regex => exact ⟨rfl, fun _ => rfl⟩
  | capture key inner same =>
    refine ⟨?_, fun span => ?_⟩
    · rw [filled, capturesOfAbsent, capturesOfAbsent, same.ofAbsent]
    · rw [filled, capturesIn, capturesIn, same.inSpan]
  | seq nodes same => exact recapturesFilled_seq same
  | choice options same => exact recapturesFilled_choice same
  | optional inner isLazy same =>
    refine ⟨rfl, fun span => ?_⟩
    have divided : divisionText (optional inner.filled isLazy) =
        divisionText (optional inner isLazy) := by
      rw [divisionText, divisionText, regex_filled]
    rw [filled, capturesIn, capturesIn, regex_filled, same.inSpan, divided]
  | repeated element separator isLazy requiresMore same =>
    refine ⟨rfl, fun span => ?_⟩
    have inSpan : element.filled.capturesIn = element.capturesIn := funext same.inSpan
    rw [filled, capturesIn, capturesIn, regex_filled, same.ofAbsent, inSpan]

/-- **Matching takes a choice without options for an empty sequence.** -/
theorem captures?_filled (pattern : Pattern κ) (text : Text) :
    pattern.filled.captures? text = pattern.captures? text := by
  rw [captures?, captures?, regex_filled, pattern.recapturesFilled.inSpan]

/-! ### What is read -/

/-- A pattern is filled already if every choice in it has an option. -/
theorem filled_eq (pattern : Pattern κ) (offers : ∀ node ∈ pattern.nodes, node ≠ choice []) :
    pattern.filled = pattern := by
  have each {nodes : List (Pattern κ)} (same : ∀ node ∈ nodes, node.filled = node) :
      allFilled nodes = nodes := by
    rw [allFilled_eq_map]
    exact (List.map_congr_left same).trans (List.map_id nodes)
  refine induction_where (motive := fun pattern => pattern.filled = pattern)
    ?plain ?capture ?seq ?choice ?optional ?repeated pattern offers
  case plain => exact fun regex _ => rfl
  case capture =>
    intro key inner same
    rw [filled, same]
  case seq =>
    intro nodes same
    rw [filled, each same]
  case choice =>
    intro options offered same
    obtain ⟨first, options, rfl⟩ := List.exists_cons_of_ne_nil (mt (congrArg choice) offered)
    rw [filled, ← allFilled, each same]
  case optional =>
    intro inner isLazy same
    rw [filled, same]
  case repeated =>
    intro element separator isLazy requiresMore _ same
    rw [filled, same]

/-- Filled patterns are written faithfully if their separators keep elements apart. -/
theorem allFaithful_filled {nodes : List (Pattern κ)}
    (same : ∀ node ∈ nodes, node.filled.isFaithful = node.separatesWell) :
    allFaithful (allFilled nodes) = allSeparateWell nodes := by
  induction nodes with
  | nil => rfl
  | cons node nodes ih =>
    obtain ⟨first, later⟩ := List.forall_mem_cons.mp same
    rw [allFilled, allFaithful, allSeparateWell, first, ih later]

/-- **A filled pattern is written faithfully** just if its separators keep elements apart. -/
theorem isFaithful_filled (pattern : Pattern κ) :
    pattern.filled.isFaithful = pattern.separatesWell := by
  induction pattern using induction_nodes with
  | plain regex => rfl
  | capture key inner same => exact same
  | seq nodes same => exact allFaithful_filled same
  | choice options same =>
    cases options with
    | nil => rfl
    | cons first options => exact allFaithful_filled same
  | optional inner isLazy same => exact same
  | repeated element separator isLazy requiresMore same =>
    rw [filled, isFaithful, separatesWell, same]

end UriTemplates.Pattern
