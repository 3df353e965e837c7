import UriTemplates.Proofs.Grammar.Specification
import UriTemplates.Template.Parse

/-!
# The grammar of templates

A template is written with literal characters, triplets and expressions one after the other
(`Text.IsTemplate`). No such token starts another one (`Text.IsToken.eq_of_append`), so the
longest template that a text starts with is found token by token: it ends where no token follows
(`Text.IsTemplate.length_le`), and it always exists (`Text.exists_longest_template`).
-/

namespace UriTemplates

/-- Names, lengths and the signs of modifiers make up a specification. -/
theorem Variable.IsSpecification.notMem {specification : Text} {c : Char}
    (specified : IsSpecification specification) (refused : Percent.isKept false c = false)
    (noPercent : c ≠ '%') (noColon : c ≠ ':') (noAsterisk : c ≠ '*') : c ∉ specification := by
  have inName : ∀ {name : Text}, Text.IsName name → c ∉ name := fun named =>
    (Percent.written_of_completesName (Text.isName_iff.mp named)).notMem refused noPercent
  cases specified with
  | plain named => exact inName named
  | exploded named => simp [inName named, noAsterisk]
  | truncated named =>
    have noDigit : ∀ {number : Nat}, c ∉ Nat.toDigits 10 number := by
      intro number member
      have decimal := Text.isDigit_of_mem_toDigits member
      simp [Percent.isKept, Text.isUnreserved, Char.isAlphanum, decimal] at refused
    simp [inName named, noColon, noDigit]

namespace Text

/-- Expressions: specifications in braces, with commas between them, after the text that selects
the kind. -/
def IsExpression (symbol text : Text) : Prop :=
  ∃ specifications : List Text, specifications ≠ [] ∧
    (∀ specification ∈ specifications, Variable.IsSpecification specification) ∧
      text = '\x7b' :: symbol ++ joined ',' specifications ++ ['\x7d']

/-- What templates are made of. -/
inductive IsToken : Text → Prop
  /-- A literal character. -/
  | char {c : Char} (literal : isLiteralChar c = true) : IsToken [c]
  /-- A triplet. -/
  | triplet {high low : Char} (highDigit : isHexDigit high = true)
      (lowDigit : isHexDigit low = true) : IsToken ['%', high, low]
  /-- An expression with an operator. -/
  | expression {text : Text} (operator : Operator) (written : IsExpression operator.symbol text) :
      IsToken text

/-- Template texts: tokens one after the other. -/
inductive IsTemplate : Text → Prop
  /-- No token. -/
  | nil : IsTemplate []
  /-- A token before a template. -/
  | token {token rest : Text} (first : IsToken token) (more : IsTemplate rest) :
      IsTemplate (token ++ rest)

/-- Whether no token starts a text. -/
def IsStuck (text : Text) : Prop :=
  ∀ token rest, IsToken token → text ≠ token ++ rest

/-- Joined specifications hold no braces. -/
theorem isBrace_of_mem_joined {specifications : List Text}
    (each : ∀ specification ∈ specifications, Variable.IsSpecification specification) :
    ∀ c ∈ joined ',' specifications, Segment.isBrace c = false := by
  have apart : '\x7b' ∉ joined ',' specifications ∧ '\x7d' ∉ joined ',' specifications :=
    ⟨notMem_joined (by decide) fun specification member => (each specification member).notMem
      (by decide) (by decide) (by decide) (by decide),
    notMem_joined (by decide) fun specification member => (each specification member).notMem
      (by decide) (by decide) (by decide) (by decide)⟩
  intro c member
  simp only [Segment.isBrace, Bool.or_eq_false_iff, beq_eq_false_iff_ne]
  exact ⟨fun same => apart.1 (same ▸ member), fun same => apart.2 (same ▸ member)⟩

/-- No brace selects a kind of expression. -/
theorem isBrace_of_isSymbol {c : Char} (known : Operator.isSymbol c = true) :
    Segment.isBrace c = false := by
  rw [Bool.eq_false_iff]
  intro brace
  simp only [Segment.isBrace, Bool.or_eq_true, beq_iff_eq] at brace
  rcases brace with rfl | rfl <;> exact absurd known (by decide)

/-- The characters of operators are symbols. -/
theorem isSymbol_of_mem_symbol (operator : Operator) :
    ∀ c ∈ operator.symbol, Operator.isSymbol c = true := by
  have all : operator.symbol.all Operator.isSymbol = true := by cases operator <;> rfl
  exact List.all_eq_true.mp all

/-- Expressions that start the same text are the same: the first closing brace ends them. -/
theorem IsExpression.eq_of_append {symbol other first second rest more : Text}
    (known : ∀ c ∈ symbol, Operator.isSymbol c = true)
    (knownOther : ∀ c ∈ other, Operator.isSymbol c = true)
    (written : IsExpression symbol first) (writtenOther : IsExpression other second)
    (same : first ++ rest = second ++ more) : first = second ∧ rest = more := by
  have closed : ∀ {selector : Text} {specifications : List Text},
      (∀ c ∈ selector, Operator.isSymbol c = true) →
      (∀ specification ∈ specifications, Variable.IsSpecification specification) →
      '\x7d' ∉ selector ++ joined ',' specifications := by
    intro selector specifications symbols each
    rw [List.mem_append, not_or]
    refine ⟨fun member => ?_, fun member => ?_⟩
    · exact absurd (isBrace_of_isSymbol (symbols _ member)) (by decide)
    · exact absurd (isBrace_of_mem_joined each _ member) (by decide)
  obtain ⟨specifications, -, each, rfl⟩ := written
  obtain ⟨others, -, eachOther, rfl⟩ := writtenOther
  have inner : (symbol ++ joined ',' specifications) ++ '\x7d' :: rest =
      (other ++ joined ',' others) ++ '\x7d' :: more := by
    simpa using same
  obtain ⟨inside, after⟩ := append_cons_inj (closed known each) (closed knownOther eachOther) inner
  refine ⟨?_, after⟩
  simpa using congrArg (fun inside => '\x7b' :: inside ++ ['\x7d']) inside

/-- An expression starts with a brace. -/
theorem IsExpression.exists_eq_cons {symbol text : Text} (written : IsExpression symbol text) :
    ∃ rest, text = '\x7b' :: rest := by
  obtain ⟨specifications, -, -, rfl⟩ := written
  exact ⟨_, rfl⟩

theorem IsToken.ne_nil {token : Text} (known : IsToken token) : token ≠ [] := by
  cases known with
  | char literal => exact List.cons_ne_nil _ _
  | triplet highDigit lowDigit => exact List.cons_ne_nil _ _
  | expression operator written =>
    obtain ⟨rest, rfl⟩ := written.exists_eq_cons
    exact List.cons_ne_nil _ _

/-- **Tokens that start the same text are the same.** Their first character tells the kind of
token. -/
theorem IsToken.eq_of_append {first second rest more : Text} (known : IsToken first)
    (knownOther : IsToken second) (same : first ++ rest = second ++ more) :
    first = second ∧ rest = more := by
  cases known with
  | char literal =>
    cases knownOther with
    | char literalOther =>
      cases same
      exact ⟨rfl, rfl⟩
    | triplet highDigit lowDigit =>
      cases same
      exact absurd literal (by decide)
    | expression operator written =>
      obtain ⟨inside, rfl⟩ := written.exists_eq_cons
      cases same
      exact absurd literal (by decide)
  | triplet highDigit lowDigit =>
    cases knownOther with
    | char literal =>
      cases same
      exact absurd literal (by decide)
    | triplet highOther lowOther =>
      cases same
      exact ⟨rfl, rfl⟩
    | expression operator written =>
      obtain ⟨inside, rfl⟩ := written.exists_eq_cons
      cases same
  | expression operator written =>
    cases knownOther with
    | char literal =>
      obtain ⟨inside, rfl⟩ := written.exists_eq_cons
      cases same
      exact absurd literal (by decide)
    | triplet highDigit lowDigit =>
      obtain ⟨inside, rfl⟩ := written.exists_eq_cons
      cases same
    | expression other writtenOther =>
      exact written.eq_of_append (isSymbol_of_mem_symbol operator) (isSymbol_of_mem_symbol other)
        writtenOther same

/-- A template that no token follows is the longest one that its text starts with. -/
theorem IsTemplate.length_le {front back : Text} (template : IsTemplate front)
    (stuck : IsStuck back) {other more : Text} (known : IsTemplate other)
    (same : other ++ more = front ++ back) : other.length ≤ front.length := by
  induction template generalizing other more with
  | nil =>
    cases known with
    | nil => exact Nat.le_refl 0
    | token first later => exact (stuck _ _ first (by simpa using same.symm)).elim
  | token first later ih =>
    cases known with
    | nil => exact Nat.zero_le _
    | token firstOther laterOther =>
      rw [List.append_assoc, List.append_assoc] at same
      obtain ⟨rfl, following⟩ := firstOther.eq_of_append first same
      rw [List.length_append, List.length_append]
      exact Nat.add_le_add_left (ih laterOther following) _

/-- Every text is a template and a rest that no token starts. -/
theorem exists_longest_template (text : Text) :
    ∃ front back, text = front ++ back ∧ IsTemplate front ∧ IsStuck back := by
  induction length : text.length using Nat.strongRecOn generalizing text with
  | ind length' ih =>
    by_cases stuck : IsStuck text
    · exact ⟨[], text, rfl, .nil, stuck⟩
    · simp only [IsStuck, not_forall, not_not] at stuck
      obtain ⟨token, rest, first, rfl⟩ := stuck
      have shorter : rest.length < length' := by
        rw [← length, List.length_append]
        exact Nat.lt_add_of_pos_left (List.length_pos_iff.mpr first.ne_nil)
      obtain ⟨front, back, rfl, template, ended⟩ := ih _ shorter rest rfl
      exact ⟨token ++ front, back, (List.append_assoc _ _ _).symm, .token first template, ended⟩

end Text

end UriTemplates
