import Mathlib.Data.List.TakeWhile
import UriTemplates.Proofs.Text.Digits
import UriTemplates.Regex.Parse

/-!
# Tokens of regular expressions

A token is read from what it is written as, and what comes after it is left
(`Regex.token?_eq_some`). What comes after is only looked at where a question mark could make a
quantifier lazy, and where an opening brace may begin a quantifier or stand for itself. Parentheses
and bars decide both (`Regex.StartsApart`), so a token is the same if they follow the text.
-/

namespace UriTemplates.Regex

/-- A token as it is written. -/
def Token.text : Token → Text
  | char test => test.text
  | opening => ['(', '?', ':']
  | closing => [')']
  | bar => ['|']
  | quantifier count isLazy => count.text ++ (if isLazy then ['?'] else [])

/-- What a text does not begin with is not at the beginning of a longer text either. -/
theorem append_ne_cons {text : Text} {c : Char} (nonempty : text ≠ [])
    (other : ∀ rest, text ≠ c :: rest) (after rest : Text) : text ++ after ≠ c :: rest := by
  obtain ⟨first, later, rfl⟩ := List.exists_cons_of_ne_nil nonempty
  intro same
  cases same
  exact other later rfl

/-! ### Characters and classes -/

/-- A character is read from its own text, whatever comes after it. -/
theorem spelledChar?_eq_some {text rest : Text} {spelled : SpelledChar}
    (read : spelledChar? text = some (spelled, rest)) :
    text = spelled.text ++ rest ∧
      ∀ after, spelledChar? (text ++ after) = some (spelled, rest ++ after) := by
  unfold spelledChar? at read
  split at read
  · cases read
  · rename_i c later
    split_ifs at read with letter
    cases read
    exact ⟨rfl, fun after => by simp [spelledChar?, letter]⟩
  · rename_i c later _
    split_ifs at read with backslash
    cases read
    exact ⟨rfl, fun after => by simp [spelledChar?, backslash]⟩

/-- A character is read from a text that is not empty. -/
theorem ne_nil_of_spelledChar? {text : Text} {read : SpelledChar × Text}
    (spelled : spelledChar? text = some read) : text ≠ [] := by
  rintro rfl
  cases spelled

/-- The members of a class one by one. -/
theorem members?_succ (fuel : Nat) {isFirst : Bool} {text : Text}
    (goesOn : isFirst = false → ∀ rest, text ≠ ']' :: rest) :
    members? (fuel + 1) isFirst text =
      (spelledChar? text).bind fun (first, rest) =>
        (memberFrom? first rest).bind fun (member, rest) =>
          (members? fuel false rest).map fun (members, rest) => (member :: members, rest) := by
  rw [members?]
  · simp only [Option.bind_eq_bind, Option.map_eq_bind]
    rfl
  · intro rest notFirst closed
    exact goesOn notFirst rest closed

/-- A range is written as its ends with a hyphen between them. -/
theorem text_of_range? {first last : SpelledChar} {range : ClassMember}
    (upwards : range? first last = some range) : range.text = first.text ++ '-' :: last.text := by
  unfold range? at upwards
  split at upwards
  · cases upwards
    rfl
  · cases upwards

/-- A member is read from its own text, whatever comes after what is left. -/
theorem memberFrom?_eq_some {first : SpelledChar} {text rest : Text} {member : ClassMember}
    (read : memberFrom? first text = some (member, rest)) :
    first.text ++ text = member.text ++ rest ∧ (rest ≠ [] →
      ∀ after, memberFrom? first (text ++ after) = some (member, rest ++ after)) := by
  unfold memberFrom? at read
  split at read
  · cases read
    exact ⟨rfl, fun _ after => rfl⟩
  · rename_i later range
    simp only [Option.bind_eq_bind, Option.bind_eq_some_iff, Prod.exists] at read
    obtain ⟨last, left, spelled, ends, upwards, same⟩ := read
    cases same
    obtain ⟨whole, more⟩ := spelledChar?_eq_some spelled
    refine ⟨by simp [text_of_range? upwards, whole], fun _ after => ?_⟩
    rw [List.cons_append, memberFrom?, more after]
    · simp [upwards]
    · exact append_ne_cons (ne_nil_of_spelledChar? spelled) range after
  · rename_i one
    cases read
    refine ⟨rfl, fun nonempty after => ?_⟩
    have still := append_ne_cons nonempty one after
    rw [memberFrom?]
    · exact fun tail => still _
    · exact still

/-- The members of a class are read from their texts, whatever comes after their end. -/
theorem members?_eq_some {fuel : Nat} {isFirst : Bool} {text rest : Text}
    {members : List ClassMember} (read : members? fuel isFirst text = some (members, rest)) :
    text = members.flatMap ClassMember.text ++ ']' :: rest ∧ ∀ after more,
      members? (fuel + more) isFirst (text ++ after) = some (members, rest ++ after) := by
  induction fuel generalizing isFirst text members with
  | zero => cases read
  | succ fuel ih =>
    by_cases goesOn : isFirst = false → ∀ rest, text ≠ ']' :: rest
    · rw [members?_succ fuel goesOn] at read
      simp only [Option.bind_eq_some_iff, Option.map_eq_some_iff, Prod.exists] at read
      obtain ⟨first, later, spelled, member, last, ended, members, rest, others, same⟩ := read
      cases same
      obtain ⟨whole, moreSpelled⟩ := spelledChar?_eq_some spelled
      obtain ⟨same, moreEnded⟩ := memberFrom?_eq_some ended
      obtain ⟨rfl, moreOthers⟩ := ih others
      refine ⟨by rw [whole, same, List.flatMap_cons, List.append_assoc], fun after more => ?_⟩
      rw [Nat.add_right_comm, members?_succ]
      · simp only [moreSpelled, moreEnded (by simp), moreOthers, Option.bind_some,
          Option.map_some]
      · exact fun notFirst =>
          append_ne_cons (ne_nil_of_spelledChar? spelled) (goesOn notFirst) after
    · push Not at goesOn
      obtain ⟨rfl, later, rfl⟩ := goesOn
      cases read
      refine ⟨rfl, fun after more => ?_⟩
      rw [Nat.add_right_comm]
      rfl

/-- The members of a class are read from a text that is not empty, since a bracket ends them. -/
theorem ne_nil_of_members? {fuel : Nat} {isFirst : Bool} {text : Text}
    {read : List ClassMember × Text} (found : members? fuel isFirst text = some read) :
    text ≠ [] := by
  rw [(members?_eq_some found).1]
  simp

/-- A class is read from its own text, whatever comes after it. -/
theorem class?_eq_some {text rest : Text} {test : CharTest}
    (read : class? text = some (test, rest)) :
    '[' :: text = test.text ++ rest ∧
      ∀ after, class? (text ++ after) = some (test, rest ++ after) := by
  unfold class? at read
  split at read
  · obtain ⟨⟨members, later⟩, found, same⟩ := Option.map_eq_some_iff.mp read
    cases same
    obtain ⟨same, more⟩ := members?_eq_some found
    refine ⟨by simp [CharTest.text, same], fun after => ?_⟩
    rw [List.cons_append, class?, List.length_append, Nat.add_right_comm, more, Option.map_some]
  · rename_i notNegated
    obtain ⟨⟨members, later⟩, found, same⟩ := Option.map_eq_some_iff.mp read
    cases same
    obtain ⟨same, more⟩ := members?_eq_some found
    refine ⟨by simp [CharTest.text, same], fun after => ?_⟩
    rw [class?, List.length_append, Nat.add_right_comm, more, Option.map_some]
    exact append_ne_cons (ne_nil_of_members? found) notNegated after

/-! ### Quantifiers -/

/-- A text whose first character belongs to no token before it. -/
inductive StartsApart : Text → Prop
  /-- The text begins a group. -/
  | opening (rest : Text) : StartsApart ('(' :: rest)
  /-- The text ends a group. -/
  | closing (rest : Text) : StartsApart (')' :: rest)
  /-- The text goes on with another alternative. -/
  | bar (rest : Text) : StartsApart ('|' :: rest)

/-- The digits that a text begins with end before what starts apart. -/
theorem span_isDigit_append (text : Text) {after : Text} (apart : StartsApart after) :
    (text ++ after).takeWhile Char.isDigit = text.takeWhile Char.isDigit ∧
      (text ++ after).dropWhile Char.isDigit = text.dropWhile Char.isDigit ++ after := by
  induction text with
  | nil => cases apart <;> exact ⟨rfl, rfl⟩
  | cons c text ih =>
    rw [List.cons_append, List.takeWhile_cons, List.takeWhile_cons, List.dropWhile_cons,
      List.dropWhile_cons]
    split_ifs
    · exact ⟨congrArg (c :: ·) ih.1, ih.2⟩
    · exact ⟨rfl, rfl⟩

/-- Digits, if there are any, are the text of the count that they are read as. -/
theorem boundText_count? {digits : Text} (decimal : ∀ digit ∈ digits, digit.isDigit = true) :
    Quantifier.boundText (count? digits) = digits := by
  by_cases empty : digits = []
  · rw [empty]
    rfl
  · obtain ⟨zeros, same⟩ := Count.exists_text_eq empty decimal
    have padding : digits.length - (Nat.toDigits 10 (Text.digitsNumber digits)).length = zeros := by
      have size := congrArg List.length same
      rw [Count.text, List.length_append, List.length_replicate] at size
      exact Nat.sub_eq_of_eq_add size.symm
    rw [count?, if_neg (by simpa using empty)]
    simp only [padding]
    exact same

/-- Bounds are read from their own text. -/
theorem bounds?_eq_some {text rest : Text} {quantifier : Quantifier}
    (read : bounds? text = some (quantifier, rest)) :
    '\x7b' :: text = quantifier.text ++ rest := by
  have spelled (text : Text) :
      Quantifier.boundText (count? (text.takeWhile Char.isDigit)) ++ text.dropWhile Char.isDigit =
        text := by
    rw [boundText_count? fun _ => List.mem_takeWhile_imp, List.takeWhile_append_dropWhile]
  refine (congrArg ('\x7b' :: ·) (spelled text)).symm.trans ?_
  unfold bounds? at read
  split at read
  · rename_i later closed
    obtain ⟨count, counted, same⟩ := Option.map_eq_some_iff.mp read
    cases same
    simp [closed, counted, Quantifier.text, Quantifier.boundText]
  · rename_i later comma
    split at read
    · rename_i closed
      cases read
      have most := spelled later
      rw [closed] at most
      simp [comma, Quantifier.text, most]
    · cases read
  · cases read

/-- Whether a text begins with bounds is decided before what starts apart. -/
theorem bounds?_append (text : Text) {after : Text} (apart : StartsApart after) :
    bounds? (text ++ after) =
      (bounds? text).map fun (quantifier, rest) => (quantifier, rest ++ after) := by
  obtain ⟨digits, beyond⟩ := span_isDigit_append text apart
  unfold bounds?
  rw [digits, beyond]
  cases text.dropWhile Char.isDigit with
  | nil => cases apart <;> rfl
  | cons c later =>
    by_cases closed : c = '\x7d'
    · subst closed
      simp [Option.map_map, Function.comp_def]
    · by_cases comma : c = ','
      · subst comma
        obtain ⟨digits, beyond⟩ := span_isDigit_append later apart
        simp only [List.cons_append, digits, beyond]
        cases later.dropWhile Char.isDigit with
        | nil => cases apart <;> rfl
        | cons c last =>
          by_cases closed : c = '\x7d'
          · subst closed
            rfl
          · simp [closed]
      · simp [closed, comma]

/-- A quantifier with the question mark that may follow it is read from its own text, whatever
starts apart from it. -/
theorem quantified_eq {quantifier : Quantifier} {text rest : Text} {token : Token}
    (read : quantified quantifier text = (token, rest)) :
    quantifier.text ++ text = token.text ++ rest ∧ ∀ after, StartsApart after →
      quantified quantifier (text ++ after) = (token, rest ++ after) := by
  unfold quantified at read
  split at read
  · cases read
    exact ⟨by simp [Token.text], fun after apart => rfl⟩
  · rename_i greedy
    cases read
    refine ⟨by simp [Token.text], fun after apart => ?_⟩
    rw [quantified]
    intro later lazy
    cases text with
    | nil =>
      cases apart <;> cases lazy
    | cons c text =>
      cases lazy
      exact greedy text rfl

/-! ### Tokens -/

/-- **A token is read from its own text**, whatever starts apart from it. -/
theorem token?_eq_some {text rest : Text} {token : Token}
    (read : token? text = some (token, rest)) :
    text = token.text ++ rest ∧ ∀ after, StartsApart after →
      token? (text ++ after) = some (token, rest ++ after) := by
  unfold token? at read
  split at read
  · cases read
    exact ⟨rfl, fun _ _ => rfl⟩
  · cases read
  · cases read
    exact ⟨rfl, fun _ _ => rfl⟩
  · cases read
    exact ⟨rfl, fun _ _ => rfl⟩
  · obtain ⟨whole, more⟩ := quantified_eq (Option.some.inj read)
    exact ⟨whole, fun after apart => congrArg some (more after apart)⟩
  · obtain ⟨whole, more⟩ := quantified_eq (Option.some.inj read)
    exact ⟨whole, fun after apart => congrArg some (more after apart)⟩
  · obtain ⟨whole, more⟩ := quantified_eq (Option.some.inj read)
    exact ⟨whole, fun after apart => congrArg some (more after apart)⟩
  · obtain ⟨⟨test, later⟩, found, same⟩ := Option.map_eq_some_iff.mp read
    cases same
    obtain ⟨whole, more⟩ := class?_eq_some found
    refine ⟨whole, fun after _ => ?_⟩
    rw [List.cons_append, token?, more, Option.map_some]
  · rename_i braced
    split at read
    · rename_i quantifier later found
      split at read
      · rename_i valid
        have same := bounds?_eq_some found
        obtain ⟨whole, more⟩ := quantified_eq (Option.some.inj read)
        refine ⟨same.trans whole, fun after apart => ?_⟩
        rw [List.cons_append, token?, bounds?_append braced apart, found]
        simp only [Option.map_some, if_pos valid]
        exact congrArg some (more after apart)
      · cases read
    · rename_i unbounded
      cases read
      refine ⟨rfl, fun after apart => ?_⟩
      rw [List.cons_append, token?, bounds?_append rest apart, unbounded]
      rfl
  · cases read
  · cases read
  · cases read
  · rename_i opening closing bar star plus mark bracket brace dot caret dollar
    obtain ⟨⟨spelled, later⟩, found, same⟩ := Option.map_eq_some_iff.mp read
    cases same
    obtain ⟨whole, more⟩ := spelledChar?_eq_some found
    have nonempty := ne_nil_of_spelledChar? found
    refine ⟨whole, fun after _ => ?_⟩
    rw [token?, more after, Option.map_some]
    · exact fun rest => append_ne_cons nonempty opening after _
    · exact append_ne_cons nonempty opening after
    · exact append_ne_cons nonempty closing after
    · exact append_ne_cons nonempty bar after
    · exact append_ne_cons nonempty star after
    · exact append_ne_cons nonempty plus after
    · exact append_ne_cons nonempty mark after
    · exact append_ne_cons nonempty bracket after
    · exact append_ne_cons nonempty brace after
    · exact append_ne_cons nonempty dot after
    · exact append_ne_cons nonempty caret after
    · exact append_ne_cons nonempty dollar after

end UriTemplates.Regex
