/-!
# Text

A text is the list of its code points, so lengths and offsets count code points and a
text is taken apart by recursion on the list. Its characters are Unicode scalar values:
a surrogate that stands alone has no UTF-8 form, and no text holds one. `Text.fields` cuts
a text at every occurrence of a separator and `Text.cut` at the first one;
`Text.joined_fields` says that joining the fields gives the text back.
-/

namespace UriTemplates

/-- A text: the list of its code points, none of which is a surrogate. Strings that hold a
surrogate alone, which percent-encoding refuses, are left out. -/
abbrev Text := List Char

namespace Text

/-- The character string of a text. -/
def toString (text : Text) : String := String.ofList text

/-- The texts between the occurrences of a separator; a text without the separator is
its own single field. -/
def fields (separator : Char) : Text → List Text
  | [] => [[]]
  | c :: rest =>
    if c = separator then
      [] :: fields separator rest
    else
      match fields separator rest with
      | [] => [[c]]
      | field :: more => (c :: field) :: more

/-- Fields written one after the other with a separator between them. -/
def joined (separator : Char) (fields : List Text) : Text :=
  List.intercalate [separator] fields

/-- What stands before the first separator and, if there is one, what stands after it. -/
def cut (separator : Char) (text : Text) : Text × Option Text :=
  (text.takeWhile (· != separator), (text.dropWhile (· != separator)).tail?)

/-- What stands before the last separator, if there is one, and what stands after it. -/
def cutLast (separator : Char) (text : Text) : Option Text × Text :=
  match cut separator text.reverse with
  | (after, before) => (before.map List.reverse, after.reverse)

theorem fields_ne_nil (separator : Char) (text : Text) : fields separator text ≠ [] := by
  cases text with
  | nil => simp [fields]
  | cons c rest =>
    simp only [fields]
    split
    · simp
    · split <;> simp

/-- Joining the fields of a text gives the text back. -/
theorem joined_fields (separator : Char) (text : Text) :
    joined separator (fields separator text) = text := by
  induction text with
  | nil => rfl
  | cons c rest ih =>
    simp only [fields]
    split
    · rename_i same
      obtain ⟨field, more, found⟩ := List.exists_cons_of_ne_nil (fields_ne_nil separator rest)
      rw [found] at ih ⊢
      simp [joined, List.intercalate, List.intersperse] at ih ⊢
      exact ⟨same.symm, ih⟩
    · obtain ⟨field, more, found⟩ := List.exists_cons_of_ne_nil (fields_ne_nil separator rest)
      rw [found] at ih ⊢
      cases more <;> simp [joined, List.intercalate, List.intersperse] at ih ⊢ <;> exact ih

end Text

end UriTemplates
