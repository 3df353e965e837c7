import Mathlib.Tactic.SplitIfs
import UriTemplates.Percent
import UriTemplates.Proofs.Text.Utf8

/-!
# Percent-encoding and reading back

An encoded text is made of kept characters and of triplets with uppercase digits
(`Percent.Canonical`), and reading it gives the text back (`Percent.decode_encode`); both are
`Percent.encode_canonical`. What may be read as a value has triplets with digits of either case
(`Percent.Written`). The triplets of one code point say by their first two digits how many of them
there are (`Percent.following?`), so an encoded text falls into code points in one way only: into
as many as the text has (`Percent.InCodePoints.count_eq`).
-/

namespace UriTemplates.Percent

open Text

variable {allowReserved : Bool}

/-- A hexadecimal digit has the value that it was written for. -/
theorem hexValue?_hexDigit : ∀ value < 16, hexValue? (hexDigit value) = some value := by
  decide

theorem isHexDigit_hexDigit {value : Nat} (small : value < 16) :
    isHexDigit (hexDigit value) = true := by
  rw [isHexDigit, hexValue?_hexDigit value small]
  rfl

/-- The letters and digits of ASCII are three ranges of characters. -/
theorem isAlphanum_iff (c : Char) : c.isAlphanum = true ↔
    ('A' ≤ c ∧ c ≤ 'Z') ∨ ('a' ≤ c ∧ c ≤ 'z') ∨ ('0' ≤ c ∧ c ≤ '9') := by
  delta Char.isAlphanum Char.isAlpha Char.isUpper Char.isLower Char.isDigit
  simp only [Bool.or_eq_true, Bool.and_eq_true, decide_eq_true_eq, Char.le_def, or_assoc]

/-- What is checked of the characters of a class holds of each of them. -/
theorem holds_of_contains (able : Char → Bool) {members : List Char}
    (each : members.all able = true) {c : Char} (member : members.contains c = true) :
    able c = true :=
  List.all_eq_true.mp each c (List.contains_iff_mem.mp member)

theorem isUnreserved_of_isHexDigit {c : Char} (digit : isHexDigit c = true) :
    isUnreserved c = true := by
  simp only [isHexDigit, hexValue?, Char.le_def] at digit
  simp only [isUnreserved, Bool.or_eq_true, isAlphanum_iff, Char.le_def]
  grind

theorem isKept_of_isHexDigit {c : Char} (digit : isHexDigit c = true) :
    isKept allowReserved c = true := by
  rw [isKept, isUnreserved_of_isHexDigit digit, Bool.true_or]

theorem isKept_percent : isKept allowReserved '%' = false := by
  cases allowReserved <;> decide

/-- A triplet stands for its byte. -/
theorem bytes_triplet (byte : UInt8) (rest : Text) :
    bytes (triplet byte ++ rest) = byte :: bytes rest := by
  have bound := byte.toNat_lt
  have whole : byte.toNat / 16 * 16 + byte.toNat % 16 = byte.toNat := by omega
  simp only [triplet, List.cons_append, List.nil_append, bytes,
    hexValue?_hexDigit (byte.toNat / 16) (by omega),
    hexValue?_hexDigit (byte.toNat % 16) (by omega), whole, UInt8.ofNat_toNat]

/-- Triplets stand for their bytes, one after the other. -/
theorem bytes_flatMap_triplet (encoded : List UInt8) (rest : Text) :
    bytes (encoded.flatMap triplet ++ rest) = encoded ++ bytes rest := by
  induction encoded with
  | nil => rfl
  | cons byte encoded ih =>
    rw [List.flatMap_cons, List.append_assoc, bytes_triplet, ih, List.cons_append]

/-- A character that is kept stands for the bytes of its UTF-8 form. -/
theorem bytes_cons_of_isKept {c : Char} (kept : isKept allowReserved c = true) (rest : Text) :
    bytes (c :: rest) = String.utf8EncodeChar c ++ bytes rest := by
  have notPercent : c ≠ '%' := by
    rintro rfl
    rw [isKept_percent] at kept
    cases kept
  rw [bytes]
  rintro high low later rfl
  exact (notPercent rfl).elim

/-- An encoded text stands for the bytes of the text. -/
theorem bytes_encode (text : Text) : bytes (encode allowReserved text) = Utf8.encode text := by
  induction text with
  | nil => rfl
  | cons c text ih =>
    rw [encode, List.flatMap_cons, ← encode, encodeChar, Utf8.encode, List.flatMap_cons,
      ← Utf8.encode, ← ih]
    split
    · rename_i kept
      exact bytes_cons_of_isKept kept _
    · exact bytes_flatMap_triplet _ _

/-- **Decoding undoes encoding**, whether or not reserved characters are kept. -/
theorem decode_encode (text : Text) : decode (encode allowReserved text) = text := by
  rw [decode, bytes_encode, Utf8.decode_encode]

/-- The digits that a triplet is written with. -/
def isUppercaseHexDigit (c : Char) : Bool :=
  c.isDigit || ('A' ≤ c && c ≤ 'F')

/-- A text as it is encoded: kept characters, and triplets with uppercase digits. -/
inductive Canonical (allowReserved : Bool) : Text → Prop
  | nil : Canonical allowReserved []
  | kept {c : Char} {rest : Text} : isKept allowReserved c = true → Canonical allowReserved rest →
    Canonical allowReserved (c :: rest)
  | triplet {high low : Char} {rest : Text} : isUppercaseHexDigit high = true →
    isUppercaseHexDigit low = true → Canonical allowReserved rest →
    Canonical allowReserved ('%' :: high :: low :: rest)

theorem isUppercaseHexDigit_hexDigit :
    ∀ value < 16, isUppercaseHexDigit (hexDigit value) = true := by
  decide

theorem isHexDigit_of_isUppercaseHexDigit {c : Char} (digit : isUppercaseHexDigit c = true) :
    isHexDigit c = true := by
  simp only [isUppercaseHexDigit, Char.isDigit, Bool.or_eq_true, Bool.and_eq_true,
    decide_eq_true_eq] at digit
  simp only [isHexDigit, hexValue?, Char.le_def] at digit ⊢
  grind

/-- Triplets can stand in front of a canonical text. -/
theorem canonical_flatMap_triplet (encoded : List UInt8) {rest : Text}
    (canonical : Canonical allowReserved rest) :
    Canonical allowReserved (encoded.flatMap triplet ++ rest) := by
  induction encoded with
  | nil => exact canonical
  | cons byte encoded ih =>
    have bound := byte.toNat_lt
    exact .triplet (isUppercaseHexDigit_hexDigit _ (by omega))
      (isUppercaseHexDigit_hexDigit _ (by omega)) ih

/-- An encoded text is canonical. -/
theorem canonical_encode (text : Text) : Canonical allowReserved (encode allowReserved text) := by
  induction text with
  | nil => exact .nil
  | cons c text ih =>
    rw [encode, List.flatMap_cons, encodeChar]
    split
    · rename_i kept
      exact .kept kept ih
    · exact canonical_flatMap_triplet _ ih

/-- A character that is not kept is written with one triplet or more. -/
theorem length_encodeChar {c : Char} (encoded : isKept allowReserved c = false) :
    3 ≤ (encodeChar allowReserved c).length := by
  have shape := Utf8.shape_utf8EncodeChar c
  rw [encodeChar, encoded]
  cases written : String.utf8EncodeChar c with
  | nil =>
    rw [written] at shape
    cases shape
  | cons byte bytes => simp [triplet]

/-- Encoding never shortens a text. -/
theorem length_le_encode (text : Text) : text.length ≤ (encode allowReserved text).length := by
  induction text with
  | nil => exact Nat.le_refl 0
  | cons c text ih =>
    rw [encode, List.flatMap_cons, ← encode, List.length_append, List.length_cons]
    cases kept : isKept allowReserved c with
    | true =>
      simp only [encodeChar, kept, ↓reduceIte, List.length_singleton]
      omega
    | false =>
      have := length_encodeChar kept
      omega

/-- A text is its own encoding just if all of its characters are kept. -/
theorem encode_eq_self_iff {text : Text} :
    encode allowReserved text = text ↔ ∀ c ∈ text, isKept allowReserved c = true := by
  induction text with
  | nil => simp [encode]
  | cons c text ih =>
    rw [List.forall_mem_cons, ← ih, encode, List.flatMap_cons, ← encode]
    cases kept : isKept allowReserved c with
    | true => simp [encodeChar, kept]
    | false =>
      have longer := length_encodeChar kept
      have later : text.length ≤ (encode allowReserved text).length := length_le_encode text
      simp only [Bool.false_eq_true, false_and, iff_false]
      intro same
      have := congrArg List.length same
      rw [List.length_append, List.length_cons] at this
      omega

/-- **Encoding is canonical and is undone by decoding**, whether or not reserved characters are
kept. Only kept characters and triplets with uppercase digits are written, and a text is left as it
is just if all of its characters are kept. -/
theorem encode_canonical (allowReserved : Bool) (text : Text) :
    decode (encode allowReserved text) = text ∧
      Canonical allowReserved (encode allowReserved text) ∧
      (encode allowReserved text = text ↔ ∀ c ∈ text, isKept allowReserved c = true) :=
  ⟨decode_encode text, canonical_encode text, encode_eq_self_iff⟩

/-- A text of kept characters and triplets. -/
inductive Written (allowReserved : Bool) : Text → Prop
  | nil : Written allowReserved []
  | kept {c : Char} {rest : Text} : isKept allowReserved c = true → Written allowReserved rest →
    Written allowReserved (c :: rest)
  | triplet {high low : Char} {rest : Text} : isHexDigit high = true → isHexDigit low = true →
    Written allowReserved rest → Written allowReserved ('%' :: high :: low :: rest)

theorem Written.append {first second : Text} (written : Written allowReserved first)
    (writtenNext : Written allowReserved second) :
    Written allowReserved (first ++ second) := by
  induction written with
  | nil => exact writtenNext
  | kept known _ ih => exact .kept known ih
  | triplet high low _ ih => exact .triplet high low ih

/-- A written text holds characters that are kept, and percent signs. -/
theorem Written.isKept_or {text : Text} (written : Written allowReserved text) :
    ∀ c ∈ text, isKept allowReserved c = true ∨ c = '%' := by
  induction written with
  | nil => simp
  | kept known _ ih => exact List.forall_mem_cons.mpr ⟨.inl known, ih⟩
  | triplet high low _ ih =>
    exact List.forall_mem_cons.mpr ⟨.inr rfl, List.forall_mem_cons.mpr
      ⟨.inl (isKept_of_isHexDigit high), List.forall_mem_cons.mpr
        ⟨.inl (isKept_of_isHexDigit low), ih⟩⟩⟩

/-- What an encoded text never holds. -/
theorem Written.notMem {text : Text} {c : Char} (written : Written allowReserved text)
    (refused : isKept allowReserved c = false) (other : c ≠ '%') : c ∉ text := by
  intro member
  rcases written.isKept_or c member with kept | percent
  · rw [refused] at kept
    cases kept
  · exact other percent

/-- Canonical texts are written. -/
theorem Canonical.written {text : Text} (canonical : Canonical allowReserved text) :
    Written allowReserved text := by
  induction canonical with
  | nil => exact .nil
  | kept known _ ih => exact .kept known ih
  | triplet high low _ ih =>
    exact .triplet (isHexDigit_of_isUppercaseHexDigit high)
      (isHexDigit_of_isUppercaseHexDigit low) ih

/-- An encoded text is written. -/
theorem written_encode (text : Text) : Written allowReserved (encode allowReserved text) :=
  (canonical_encode text).written

/-- Encoding adds no characters but percent signs and hexadecimal digits. -/
theorem notMem_encode {c : Char} (notPercent : c ≠ '%') (notDigit : isHexDigit c = false)
    {text : Text} (apart : c ∉ text) : c ∉ encode allowReserved text := by
  intro member
  obtain ⟨d, original, inside⟩ := List.mem_flatMap.mp member
  unfold encodeChar at inside
  split_ifs at inside
  · exact apart (List.mem_singleton.mp inside ▸ original)
  · obtain ⟨byte, -, digit⟩ := List.mem_flatMap.mp inside
    have bound := byte.toNat_lt
    have digits : ∀ value < 16, c ≠ hexDigit value := by
      rintro value small rfl
      rw [isHexDigit_hexDigit small] at notDigit
      cases notDigit
    simp only [triplet, List.mem_cons, List.not_mem_nil, or_false] at digit
    rcases digit with same | same | same
    · exact notPercent same
    · exact digits _ (by omega) same
    · exact digits _ (by omega) same

/-- How many triplets follow one with two digits in the triplets of a code point, if there
is a code point that starts with it. -/
def following? (high low : Char) : Option Nat :=
  if '0' ≤ high ∧ high ≤ '7' then if isHexDigit low then some 0 else none
  else if high ∈ ['c', 'd', 'C', 'D'] then if isHexDigit low then some 1 else none
  else if high ∈ ['e', 'E'] then if isHexDigit low then some 2 else none
  else if high ∈ ['f', 'F'] ∧ '0' ≤ low ∧ low ≤ '7' then some 3
  else none

/-- Whether a triplet that starts with a digit continues the triplets of a code point. -/
def isContinuing (high : Char) : Bool :=
  ['8', '9', 'a', 'b', 'A', 'B'].contains high

/-- A number of triplets that continue the triplets of a code point. -/
inductive Continues : Nat → Text → Prop
  | nil : Continues 0 []
  | cons {count : Nat} {high low : Char} {rest : Text} : isContinuing high = true →
    isHexDigit low = true → Continues count rest →
    Continues (count + 1) ('%' :: high :: low :: rest)

/-- A code point as it is written: a kept character, or its triplets. -/
inductive IsCodePoint (allowReserved : Bool) : Text → Prop
  | kept {c : Char} : isKept allowReserved c = true → IsCodePoint allowReserved [c]
  | encoded {high low : Char} {count : Nat} {more : Text} : following? high low = some count →
    Continues count more → IsCodePoint allowReserved ('%' :: high :: low :: more)

/-- A text made of a number of code points. -/
inductive InCodePoints (allowReserved : Bool) : Nat → Text → Prop
  | nil : InCodePoints allowReserved 0 []
  | cons {count : Nat} {first rest : Text} : IsCodePoint allowReserved first →
    InCodePoints allowReserved count rest →
    InCodePoints allowReserved (count + 1) (first ++ rest)

/-- The digits of a first byte tell how many bytes follow it. -/
theorem following?_eq_some_iff {high low : Char} {count : Nat} :
    following? high low = some count ↔
      ('0' ≤ high ∧ high ≤ '7') ∧ isHexDigit low = true ∧ count = 0 ∨
      high ∈ ['c', 'd', 'C', 'D'] ∧ isHexDigit low = true ∧ count = 1 ∨
      high ∈ ['e', 'E'] ∧ isHexDigit low = true ∧ count = 2 ∨
      high ∈ ['f', 'F'] ∧ ('0' ≤ low ∧ low ≤ '7') ∧ count = 3 := by
  simp only [following?, List.mem_cons, List.not_mem_nil, or_false]
  constructor
  · intro announced
    split_ifs at announced with single digit double digit triple digit quadruple
    · cases announced
      exact .inl ⟨single, digit, rfl⟩
    · cases announced
      exact .inr (.inl ⟨double, digit, rfl⟩)
    · cases announced
      exact .inr (.inr (.inl ⟨triple, digit, rfl⟩))
    · cases announced
      exact .inr (.inr (.inr ⟨quadruple.1, quadruple.2, rfl⟩))
  · rintro (⟨⟨notBefore, notAfter⟩, digit, rfl⟩ | ⟨lead, digit, rfl⟩ | ⟨lead, digit, rfl⟩ |
      ⟨lead, ⟨notBefore, notAfter⟩, rfl⟩)
    · simp [notBefore, notAfter, digit]
    · rcases lead with rfl | rfl | rfl | rfl <;> simp [digit]
    · rcases lead with rfl | rfl <;> simp [digit]
    · rcases lead with rfl | rfl <;> simp [notBefore, notAfter]

/-- The first digit of a byte that continues a sequence is hexadecimal. -/
theorem isHexDigit_of_isContinuing {high : Char} (known : isContinuing high = true) :
    isHexDigit high = true := by
  simp only [isContinuing, List.contains_iff_mem, List.mem_cons, List.not_mem_nil,
    or_false] at known
  rcases known with rfl | rfl | rfl | rfl | rfl | rfl <;> decide

theorem isHexDigit_of_octal {c : Char} (octal : '0' ≤ c ∧ c ≤ '7') : isHexDigit c = true := by
  have decimal : '0' ≤ c ∧ c ≤ '9' := ⟨octal.1, Char.le_trans octal.2 (by decide)⟩
  simp [isHexDigit, hexValue?, decimal]

/-- The digits of a first byte are hexadecimal. -/
theorem isHexDigit_of_following? {high low : Char} {count : Nat}
    (announced : following? high low = some count) :
    isHexDigit high = true ∧ isHexDigit low = true := by
  simp only [following?_eq_some_iff, List.mem_cons, List.not_mem_nil, or_false] at announced
  rcases announced with ⟨octal, digit, -⟩ | ⟨lead, digit, -⟩ | ⟨lead, digit, -⟩ |
    ⟨lead, octal, -⟩
  · exact ⟨isHexDigit_of_octal octal, digit⟩
  · rcases lead with rfl | rfl | rfl | rfl <;> exact ⟨by decide, digit⟩
  · rcases lead with rfl | rfl <;> exact ⟨by decide, digit⟩
  · rcases lead with rfl | rfl <;> exact ⟨by decide, isHexDigit_of_octal octal⟩

/-- Triplets that continue a sequence are written. -/
theorem Continues.written {count : Nat} {text : Text} (continues : Continues count text) :
    Written allowReserved text := by
  induction continues with
  | nil => exact .nil
  | cons known digit _ ih => exact .triplet (isHexDigit_of_isContinuing known) digit ih

/-- Texts of code points are written. -/
theorem InCodePoints.written {count : Nat} {text : Text}
    (points : InCodePoints allowReserved count text) : Written allowReserved text := by
  induction points with
  | nil => exact .nil
  | cons point _ ih =>
    cases point with
    | kept known => exact .kept known ih
    | encoded announced continues =>
      obtain ⟨high, low⟩ := isHexDigit_of_following? announced
      exact .triplet high low (continues.written.append ih)

/-- The length of the code point that a text starts with. -/
def width : Text → Nat
  | '%' :: high :: low :: _ => 3 + 3 * (following? high low).getD 0
  | _ => 1

/-- Every byte that follows has a triplet of three characters. -/
theorem Continues.length_eq {count : Nat} {text : Text} (continues : Continues count text) :
    text.length = 3 * count := by
  induction continues with
  | nil => rfl
  | cons _ _ _ ih =>
    simp only [List.length_cons, ih]
    omega

/-- How long a code point is can be told from its beginning. -/
theorem IsCodePoint.width_append {first : Text} (point : IsCodePoint allowReserved first)
    (rest : Text) : width (first ++ rest) = first.length := by
  cases point with
  | @kept c known =>
    have notPercent : c ≠ '%' := by
      rintro rfl
      rw [isKept_percent] at known
      cases known
    rw [List.singleton_append, width]
    · rfl
    · intro high low later same
      exact notPercent (List.cons.inj same).1
  | encoded announced continues =>
    simp only [List.cons_append, width, announced, Option.getD_some, List.length_cons,
      continues.length_eq]
    omega

/-- How many bytes a first byte announces, by the values of its two digits. -/
theorem following?_hexDigit : ∀ high < 16, ∀ low < 16,
    following? (hexDigit high) (hexDigit low) =
      if high < 8 then some 0 else if high < 12 then none else if high < 14 then some 1
      else if high < 15 then some 2 else if low < 8 then some 3 else none := by
  decide

/-- The bytes from 0x80 to 0xBF continue a sequence. -/
theorem isContinuing_hexDigit : ∀ high < 16, 8 ≤ high → high < 12 →
    isContinuing (hexDigit high) = true := by
  decide

/-- One more byte of six bits continues a sequence. -/
theorem Continues.byte {bits count : Nat} {more : Text} (small : bits < 64)
    (continues : Continues count more) :
    Continues (count + 1) (triplet (UInt8.ofNat (0x80 + bits)) ++ more) := by
  have value : (UInt8.ofNat (0x80 + bits)).toNat = 0x80 + bits := Utf8.toNat_ofNat (by omega)
  rw [triplet, value]
  exact .cons (isContinuing_hexDigit _ (by omega) (by omega) (by omega))
    (isHexDigit_hexDigit (by omega)) continues

/-- A byte with as many bytes after it as it announces is a code point. -/
theorem IsCodePoint.bytes {lead count : Nat} {more : Text} (small : lead < 0x100)
    (announced : following? (hexDigit (lead / 16)) (hexDigit (lead % 16)) = some count)
    (continues : Continues count more) :
    IsCodePoint allowReserved (triplet (UInt8.ofNat lead) ++ more) := by
  rw [triplet, Utf8.toNat_ofNat small]
  exact .encoded announced continues

/-- The triplets of a character's bytes are those of a code point. -/
theorem isCodePoint_of_shape {point : Nat} {encoded : List UInt8}
    (shape : Utf8.Shape point encoded) :
    IsCodePoint allowReserved (encoded.flatMap Percent.triplet) := by
  cases shape with
  | one small =>
    refine .bytes (by omega) ?_ .nil
    rw [following?_hexDigit _ (by omega) _ (by omega), if_pos (by omega)]
  | two low high =>
    refine .bytes (by omega) ?_ (.byte (by omega) .nil)
    rw [following?_hexDigit _ (by omega) _ (by omega), if_neg (by omega), if_neg (by omega),
      if_pos (by omega)]
  | three low high scalar =>
    refine .bytes (by omega) ?_ (.byte (by omega) (.byte (by omega) .nil))
    rw [following?_hexDigit _ (by omega) _ (by omega), if_neg (by omega), if_neg (by omega),
      if_neg (by omega), if_pos (by omega)]
  | four low high =>
    refine .bytes (by omega) ?_ (.byte (by omega) (.byte (by omega) (.byte (by omega) .nil)))
    rw [following?_hexDigit _ (by omega) _ (by omega), if_neg (by omega), if_neg (by omega),
      if_neg (by omega), if_neg (by omega), if_pos (by omega)]

/-- An encoded character is a code point. -/
theorem isCodePoint_encodeChar (c : Char) :
    IsCodePoint allowReserved (encodeChar allowReserved c) := by
  unfold encodeChar
  split
  · rename_i kept
    exact .kept kept
  · exact isCodePoint_of_shape (Utf8.shape_utf8EncodeChar c)

/-- An encoded text is made of as many code points as the text has. -/
theorem inCodePoints_encode (text : Text) :
    InCodePoints allowReserved text.length (encode allowReserved text) := by
  induction text with
  | nil => exact .nil
  | cons c text ih => exact .cons (isCodePoint_encodeChar c) ih

theorem IsCodePoint.ne_nil {text : Text} (point : IsCodePoint allowReserved text) :
    text ≠ [] := by
  cases point <;> exact List.cons_ne_nil _ _

/-- A text holds a code point unless it is empty. -/
theorem InCodePoints.pos_iff {count : Nat} {text : Text}
    (points : InCodePoints allowReserved count text) : 1 ≤ count ↔ text ≠ [] := by
  cases points with
  | nil => simp
  | cons point _ => simp [point.ne_nil]

/-- A text is made of code points in one way only. -/
theorem InCodePoints.count_eq {count other : Nat} {text : Text}
    (points : InCodePoints allowReserved count text)
    (pointsOther : InCodePoints allowReserved other text) : count = other := by
  induction points generalizing other with
  | nil =>
    generalize ended : ([] : Text) = text at pointsOther
    cases pointsOther with
    | nil => rfl
    | cons point _ => exact (point.ne_nil (List.append_eq_nil_iff.mp ended.symm).1).elim
  | @cons count first rest point later ih =>
    generalize whole : first ++ rest = text at pointsOther
    cases pointsOther with
    | nil => exact (point.ne_nil (List.append_eq_nil_iff.mp whole).1).elim
    | @cons other front back pointOther laterOther =>
      have same : first.length = front.length := by
        rw [← point.width_append rest, whole, pointOther.width_append back]
      obtain ⟨rfl, rfl⟩ := List.append_inj whole same
      rw [ih laterOther]

end UriTemplates.Percent
