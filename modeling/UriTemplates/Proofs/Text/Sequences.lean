import Mathlib.Tactic.SplitIfs
import UriTemplates.Proofs.Percent

/-!
# Sequences of bytes that are not UTF-8

A byte announces how many continuation bytes follow it, but not every sequence of an announced
length is UTF-8: overlong forms, surrogates and code points beyond the last one are not
(`Utf8.IsSequence`). A sequence is read as one character, or else every byte of it as a replacement
character of its own (`Utf8.IsSequence.next_eq`). So bytes in a number of sequences are read as
just that many characters where they are well-formed, and as more of them where they are not
(`Utf8.length_decode_flatten`). The code points that an encoded text is made of are sequences
(`Percent.InCodePoints.sequences`), and so the length of what the text stands for is known up to a
factor (`Percent.InCodePoints.length_decode`).
-/

namespace UriTemplates

namespace Utf8

/-- How many continuation bytes a byte announces, if it can start a sequence. -/
def announced? (byte : Nat) : Option Nat :=
  if byte < 0x80 then some 0
  else if byte < 0xC0 then none
  else if byte < 0xE0 then some 1
  else if byte < 0xF0 then some 2
  else if byte < 0xF8 then some 3
  else none

/-- Whether a byte continues a sequence. -/
def IsContinuation (byte : UInt8) : Prop :=
  0x80 ≤ byte.toNat ∧ byte.toNat ≤ 0xBF

/-- A byte with as many continuation bytes as it announces. -/
inductive IsSequence : List UInt8 → Prop
  | intro {byte : UInt8} {more : List UInt8} : announced? byte.toNat = some more.length →
    (∀ next ∈ more, IsContinuation next) → IsSequence (byte :: more)

/-- The bytes that announce a number of continuation bytes. -/
theorem announced?_eq_some_iff {byte count : Nat} :
    announced? byte = some count ↔
      byte < 0x80 ∧ count = 0 ∨ (0xC0 ≤ byte ∧ byte < 0xE0) ∧ count = 1 ∨
        (0xE0 ≤ byte ∧ byte < 0xF0) ∧ count = 2 ∨ (0xF0 ≤ byte ∧ byte < 0xF8) ∧ count = 3 := by
  unfold announced?
  split_ifs <;> simp only [Option.some.injEq, false_iff] <;> omega

/-- No sequence is longer than four bytes. -/
theorem IsSequence.length_le {bytes : List UInt8} (sequence : IsSequence bytes) :
    bytes.length ≤ 4 := by
  obtain ⟨announced, -⟩ := sequence
  have known := announced?_eq_some_iff.mp announced
  rw [List.length_cons]
  omega

/-- Six bits make up a byte that continues a sequence. -/
theorem isContinuation_of_bits {bits : Nat} (small : bits < 64) :
    IsContinuation (UInt8.ofNat (0x80 + bits)) := by
  rw [IsContinuation, toNat_ofNat (by omega)]
  omega

/-- The bytes of a character are a sequence. -/
theorem isSequence_of_shape {point : Nat} {bytes : List UInt8} (shape : Shape point bytes) :
    IsSequence bytes := by
  cases shape with
  | one small =>
    refine .intro ?_ (List.forall_mem_nil _)
    rw [toNat_ofNat (by omega), announced?_eq_some_iff, List.length_nil]
    omega
  | two low high =>
    refine .intro ?_ ?_
    · rw [toNat_ofNat (by omega), announced?_eq_some_iff, List.length_singleton]
      omega
    · simp only [List.forall_mem_cons]
      exact ⟨isContinuation_of_bits (by omega), List.forall_mem_nil _⟩
  | three low high scalar =>
    refine .intro ?_ ?_
    · rw [toNat_ofNat (by omega), announced?_eq_some_iff, List.length_cons, List.length_singleton]
      omega
    · simp only [List.forall_mem_cons]
      exact ⟨isContinuation_of_bits (by omega), isContinuation_of_bits (by omega),
        List.forall_mem_nil _⟩
  | four low high =>
    refine .intro ?_ ?_
    · rw [toNat_ofNat (by omega), announced?_eq_some_iff, List.length_cons, List.length_cons,
        List.length_singleton]
      omega
    · simp only [List.forall_mem_cons]
      exact ⟨isContinuation_of_bits (by omega), isContinuation_of_bits (by omega),
        isContinuation_of_bits (by omega), List.forall_mem_nil _⟩

/-- A lead byte that UTF-8 allows is followed by as many bytes as it announces. -/
theorem announced?_of_lead? {byte : Nat} {lead : Lead} (allowed : lead? byte = some lead) :
    announced? byte = some lead.following := by
  rw [announced?_eq_some_iff]
  unfold lead? at allowed
  split_ifs at allowed <;> cases allowed <;> simp <;> omega

/-- UTF-8 refuses no byte that stands alone. -/
theorem pos_of_lead? {byte count : Nat} (announced : announced? byte = some count)
    (refused : lead? byte = none) : 0 < count := by
  apply Nat.pos_of_ne_zero
  intro alone
  have known := announced?_eq_some_iff.mp announced
  have small : byte < 0x80 := by omega
  rw [lead?, if_pos small] at refused
  cases refused

/-- A byte that continues a sequence starts none. -/
theorem lead?_of_isContinuation {byte : UInt8} (continues : IsContinuation byte) :
    lead? byte.toNat = none := by
  obtain ⟨low, high⟩ := continues
  rw [lead?, if_neg (by omega), if_pos (by omega)]

/-- Continuation bytes that no range restricts complete a character. -/
theorem exists_continuation {more : List UInt8} (continues : ∀ next ∈ more, IsContinuation next)
    (value : Nat) :
    ∃ c, ∀ rest, continuation more.length value 0x80 0xBF (more ++ rest) = (some c, rest) := by
  induction more generalizing value with
  | nil => exact ⟨Char.ofNat value, fun rest => rfl⟩
  | cons byte more ih =>
    obtain ⟨range, later⟩ := List.forall_mem_cons.mp continues
    obtain ⟨c, complete⟩ := ih later (value * 64 + (byte.toNat - 0x80))
    refine ⟨c, fun rest => ?_⟩
    rw [List.length_cons, List.cons_append, continuation, if_pos ⟨range.1, range.2⟩]
    exact complete rest

/-- A sequence is read as one character, or else no byte after the first is taken. -/
theorem IsSequence.next_eq {byte : UInt8} {more : List UInt8}
    (sequence : IsSequence (byte :: more)) :
    (∃ c, ∀ rest, next byte (more ++ rest) = (some c, rest)) ∨
      more ≠ [] ∧ ∀ rest, next byte (more ++ rest) = (none, more ++ rest) := by
  obtain ⟨announced, continues⟩ := sequence
  cases allowed : lead? byte.toNat with
  | none =>
    refine .inr ⟨List.length_pos_iff.mp (pos_of_lead? announced allowed), fun rest => ?_⟩
    simp only [next, allowed]
  | some lead =>
    have following : lead.following = more.length :=
      Option.some.inj ((announced?_of_lead? allowed).symm.trans announced)
    cases more with
    | nil =>
      refine .inl ⟨Char.ofNat lead.value, fun rest => ?_⟩
      simp only [next, allowed, following, List.length_nil, List.nil_append, continuation]
    | cons second more =>
      obtain ⟨-, later⟩ := List.forall_mem_cons.mp continues
      by_cases range : lead.least ≤ second.toNat ∧ second.toNat ≤ lead.greatest
      · obtain ⟨c, complete⟩ := exists_continuation later (lead.value * 64 + (second.toNat - 0x80))
        refine .inl ⟨c, fun rest => ?_⟩
        simp only [next, allowed, following, List.length_cons, List.cons_append, continuation,
          if_pos range, complete rest]
      · refine .inr ⟨List.cons_ne_nil second more, fun rest => ?_⟩
        simp only [next, allowed, following, List.length_cons, List.cons_append, continuation,
          if_neg range]

/-- Every continuation byte that no lead byte comes before is read as a replacement character. -/
theorem decode_continues {more : List UInt8} (continues : ∀ next ∈ more, IsContinuation next)
    (rest : List UInt8) :
    decode (more ++ rest) = List.replicate more.length replacement ++ decode rest := by
  induction more with
  | nil => rfl
  | cons byte more ih =>
    obtain ⟨range, later⟩ := List.forall_mem_cons.mp continues
    have refused : next byte (more ++ rest) = (none, more ++ rest) := by
      simp only [next, lead?_of_isContinuation range]
    rw [List.cons_append, decode, refused, ih later]
    rfl

/-- What a sequence is read as: one character, or several replacement characters, and then the
bytes are not well-formed. -/
theorem IsSequence.decode_append {bytes : List UInt8} (sequence : IsSequence bytes) :
    (∃ c, ∀ rest, decode (bytes ++ rest) = c :: decode rest ∧
      decode? (bytes ++ rest) = (decode? rest).map (c :: ·)) ∨
    2 ≤ bytes.length ∧ ∀ rest,
      decode (bytes ++ rest) = List.replicate bytes.length replacement ++ decode rest ∧
        decode? (bytes ++ rest) = none := by
  cases bytes with
  | nil => cases sequence
  | cons byte more =>
    rcases sequence.next_eq with ⟨c, read⟩ | ⟨several, refused⟩
    · refine .inl ⟨c, fun rest => ?_⟩
      rw [List.cons_append, decode, decode?, read]
      cases decode? rest <;> exact ⟨rfl, rfl⟩
    · obtain ⟨-, continues⟩ := sequence
      refine .inr ⟨Nat.succ_le_succ (List.length_pos_iff.mpr several), fun rest => ?_⟩
      rw [List.cons_append, decode, decode?, refused, decode_continues continues]
      exact ⟨rfl, rfl⟩

/-- **How many characters sequences are read as**: one for each of them just if the bytes are
well-formed, and otherwise more, but no more than there are bytes. -/
theorem length_decode_flatten {sequences : List (List UInt8)}
    (each : ∀ bytes ∈ sequences, IsSequence bytes) :
    sequences.length ≤ (decode sequences.flatten).length ∧
      (decode sequences.flatten).length ≤ 4 * sequences.length ∧
      ((decode sequences.flatten).length = sequences.length ↔
        (decode? sequences.flatten).isSome = true) := by
  induction sequences with
  | nil =>
    rw [List.flatten_nil, decode, decode?]
    decide
  | cons bytes sequences ih =>
    obtain ⟨sequence, later⟩ := List.forall_mem_cons.mp each
    obtain ⟨least, most, exact⟩ := ih later
    have short := sequence.length_le
    rw [List.flatten_cons, List.length_cons]
    rcases sequence.decode_append with ⟨c, read⟩ | ⟨several, refused⟩
    · obtain ⟨decoded, wellFormed⟩ := read sequences.flatten
      rw [decoded, wellFormed, List.length_cons, Option.isSome_map, ← exact]
      omega
    · obtain ⟨decoded, illFormed⟩ := refused sequences.flatten
      rw [decoded, illFormed, List.length_append, List.length_replicate]
      simp only [Option.isSome_none, Bool.false_eq_true, iff_false]
      omega

end Utf8

namespace Percent

open Text

variable {allowReserved : Bool}

/-- A hexadecimal digit has a value below 16. -/
theorem exists_hexValue? {c : Char} (digit : isHexDigit c = true) :
    ∃ value < 16, hexValue? c = some value := by
  obtain ⟨value, known⟩ := Option.isSome_iff_exists.mp digit
  refine ⟨value, ?_, known⟩
  have codes : '0'.toNat = 48 ∧ '9'.val.toNat = 57 ∧ 'a'.toNat = 97 ∧ 'f'.val.toNat = 102 ∧
      'A'.toNat = 65 ∧ 'F'.val.toNat = 70 := by decide
  have same : c.toNat = c.val.toNat := rfl
  simp only [hexValue?, Char.le_def, UInt32.le_iff_toNat_le] at known
  split_ifs at known <;> cases known <;> omega

/-- An octal digit has a value below 8. -/
theorem exists_hexValue?_of_octal {c : Char} (octal : '0' ≤ c ∧ c ≤ '7') :
    ∃ value < 8, hexValue? c = some value := by
  have decimal : '0' ≤ c ∧ c ≤ '9' := ⟨octal.1, Char.le_trans octal.2 (by decide)⟩
  refine ⟨c.toNat - '0'.toNat, ?_, by rw [hexValue?, if_pos decimal]⟩
  have codes : '0'.toNat = 48 ∧ '7'.val.toNat = 55 := by decide
  have same : c.toNat = c.val.toNat := rfl
  have bound := octal.2
  rw [Char.le_def, UInt32.le_iff_toNat_le] at bound
  omega

/-- The first digit of a continuing triplet has a value from 8 to 11. -/
theorem exists_hexValue?_of_isContinuing {c : Char} (continuing : isContinuing c = true) :
    ∃ value, 8 ≤ value ∧ value < 12 ∧ hexValue? c = some value := by
  simp only [isContinuing, List.contains_iff_mem, List.mem_cons, List.not_mem_nil,
    or_false] at continuing
  rcases continuing with rfl | rfl | rfl | rfl | rfl | rfl
  · exact ⟨8, by decide⟩
  · exact ⟨9, by decide⟩
  · exact ⟨10, by decide⟩
  · exact ⟨11, by decide⟩
  · exact ⟨10, by decide⟩
  · exact ⟨11, by decide⟩

/-- A triplet stands for the byte of its two digits. -/
theorem bytes_digits {high low : Char} {value next : Nat} (known : hexValue? high = some value)
    (knownNext : hexValue? low = some next) (rest : Text) :
    bytes ('%' :: high :: low :: rest) = UInt8.ofNat (value * 16 + next) :: bytes rest := by
  rw [bytes, known, knownNext]

/-- A triplet that continues the triplets of a code point is a byte that continues a sequence. -/
theorem exists_bytes_of_isContinuing {high low : Char} (continuing : isContinuing high = true)
    (digit : isHexDigit low = true) :
    ∃ byte, Utf8.IsContinuation byte ∧
      ∀ rest, bytes ('%' :: high :: low :: rest) = byte :: bytes rest := by
  obtain ⟨value, least, most, known⟩ := exists_hexValue?_of_isContinuing continuing
  obtain ⟨next, small, knownNext⟩ := exists_hexValue? digit
  refine ⟨UInt8.ofNat (value * 16 + next), ?_, bytes_digits known knownNext⟩
  rw [Utf8.IsContinuation, Utf8.toNat_ofNat (by omega)]
  omega

/-- The digits of a first triplet announce as many bytes as the byte does that they stand for. -/
theorem announced?_of_following? {high low : Char} {count : Nat}
    (announced : following? high low = some count) :
    ∃ value < 16, ∃ next < 16, hexValue? high = some value ∧ hexValue? low = some next ∧
      Utf8.announced? (value * 16 + next) = some count := by
  simp only [following?_eq_some_iff, List.mem_cons, List.not_mem_nil, or_false] at announced
  have lead : ∀ value next count, (value = 12 ∨ value = 13) ∧ next < 16 ∧ count = 1 ∨
      value = 14 ∧ next < 16 ∧ count = 2 ∨ value = 15 ∧ next < 8 ∧ count = 3 →
      Utf8.announced? (value * 16 + next) = some count := by
    intro value next count known
    rw [Utf8.announced?_eq_some_iff]
    omega
  rcases announced with ⟨octal, digit, rfl⟩ | ⟨capital, digit, rfl⟩ | ⟨capital, digit, rfl⟩ |
    ⟨capital, octal, rfl⟩
  · obtain ⟨value, low, known⟩ := exists_hexValue?_of_octal octal
    obtain ⟨next, small, knownNext⟩ := exists_hexValue? digit
    refine ⟨value, by omega, next, small, known, knownNext, ?_⟩
    rw [Utf8.announced?_eq_some_iff]
    omega
  · obtain ⟨next, small, knownNext⟩ := exists_hexValue? digit
    rcases capital with rfl | rfl | rfl | rfl
    · exact ⟨12, by omega, next, small, rfl, knownNext, lead 12 next 1 (by omega)⟩
    · exact ⟨13, by omega, next, small, rfl, knownNext, lead 13 next 1 (by omega)⟩
    · exact ⟨12, by omega, next, small, rfl, knownNext, lead 12 next 1 (by omega)⟩
    · exact ⟨13, by omega, next, small, rfl, knownNext, lead 13 next 1 (by omega)⟩
  · obtain ⟨next, small, knownNext⟩ := exists_hexValue? digit
    rcases capital with rfl | rfl
    · exact ⟨14, by omega, next, small, rfl, knownNext, lead 14 next 2 (by omega)⟩
    · exact ⟨14, by omega, next, small, rfl, knownNext, lead 14 next 2 (by omega)⟩
  · obtain ⟨next, small, knownNext⟩ := exists_hexValue?_of_octal octal
    rcases capital with rfl | rfl
    · exact ⟨15, by omega, next, by omega, rfl, knownNext, lead 15 next 3 (by omega)⟩
    · exact ⟨15, by omega, next, by omega, rfl, knownNext, lead 15 next 3 (by omega)⟩

/-- Triplets that continue a sequence stand for as many bytes that do. -/
theorem Continues.exists_bytes {count : Nat} {more : Text} (continues : Continues count more) :
    ∃ later : List UInt8, later.length = count ∧ (∀ next ∈ later, Utf8.IsContinuation next) ∧
      ∀ rest, bytes (more ++ rest) = later ++ bytes rest := by
  induction continues with
  | nil => exact ⟨[], rfl, List.forall_mem_nil _, fun rest => rfl⟩
  | cons continuing digit _ ih =>
    obtain ⟨byte, range, first⟩ := exists_bytes_of_isContinuing continuing digit
    obtain ⟨later, length, ranges, read⟩ := ih
    refine ⟨byte :: later, congrArg Nat.succ length, List.forall_mem_cons.mpr ⟨range, ranges⟩,
      fun rest => ?_⟩
    rw [List.cons_append, List.cons_append, List.cons_append, first, read, List.cons_append]

/-- A code point stands for a sequence, whatever follows it. -/
theorem IsCodePoint.exists_bytes {first : Text} (point : IsCodePoint allowReserved first) :
    ∃ sequence, Utf8.IsSequence sequence ∧
      ∀ rest, Percent.bytes (first ++ rest) = sequence ++ Percent.bytes rest := by
  cases point with
  | @kept c known =>
    exact ⟨String.utf8EncodeChar c, Utf8.isSequence_of_shape (Utf8.shape_utf8EncodeChar c),
      bytes_cons_of_isKept known⟩
  | @encoded high low count more announced continues =>
    obtain ⟨value, smallValue, next, smallNext, known, knownNext, lead⟩ :=
      announced?_of_following? announced
    obtain ⟨later, length, ranges, read⟩ := continues.exists_bytes
    refine ⟨UInt8.ofNat (value * 16 + next) :: later, .intro ?_ ranges, fun rest => ?_⟩
    · rw [Utf8.toNat_ofNat (by omega), lead, length]
    · rw [List.cons_append, List.cons_append, List.cons_append, bytes_digits known knownNext, read,
        List.cons_append]

/-- A text made of code points stands for as many sequences. -/
theorem InCodePoints.sequences {count : Nat} {text : Text}
    (points : InCodePoints allowReserved count text) :
    ∃ sequences : List (List UInt8), sequences.length = count ∧
      (∀ sequence ∈ sequences, Utf8.IsSequence sequence) ∧ bytes text = sequences.flatten := by
  induction points with
  | nil => exact ⟨[], rfl, List.forall_mem_nil _, rfl⟩
  | cons point _ ih =>
    obtain ⟨sequence, valid, first⟩ := point.exists_bytes
    obtain ⟨sequences, length, each, read⟩ := ih
    refine ⟨sequence :: sequences, congrArg Nat.succ length,
      List.forall_mem_cons.mpr ⟨valid, each⟩, ?_⟩
    rw [first, read, List.flatten_cons]

/-- **How long the text is that code points stand for**: as many code points as the pattern counts
just if they are well-formed UTF-8, and otherwise more. -/
theorem InCodePoints.length_decode {count : Nat} {text : Text}
    (points : InCodePoints allowReserved count text) :
    count ≤ (decode text).length ∧ (decode text).length ≤ 4 * count ∧
      ((decode text).length = count ↔ (Utf8.decode? (bytes text)).isSome = true) := by
  obtain ⟨sequences, rfl, each, read⟩ := points.sequences
  rw [decode, read]
  exact Utf8.length_decode_flatten each

end Percent

end UriTemplates
