import UriTemplates.Text.Basic

/-!
# UTF-8

A text as bytes and back. Reading is given once, for a single character (`Utf8.next`):
the first byte fixes how many continuation bytes follow and the range of the first of
them, which leaves out overlong forms, surrogates and code points beyond the last one.
`Utf8.decode?` refuses ill-formed bytes, while `Utf8.decode` reads one replacement
character for each maximal part of an ill-formed sequence.
-/

namespace UriTemplates.Utf8

/-- The bytes of a text. -/
def encode (text : Text) : List UInt8 :=
  text.flatMap String.utf8EncodeChar

/-- The character that stands for bytes that are not well-formed. -/
def replacement : Char := '\uFFFD'

/-- What the first byte of a sequence says about the rest of it. -/
structure Lead where
  /-- How many continuation bytes follow. -/
  following : Nat
  /-- The part of the code point that the first byte holds. -/
  value : Nat
  /-- The least first continuation byte. -/
  least : Nat := 0x80
  /-- The greatest first continuation byte. -/
  greatest : Nat := 0xBF

/-- The sequence that a byte starts, if it can start one. -/
def lead? (byte : Nat) : Option Lead :=
  if byte < 0x80 then some { following := 0, value := byte }
  else if byte < 0xC2 then none
  else if byte < 0xE0 then some { following := 1, value := byte - 0xC0 }
  else if byte = 0xE0 then some { following := 2, value := 0, least := 0xA0 }
  else if byte = 0xED then some { following := 2, value := 0xD, greatest := 0x9F }
  else if byte < 0xF0 then some { following := 2, value := byte - 0xE0 }
  else if byte = 0xF0 then some { following := 3, value := 0, least := 0x90 }
  else if byte < 0xF4 then some { following := 3, value := byte - 0xF0 }
  else if byte = 0xF4 then some { following := 3, value := 4, greatest := 0x8F }
  else none

/-- Read the given number of continuation bytes: the character they complete, or nothing
at the first byte that does not continue the sequence, and the bytes left. -/
def continuation : (following value least greatest : Nat) → List UInt8 →
    Option Char × List UInt8
  | 0, value, _, _, bytes => (some (Char.ofNat value), bytes)
  | _ + 1, _, _, _, [] => (none, [])
  | following + 1, value, least, greatest, byte :: bytes =>
    if least ≤ byte.toNat ∧ byte.toNat ≤ greatest then
      continuation following (value * 64 + (byte.toNat - 0x80)) 0x80 0xBF bytes
    else
      (none, byte :: bytes)

/-- No more bytes are left than there were. -/
theorem length_continuation_le (following value least greatest : Nat) (bytes : List UInt8) :
    (continuation following value least greatest bytes).2.length ≤ bytes.length := by
  fun_induction continuation following value least greatest bytes with
  | case1 => exact Nat.le_refl _
  | case2 => exact Nat.le_refl _
  | case3 _ _ _ _ _ _ _ ih => exact Nat.le_succ_of_le ih
  | case4 => exact Nat.le_refl _

/-- Read one character: the character, or nothing if the bytes are ill-formed, and the
bytes left. -/
def next (byte : UInt8) (bytes : List UInt8) : Option Char × List UInt8 :=
  match lead? byte.toNat with
  | none => (none, bytes)
  | some lead => continuation lead.following lead.value lead.least lead.greatest bytes

/-- Reading a character takes no byte twice. -/
theorem length_next_le (byte : UInt8) (bytes : List UInt8) :
    (next byte bytes).2.length ≤ bytes.length := by
  unfold next
  split
  · exact Nat.le_refl _
  · exact length_continuation_le ..

/-- The text of bytes, with one replacement character for each maximal part of an
ill-formed sequence. -/
def decode : List UInt8 → Text
  | [] => []
  | byte :: bytes => (next byte bytes).1.getD replacement :: decode (next byte bytes).2
termination_by bytes => bytes.length
decreasing_by exact Nat.lt_succ_of_le (length_next_le byte bytes)

/-- The text of well-formed bytes. -/
def decode? : List UInt8 → Option Text
  | [] => some []
  | byte :: bytes => do
    let c ← (next byte bytes).1
    let rest ← decode? (next byte bytes).2
    return c :: rest
termination_by bytes => bytes.length
decreasing_by exact Nat.lt_succ_of_le (length_next_le byte bytes)

end UriTemplates.Utf8
