import UriTemplates.Text.Utf8

/-!
# Reading UTF-8 back

The bytes of a character are one lead byte and up to three continuation bytes, each of which
holds six bits (`Utf8.Shape`). Reading them gives the character back and takes no byte that
follows, so a text is read back from its bytes (`Utf8.decode_encode`).
-/

namespace UriTemplates.Utf8

/-- The bytes of a character with a code point, by their number. -/
inductive Shape (point : Nat) : List UInt8 → Prop
  | one : point < 0x80 → Shape point [UInt8.ofNat point]
  | two : 0x80 ≤ point → point < 0x800 →
    Shape point [UInt8.ofNat (0xC0 + point / 64), UInt8.ofNat (0x80 + point % 64)]
  | three : 0x800 ≤ point → point < 0x10000 → point < 0xD800 ∨ 0xE000 ≤ point →
    Shape point [UInt8.ofNat (0xE0 + point / 4096), UInt8.ofNat (0x80 + point / 64 % 64),
      UInt8.ofNat (0x80 + point % 64)]
  | four : 0x10000 ≤ point → point < 0x110000 →
    Shape point [UInt8.ofNat (0xF0 + point / 262144), UInt8.ofNat (0x80 + point / 4096 % 64),
      UInt8.ofNat (0x80 + point / 64 % 64), UInt8.ofNat (0x80 + point % 64)]

/-- A character is encoded in bytes of the shape of its code point. -/
theorem shape_utf8EncodeChar (c : Char) : Shape c.toNat (String.utf8EncodeChar c) := by
  have valid : c.toNat < 0xD800 ∨ 0xDFFF < c.toNat ∧ c.toNat < 0x110000 := c.valid
  have point : c.val.toNat = c.toNat := rfl
  simp only [String.utf8EncodeChar, point]
  split
  · exact .one (by omega)
  · split
    · have small : c.toNat / 64 % 32 + 0xC0 = 0xC0 + c.toNat / 64 := by omega
      rw [small, Nat.add_comm _ 0x80]
      exact .two (by omega) (by omega)
    · split
      · have small : c.toNat / 4096 % 16 + 0xE0 = 0xE0 + c.toNat / 4096 := by omega
        rw [small, Nat.add_comm _ 0x80, Nat.add_comm _ 0x80]
        exact .three (by omega) (by omega) (by omega)
      · have small : c.toNat / 262144 % 8 + 0xF0 = 0xF0 + c.toNat / 262144 := by omega
        rw [small, Nat.add_comm _ 0x80, Nat.add_comm _ 0x80, Nat.add_comm _ 0x80]
        exact .four (by omega) (by omega)

theorem toNat_ofNat {value : Nat} (small : value < 0x100) : (UInt8.ofNat value).toNat = value :=
  UInt8.toNat_ofNat_of_lt' small

/-- A byte that continues a sequence adds its six bits to the code point. -/
theorem continuation_cons {following value least greatest bits : Nat} (bytes : List UInt8)
    (low : least ≤ 0x80 + bits) (high : 0x80 + bits ≤ greatest) (small : bits < 64) :
    continuation (following + 1) value least greatest (UInt8.ofNat (0x80 + bits) :: bytes) =
      continuation following (value * 64 + bits) 0x80 0xBF bytes := by
  have byte : (UInt8.ofNat (0x80 + bits)).toNat = 0x80 + bits :=
    toNat_ofNat (by omega)
  have kept : 0x80 + bits - 0x80 = bits := by omega
  rw [continuation, byte, if_pos ⟨low, high⟩, kept]

/-- The lead byte of three: some of them restrict the byte that follows. -/
theorem exists_lead_of_three {point : Nat} (low : 0x800 ≤ point) (high : point < 0x10000)
    (scalar : point < 0xD800 ∨ 0xE000 ≤ point) :
    ∃ least greatest, lead? (0xE0 + point / 4096) = some ⟨2, point / 4096, least, greatest⟩ ∧
      least ≤ 0x80 + point / 64 % 64 ∧ 0x80 + point / 64 % 64 ≤ greatest := by
  rw [lead?, if_neg (by omega), if_neg (by omega), if_neg (by omega)]
  split
  · exact ⟨0xA0, 0xBF, by simp; omega, by omega, by omega⟩
  · split
    · exact ⟨0x80, 0x9F, by simp; omega, by omega, by omega⟩
    · rw [if_pos (by omega), Nat.add_sub_cancel_left]
      exact ⟨0x80, 0xBF, rfl, by omega, by omega⟩

/-- The lead byte of four: the first and the last restrict the byte that follows. -/
theorem exists_lead_of_four {point : Nat} (low : 0x10000 ≤ point) (high : point < 0x110000) :
    ∃ least greatest,
      lead? (0xF0 + point / 262144) = some ⟨3, point / 262144, least, greatest⟩ ∧
        least ≤ 0x80 + point / 4096 % 64 ∧ 0x80 + point / 4096 % 64 ≤ greatest := by
  rw [lead?, if_neg (by omega), if_neg (by omega), if_neg (by omega), if_neg (by omega),
    if_neg (by omega), if_neg (by omega)]
  split
  · exact ⟨0x90, 0xBF, by simp; omega, by omega, by omega⟩
  · split
    · rw [Nat.add_sub_cancel_left]
      exact ⟨0x80, 0xBF, rfl, by omega, by omega⟩
    · rw [if_pos (by omega)]
      exact ⟨0x80, 0x8F, by simp; omega, by omega, by omega⟩

/-- The bytes of a character are read as the character. -/
theorem next_of_shape {point : Nat} {byte : UInt8} {bytes : List UInt8}
    (shape : Shape point (byte :: bytes)) (rest : List UInt8) :
    next byte (bytes ++ rest) = (some (Char.ofNat point), rest) := by
  cases shape with
  | one small =>
    have lead : (UInt8.ofNat point).toNat = point := toNat_ofNat (by omega)
    simp [next, lead, lead?, small, continuation]
  | two low high =>
    have lead : (UInt8.ofNat (0xC0 + point / 64)).toNat = 0xC0 + point / 64 :=
      toNat_ofNat (by omega)
    have kind : lead? (0xC0 + point / 64) = some { following := 1, value := point / 64 } := by
      rw [lead?, if_neg (by omega), if_neg (by omega), if_pos (by omega), Nat.add_sub_cancel_left]
    have whole : point / 64 * 64 + point % 64 = point := by omega
    rw [next, lead, kind]
    show continuation 1 (point / 64) 0x80 0xBF _ = _
    rw [List.cons_append, continuation_cons _ (by omega) (by omega) (by omega), whole]
    rfl
  | three low high scalar =>
    have lead : (UInt8.ofNat (0xE0 + point / 4096)).toNat = 0xE0 + point / 4096 :=
      toNat_ofNat (by omega)
    obtain ⟨least, greatest, kind, notBefore, notAfter⟩ := exists_lead_of_three low high scalar
    have whole : (point / 4096 * 64 + point / 64 % 64) * 64 + point % 64 = point := by omega
    rw [next, lead, kind]
    show continuation 2 _ _ _ _ = _
    rw [List.cons_append, List.cons_append, continuation_cons _ notBefore notAfter (by omega),
      continuation_cons _ (by omega) (by omega) (by omega), whole]
    rfl
  | four low high =>
    have lead : (UInt8.ofNat (0xF0 + point / 262144)).toNat = 0xF0 + point / 262144 :=
      toNat_ofNat (by omega)
    obtain ⟨least, greatest, kind, notBefore, notAfter⟩ := exists_lead_of_four low high
    have whole : ((point / 262144 * 64 + point / 4096 % 64) * 64 + point / 64 % 64) * 64 +
        point % 64 = point := by omega
    rw [next, lead, kind]
    show continuation 3 _ _ _ _ = _
    rw [List.cons_append, List.cons_append, List.cons_append,
      continuation_cons _ notBefore notAfter (by omega),
      continuation_cons _ (by omega) (by omega) (by omega),
      continuation_cons _ (by omega) (by omega) (by omega), whole]
    rfl

/-- Reading the bytes of a character gives it back, whatever follows. -/
theorem decode_utf8EncodeChar_append (c : Char) (rest : List UInt8) :
    decode (String.utf8EncodeChar c ++ rest) = c :: decode rest := by
  have shape := shape_utf8EncodeChar c
  cases written : String.utf8EncodeChar c with
  | nil =>
    rw [written] at shape
    cases shape
  | cons byte bytes =>
    rw [written] at shape
    rw [List.cons_append, decode, next_of_shape shape, Char.ofNat_toNat]
    rfl

/-- **A text is read back from its bytes.** -/
theorem decode_encode (text : Text) : decode (encode text) = text := by
  induction text with
  | nil => simp [encode, decode]
  | cons c text ih =>
    rw [encode, List.flatMap_cons, decode_utf8EncodeChar_append]
    exact congrArg (c :: ·) ih

end UriTemplates.Utf8
