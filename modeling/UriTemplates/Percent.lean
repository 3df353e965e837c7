import UriTemplates.Text.Character
import UriTemplates.Text.Utf8

/-!
# Percent-encoding

The characters that a URI may not hold as they are, written as triplets `%HH` of their
UTF-8 bytes (`Percent.encode`), and triplets read back as bytes of a text
(`Percent.decode`). Reading never fails: a percent sign that starts no triplet stays, and
bytes that are not UTF-8 are read as replacement characters.
-/

namespace UriTemplates.Percent

/-- The uppercase hexadecimal digit of a number below sixteen. -/
def hexDigit (value : Nat) : Char :=
  if value < 10 then Char.ofNat ('0'.toNat + value) else Char.ofNat ('A'.toNat + (value - 10))

/-- The triplet of a byte. -/
def triplet (byte : UInt8) : Text :=
  ['%', hexDigit (byte.toNat / 16), hexDigit (byte.toNat % 16)]

/-- Whether a character is written as it is: unreserved characters always, and reserved
ones where the expression lets them through. -/
def isKept (allowReserved : Bool) (c : Char) : Bool :=
  Text.isUnreserved c || (allowReserved && Text.isReserved c)

/-- A character as it is written in a URI. -/
def encodeChar (allowReserved : Bool) (c : Char) : Text :=
  if isKept allowReserved c then [c] else (String.utf8EncodeChar c).flatMap triplet

/-- A text as it is written in a URI. -/
def encode (allowReserved : Bool) (text : Text) : Text :=
  text.flatMap (encodeChar allowReserved)

/-- The bytes that a text of a URI stands for: those of its triplets, and the UTF-8 bytes
of everything else. -/
def bytes : Text → List UInt8
  | [] => []
  | '%' :: high :: low :: rest =>
    match Text.hexValue? high, Text.hexValue? low with
    | some h, some l => UInt8.ofNat (h * 16 + l) :: bytes rest
    | _, _ => 0x25 :: bytes (high :: low :: rest)
  | c :: rest => String.utf8EncodeChar c ++ bytes rest

/-- The text that a text of a URI stands for. A character beyond ASCII starts with a byte
that continues no sequence, so it ends the triplets before it. -/
def decode (text : Text) : Text :=
  Utf8.decode (bytes text)

end UriTemplates.Percent
