import MemStream.Text.Graphic

/-!
# `MemStream.Text.Quoted` — text and bytes between quotes

Text is put between double quotes so that every character can be seen: a handful of characters have an escape
of two signs, a character that is not graphic is given by its code, and all others stand for themselves. Bytes
are quoted in the same spirit, with only visible ASCII standing for itself.

## Contents
- **Text.** `quoteChar`, `quote`.
- **Bytes.** `quoteByte`, `quoteBytes`.
- **Numbers.** `bracketed`.
- **Digits.** `hex` writes a number in hexadecimal.
-/

namespace MemStream.Text

/-! ## Digits -/

/-- Lower-case hexadecimal digits of `n`, without leading zeros. -/
def hex (n : Nat) : String :=
  String.ofList (Nat.toDigits 16 n)

/-- The byte `b` as two hexadecimal digits. -/
def hexByte (b : UInt8) : String :=
  if b.toNat < 16 then "0" ++ hex b.toNat else hex b.toNat

/-! ## Text -/

/-- One `Char` as it stands between quotes. A single quote needs no escape there. -/
def quoteChar (c : Char) : String :=
  if c = '\x00' then "\\0"
  else if c = '\t' then "\\t"
  else if c = '\r' then "\\r"
  else if c = '\n' then "\\n"
  else if c = '"' then "\\\""
  else if c = '\\' then "\\\\"
  else if isGraphic c then String.singleton c
  else "\\u\x7b" ++ hex c.toNat ++ "\x7d"

/-- The `text` between double quotes, each character by `quoteChar`. -/
def quote (text : String) : String :=
  "\"" ++ String.join (text.toList.map quoteChar) ++ "\""

/-! ## Bytes -/

/-- One byte as it stands between quotes. -/
def quoteByte (b : UInt8) : String :=
  if b = 0 then "\\0"
  else if b = 0x09 then "\\t"
  else if b = 0x0d then "\\r"
  else if b = 0x0a then "\\n"
  else if b = 0x22 then "\\\""
  else if b = 0x5c then "\\\\"
  else if 0x20 ≤ b ∧ b < 0x7f then String.singleton (Char.ofNat b.toNat)
  else "\\x" ++ hexByte b

/-- Bytes between double quotes, each by `quoteByte`, marked as bytes. -/
def quoteBytes (bytes : List UInt8) : String :=
  "b\"" ++ String.join (bytes.map quoteByte) ++ "\""

/-! ## Numbers -/

/-- The `numbers` in decimal between brackets, separated by commas. -/
def bracketed (numbers : List Nat) : String :=
  "[" ++ String.intercalate ", " (numbers.map toString) ++ "]"

end MemStream.Text
