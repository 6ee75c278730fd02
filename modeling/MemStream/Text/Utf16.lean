/-!
# `MemStream.Text.Utf16` — text as sixteen-bit units

A character below U+10000 is one unit, any other a high and a low surrogate. The only flaw that units can have
is a surrogate without its partner.

## Contents
- **Writing.** `encodeChar`, `encode`.
- **Reading.** `Utf16.decode`, or nothing when a surrogate stands alone.
-/

namespace MemStream.Text.Utf16

/-! ## Writing -/

/-- The one or two units of the character `c`. -/
def encodeChar (c : Char) : List UInt16 :=
  let n := c.toNat
  if n < 0x10000 then [UInt16.ofNat n]
  else [UInt16.ofNat (0xd800 + (n - 0x10000) / 0x400), UInt16.ofNat (0xdc00 + (n - 0x10000) % 0x400)]

/-- The units of `text`, `encodeChar` after `encodeChar`. -/
def encode (text : List Char) : List UInt16 :=
  text.flatMap encodeChar

/-! ## Reading -/

/-- Whether `u` is the first half of a pair. -/
def isHigh (u : UInt16) : Bool :=
  0xd800 ≤ u && u < 0xdc00

/-- Whether `u` is the second half of a pair. -/
def isLow (u : UInt16) : Bool :=
  0xdc00 ≤ u && u < 0xe000

/-- The character of the pair `high`, `low`. -/
def ofPair (high low : UInt16) : Char :=
  Char.ofNat (0x10000 + (high.toNat - 0xd800) * 0x400 + (low.toNat - 0xdc00))

/-- Reads on, after a high surrogate if one is waiting; `done` holds the characters before it, last first. -/
def decodeFrom (done : List Char) : Option UInt16 → List UInt16 → Option (List Char)
  | none, [] => some done.reverse
  | some _, [] => none
  | none, u :: rest =>
      if isHigh u then decodeFrom done (some u) rest
      else if isLow u then none
      else decodeFrom (Char.ofNat u.toNat :: done) none rest
  | some high, u :: rest =>
      if isLow u then decodeFrom (ofPair high u :: done) none rest
      else none

/-- The text that `units` spell, if no half of a pair stands alone. -/
def decode (units : List UInt16) : Option (List Char) :=
  decodeFrom [] none units

end MemStream.Text.Utf16
