/-!
# `MemStream.Text.Utf8` — text as bytes

UTF-8 in both directions. Reading goes byte by byte with a small memory of the character under way, so the
first byte that no text could have at its place is known exactly, and so is a character that is cut off.

## Contents
- **Writing.** `encodeChar`, `encode`.
- **Reading.** `Utf8.Progress` is the memory inside one character, `Utf8.lead` what a first byte announces,
  and `Utf8.decode` reads a whole sequence or names the `Utf8.Flaw`.
-/

namespace MemStream.Text.Utf8

/-! ## Writing -/

/-- A byte of the form `10xxxxxx` with the six low bits of `n`. -/
def tail (n : Nat) : UInt8 :=
  UInt8.ofNat (0x80 + n % 0x40)

/-- The one to four bytes of the character `c`. -/
def encodeChar (c : Char) : List UInt8 :=
  let n := c.toNat
  if n < 0x80 then [UInt8.ofNat n]
  else if n < 0x800 then [UInt8.ofNat (0xc0 + n / 0x40), tail n]
  else if n < 0x10000 then [UInt8.ofNat (0xe0 + n / 0x1000), tail (n / 0x40), tail n]
  else [UInt8.ofNat (0xf0 + n / 0x40000), tail (n / 0x1000), tail (n / 0x40), tail n]

/-- The bytes of `text`, `encodeChar` after `encodeChar`. -/
def encode (text : List Char) : List UInt8 :=
  text.flatMap encodeChar

/-! ## Reading -/

/-- Why bytes are not text: `invalid` gives the number of bytes from `start` that could have begun a
    character, and `cutOff` an unfinished character at the end. -/
inductive Flaw where
  | invalid (length start : Nat)
  | cutOff (start : Nat)
  deriving DecidableEq

/-- A character under way: how many of its bytes have been read, how many are still owed, which bytes may come
    next, and the value so far. -/
structure Progress where
  seen : Nat
  owed : Nat
  low : UInt8
  high : UInt8
  value : Nat

/-- What a first byte of two or more announces. The bounds that `Progress` keeps for the second byte leave out spellings
    that are longer than needed, surrogates, and values above U+10FFFF. -/
def lead (b : UInt8) : Option Progress :=
  if 0xc2 ≤ b ∧ b ≤ 0xdf then some ⟨1, 1, 0x80, 0xbf, b.toNat - 0xc0⟩
  else if b = 0xe0 then some ⟨1, 2, 0xa0, 0xbf, 0⟩
  else if b = 0xed then some ⟨1, 2, 0x80, 0x9f, 0xd⟩
  else if 0xe1 ≤ b ∧ b ≤ 0xef then some ⟨1, 2, 0x80, 0xbf, b.toNat - 0xe0⟩
  else if b = 0xf0 then some ⟨1, 3, 0x90, 0xbf, 0⟩
  else if 0xf1 ≤ b ∧ b ≤ 0xf3 then some ⟨1, 3, 0x80, 0xbf, b.toNat - 0xf0⟩
  else if b = 0xf4 then some ⟨1, 3, 0x80, 0x8f, 4⟩
  else none

/-- Takes `b` in as one more byte of the character under way. -/
def Progress.push (p : Progress) (b : UInt8) : Progress :=
  ⟨p.seen + 1, p.owed - 1, 0x80, 0xbf, p.value * 0x40 + (b.toNat - 0x80)⟩

/-- Reads on from a character under way, if there is one, that started at `start`; `done` holds the characters
    before it, last first. -/
def decodeFrom (done : List Char) (start : Nat) : Option Progress → List UInt8 → Except Flaw (List Char)
  | none, [] => .ok done.reverse
  | some _, [] => .error (.cutOff start)
  | none, b :: rest =>
      if b < 0x80 then decodeFrom (Char.ofNat b.toNat :: done) (start + 1) none rest
      else
        match lead b with
        | some p => decodeFrom done start (some p) rest
        | none => .error (.invalid 1 start)
  | some p, b :: rest =>
      if p.low ≤ b ∧ b ≤ p.high then
        let q := p.push b
        if q.owed = 0 then decodeFrom (Char.ofNat q.value :: done) (start + q.seen) none rest
        else decodeFrom done start (some q) rest
      else .error (.invalid p.seen start)

/-- The text that `bytes` spell, or the first `Flaw` in them. -/
def decode (bytes : List UInt8) : Except Flaw (List Char) :=
  decodeFrom [] 0 none bytes

end MemStream.Text.Utf8
