import MemStream.Text.Utf8
import MemStream.Text.Utf16
import MemStream.Store.Cells

/-!
# `MemStream.Text.Codec` — stores that can hold text

A codec writes text into a store and reads it back. Reading fails with a `Flaw`, the reason why the elements are
not text.

## Contents
- **Flaws.** `Flaw` and its wording.
- **Codecs.** `Codec`, with `Codec.utf8` for bytes and `Codec.utf16` for sixteen-bit units.
-/

namespace MemStream.Text

/-- Why the elements of a store are not text: a `Utf8.Flaw` among bytes, or a surrogate without its other half. -/
inductive Flaw where
  /-- Bytes that cannot stand at their place. -/
  | bytes (flaw : Utf8.Flaw)
  /-- A surrogate without its partner. -/
  | loneSurrogate
  deriving DecidableEq

/-- The wording of a `Flaw`. -/
def Flaw.message : Flaw → String
  | .bytes (.invalid length start) =>
      "invalid utf-8 sequence of " ++ toString length ++ " bytes from index " ++ toString start
  | .bytes (.cutOff start) => "incomplete utf-8 byte sequence from index " ++ toString start
  | .loneSurrogate => "invalid utf-16: lone surrogate found"

/-- How text is kept in stores of type `σ`: what `encode` puts there and what `decode` makes of it. -/
structure Codec (σ : Type) where
  encode : String → σ
  decode : σ → Except Flaw String

namespace Codec

/-- Text in bytes, by `Utf8.encode` and `Utf8.decode`. -/
def utf8 {limit : Nat} : Codec (Cells UInt8 limit) where
  encode text := ⟨(Utf8.encode text.toList).toArray⟩
  decode s :=
    match Utf8.decode s.array.toList with
    | .ok chars => .ok (String.ofList chars)
    | .error flaw => .error (.bytes flaw)

/-- Text in sixteen-bit units, by `Utf16.encode` and `Utf16.decode`. -/
def utf16 {limit : Nat} : Codec (Cells UInt16 limit) where
  encode text := ⟨(Utf16.encode text.toList).toArray⟩
  decode s :=
    match Utf16.decode s.array.toList with
    | some chars => .ok (String.ofList chars)
    | none => .error .loneSurrogate

end Codec

end MemStream.Text
