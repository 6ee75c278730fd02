import MemStream.Store.Basic

/-!
# `MemStream.Store.Cells` — stores backed by an array

`Cells α limit` holds its elements in an array and is ready to grow to `limit` of them. The limit is a matter of
growing only: a longer array can be handed in, and is refused nothing but a length above the limit.

## Contents
- **Elements.** `Blank` names the element that fills gaps: zero, or the character of code zero.
- **Stores.** `Cells` with its `Store` and `LawfulStore` instances.
- **Sizes in use.** `Bytes`, `Units16`, `Units32`, `Chars` may fill the address space, `SmallBytes` stops at 32.
-/

namespace MemStream

/-! ## Elements -/

/-- A type of elements with one, `blank`, that fills gaps. -/
class Blank (α : Type) where
  blank : α

instance : Blank UInt8 := ⟨0⟩
instance : Blank UInt16 := ⟨0⟩
instance : Blank UInt32 := ⟨0⟩
instance : Blank Char := ⟨'\x00'⟩

/-! ## Array-backed stores -/

/-- An `array` of elements that may grow to `limit`. -/
structure Cells (α : Type) (limit : Nat) where
  array : Array α
  deriving DecidableEq

variable {α : Type} {limit : Nat}

instance [Blank α] : Store (Cells α limit) α where
  blank := Blank.blank
  toList s := s.array.toList
  size s := s.array.size
  blanks n := ⟨Array.replicate n Blank.blank⟩
  single a := ⟨#[a]⟩
  slice s start count := ⟨s.array.extract start (start + count)⟩
  append s t := ⟨s.array ++ t.array⟩
  head? s := s.array[0]?
  accepts _ n := n ≤ limit

instance [Blank α] : LawfulStore (Cells α limit) where
  toList_inj := by
    intro ⟨s⟩ ⟨t⟩ h
    simpa [Store.toList] using h
  size_eq s := by simp [Store.size, Store.toList]
  toList_blanks n := by simp [Store.blanks, Store.toList, Store.blank]
  toList_single a := by simp [Store.single, Store.toList]
  toList_slice s start count := by
    simp only [Store.slice, Store.toList, Array.toList_extract, List.extract_eq_take_drop]
    rw [Nat.add_sub_cancel_left]
  toList_append s t := by simp [Store.append, Store.toList]
  head?_eq s := by
    simp [Store.head?, Store.toList, List.head?_eq_getElem?]

/-- Of `Cells`, `Store.accepts` asks only that the length is within the limit. -/
@[simp] theorem Cells.accepts_iff [Blank α] (s : Cells α limit) (n : Nat) :
    Store.accepts s n = true ↔ n ≤ limit := by
  simp [Store.accepts]

/-! ## Sizes in use -/

/-- The number of bytes that one object may take. The limits of `Bytes`, `Units16`, `Units32` and `Chars` are what is
    left of it for elements of their width. -/
def addressSpace : Nat := UInt64.size / 2 - 2

/-- Stores of single bytes, the elements of `Codec.utf8`. -/
abbrev Bytes := Cells UInt8 addressSpace

/-- Stores of sixteen-bit units, the elements of `Codec.utf16`. -/
abbrev Units16 := Cells UInt16 (addressSpace / 2)

/-- Stores of thirty-two-bit units. -/
abbrev Units32 := Cells UInt32 (addressSpace / 4)

/-- Stores of `Char`s, four bytes each. -/
abbrev Chars := Cells Char (addressSpace / 4)

/-- Stores of `UInt8` that take no more than 32 of them. -/
abbrev SmallBytes := Cells UInt8 32

end MemStream
