import MemStream.Text.Outline

/-!
# `MemStream.Directions` — sets of directions

There are two directions, reading and writing, and `Directions` is a set of them. As the *mode* of a buffer it says what
the buffer was opened for; a seek or a close names the directions it is about.

## Contents
- **Sets.** `Directions.none`, `Directions.reading`, `Directions.writing`, union, and `Directions.contains`. Nothing
  contains the empty set (`contains_none`), so asking for no direction is never granted by accident.
- **Text.** `Directions.text` for messages, `Directions.outline` for inspection.
-/

namespace MemStream

open Text

/-- A set of directions: whether it `reads` and whether it `writes`. -/
structure Directions where
  reads : Bool
  writes : Bool
  deriving DecidableEq

namespace Directions

/-! ## Sets of directions -/

/-- The set of no direction. Nothing `contains` it. -/
def none : Directions := ⟨false, false⟩

/-- The reading direction alone, `IN`. -/
def reading : Directions := ⟨true, false⟩

/-- The writing direction alone, `OUT`. -/
def writing : Directions := ⟨false, true⟩

/-- The directions `reading` and `writing` at once, which `Directions.validate` rejects as a mode. -/
def both : Directions := ⟨true, true⟩

/-- The directions of `a` and of `b`. -/
def union (a b : Directions) : Directions :=
  ⟨a.reads || b.reads, a.writes || b.writes⟩

/-- Whether the set is `none`. -/
def isEmpty (m : Directions) : Bool :=
  !m.reads && !m.writes

/-- Whether `m` has every direction of `other`, which must not be `none`. -/
def contains (m other : Directions) : Bool :=
  (!other.reads || m.reads) && (!other.writes || m.writes) && !other.isEmpty

/-- The set `none` is contained in nothing, not even in itself. -/
@[simp] theorem contains_none (m : Directions) : m.contains none = false := by
  simp [contains, none, isEmpty]

/-- To contain `reading` is to have `reads`. -/
@[simp] theorem contains_reading (m : Directions) : m.contains reading = m.reads := by
  simp [contains, reading, isEmpty]

/-- To contain `writing` is to have `writes`. -/
@[simp] theorem contains_writing (m : Directions) : m.contains writing = m.writes := by
  simp [contains, writing, isEmpty]

/-! ## Text -/

/-- The set as a number: `reads` counts one and `writes` two. -/
def bits (m : Directions) : Nat :=
  (if m.reads then 1 else 0) + (if m.writes then 2 else 0)

/-- The directions by name, joined by a bar. -/
def text (m : Directions) : String :=
  match m.reads, m.writes with
  | true, true => "in|out"
  | true, false => "in"
  | false, true => "out"
  | false, false => "none"

/-- The set for inspection, shown by its `bits`. -/
def outline (m : Directions) : Outline :=
  .tuple "OpenMode" [.number m.bits]

end Directions

end MemStream
