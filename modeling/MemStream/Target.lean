import MemStream.Cursor

/-!
# `MemStream.Target` — where a seek wants to go

A target counts from the start, from the head, or from the end of the valid elements. Resolving it is exact
integer arithmetic: the result is a position, or nothing when it is negative or beyond the last position.

## Contents
- **Targets.** `Target`, `Target.resolve`, `Target.position?`.
- **Text.** `Target.outline`.
-/

namespace MemStream

open Text

/-- A place relative to one of three anchors (`SeekFrom`). -/
inductive Target where
  | start (offset : Nat)
  | current (offset : Int)
  | fromEnd (offset : Int)
  deriving DecidableEq

namespace Target

/-- The integer that the target names, given the `head` and `valid` of a `Cursor`. -/
def resolve (c : Cursor) : Target → Int
  | .start offset => offset
  | .current offset => c.head + offset
  | .fromEnd offset => c.valid + offset

/-- The position that the target names, if `resolve` comes to one below `positionLimit`. -/
def position? (c : Cursor) (t : Target) : Option Nat :=
  let z := t.resolve c
  if 0 ≤ z ∧ z < positionLimit then some z.toNat else none

/-- A target has the position `p` exactly when `resolve` comes to `p` and `p` is a position. -/
theorem position?_eq_some_iff {c : Cursor} {t : Target} {p : Nat} :
    t.position? c = some p ↔ t.resolve c = p ∧ p < positionLimit := by
  simp only [position?]
  split
  · simp only [Option.some.injEq]; omega
  · simp only [reduceCtorEq, false_iff]; omega

/-- The `Target` for inspection. -/
def outline : Target → Outline
  | .start offset => .tuple "Start" [.number offset]
  | .current offset => .tuple "Current" [.signed offset]
  | .fromEnd offset => .tuple "End" [.signed offset]

end Target

end MemStream
