import MemStream.Buffer.Storage

/-!
# `MemStream.Buffer.Read` — taking elements

Reading copies elements from the head on, never past the valid ones, and moves the head behind them unless it is
only a peek. With the reading side closed there is nothing to be had.

## Contents
- **Runs.** `Buffer.peek`, `Buffer.read`.
- **Single elements.** `Buffer.peekOne`, `Buffer.readOne`, `Buffer.skipOne`.
-/

namespace MemStream.Buffer

open StateAction

variable {σ α : Type} [Store σ α]

/-! ## Runs of elements -/

/-- At most `count` elements from the head on (`copy_out`, `scopy`). -/
def peek (count : Nat) : BufferAction σ σ := do
  let b ← look
  if b.canRead then
    piece b.head (min count b.available)
  else
    pure Store.empty

/-- At most `count` elements from the head on; with `advance`, the head moves behind them (`read`, `getn`, `sgetn`). -/
def read (count : Nat) (advance : Bool) : BufferAction σ σ := do
  let elements ← peek count
  if advance ∧ 0 < Store.size elements then do
    let b ← look
    let position ← ensure (addPosition b.head (Store.size elements))
    moveHead position
    pure elements
  else
    pure elements

/-! ## Single elements -/

/-- The element at the head; with `advance`, the head moves behind it (`read_one`; `bumpc` and `sbumpc` with `advance`,
    `getc` and `sgetc` without). -/
def readOne (advance : Bool) : BufferAction σ (Option α) := do
  let elements ← read 1 advance
  pure (Store.head? elements)

/-- The element at the head, `readOne` without `advance`. -/
def peekOne : BufferAction σ (Option α) :=
  readOne false

/-- Passes one element by and gives the one after it (`nextc`). -/
def skipOne : BufferAction σ (Option α) := do
  let _ ← readOne (α := α) true
  peekOne

end MemStream.Buffer
