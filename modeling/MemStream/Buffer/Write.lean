import MemStream.Buffer.Storage

/-!
# `MemStream.Buffer.Write` — putting elements

Writing puts all its elements at the head, growing the store if need be, and moves the head behind them. It is all or
nothing: a write that cannot be done in full, because the side is closed, the end would be no position, or the store
will not grow, puts nothing.

## Contents
- **Runs.** `Buffer.write`.
- **Single elements.** `Buffer.writeOne`.
-/

namespace MemStream.Buffer

open StateAction

variable {σ α : Type} [Store σ α]

/-- Writes all of `elements`, or none; the answer is how many (`write`, `putn`). -/
def write (elements : σ) : BufferAction σ Nat := do
  let b ← look
  let count := Store.size elements
  if b.canWrite ∧ 0 < count then
    if b.head + count < positionLimit then do
      dropTail
      let room ← growTo (b.head + count)
      if room then do
        place b.head elements
        moveHead (b.head + count)
        pure count
      else
        pure 0
    else do
      report (.writeOverflow b.head count)
      pure 0
  else
    pure 0

/-- Writes one element, `Store.single a`; the answer is the element, if it was written (`putc`). -/
def writeOne (a : α) : BufferAction σ (Option α) := do
  let count ← write (Store.single a : σ)
  pure (if count = 1 then some a else none)

end MemStream.Buffer
