import MemStream.Buffer.Storage

/-!
# `MemStream.Buffer.Close` — the end of a buffer

Closing takes sides out of use for good, and takes reservation and tail with it. A buffer can hand its elements out,
which leaves it closed and empty. When the last handle of a buffer goes away, the buffer is closed on both sides and
retires.

## Contents
- **Closing.** `Buffer.close`.
- **Handing out.** `Buffer.takeData`, `Buffer.dataCopy`.
- **Retiring.** `Buffer.retire`.
- **Nothing to do.** `Buffer.sync`, `Buffer.hintStaging`.
-/

namespace MemStream.Buffer

open StateAction

variable {σ α : Type} [Store σ α]

/-- Closes the sides that `direction` names; the answer is whether any of them was open (`close`, `close_read`,
    `close_write`). -/
def close (direction : Directions) : BufferAction σ Bool := do
  let b ← look
  if b.access.closes direction then do
    alter fun b => { b with access := b.access.close direction }
    nextEpoch
    alter fun b => { b with reservation := none }
    dropTail
    let b ← look
    report (.closed direction b.isOpen)
    pure true
  else
    pure false

/-- Hands the valid elements out and leaves the buffer closed and empty (`take_collection`). -/
def takeData : BufferAction σ σ := do
  let _ ← close .both
  dropTail
  let b ← look
  alter fun b => { b with cursor := .zero, data := Store.empty }
  pure b.data

/-- A copy of the whole store, tail included (`collection_cloned`). -/
def dataCopy : BufferAction σ σ := do
  let b ← look
  pure b.data

/-- Closes both sides, one after the other, and reports by `Notice.released` that the buffer is gone. This is what
    happens when the last handle is dropped. -/
def retire : BufferAction σ Unit := do
  let _ ← close .reading
  let _ ← close .writing
  report .released

/-- The elements are in the store already, so there is nothing to wait for (`sync`). -/
def sync : BufferAction σ Bool :=
  pure true

/-- A wish about staging is heard and ignored (`set_buffer_size`). -/
def hintStaging (size : Nat) (direction : Directions) : BufferAction σ Unit :=
  report (.sizeHintIgnored size direction)

end MemStream.Buffer
