import MemStream.Buffer.Storage

/-!
# `MemStream.Buffer.Reserve` — writing without copying

A writer can reserve room at the head, fill it in place, and commit as much of it as was filled. Room inside the valid
elements is filled over them at once and for good; room beyond them belongs to nobody until it is committed. A buffer
has at most one reservation, and any other change makes it stale.

## Contents
- **Reserving.** `Buffer.reserve`, `Buffer.fill`.
- **Settling.** `Buffer.commit`, `Buffer.abandon`.
- **All in one.** `Buffer.reserveWith` reserves, fills and commits, and leaves no reservation behind.
-/

namespace MemStream.Buffer

open StateAction

variable {σ α : Type} [Store σ α]

/-! ## Reserving -/

/-- Sets aside room for `count` elements at the head and gives what is there now (`alloc`). -/
def reserve (count : Nat) : BufferAction σ (Option σ) := do
  let b ← look
  if b.canWrite ∧ b.head + count < positionLimit then do
    dropTail
    let room ← growTo (b.head + count)
    if room then do
      nextEpoch
      alter fun b => { b with reservation := some ⟨b.epoch, count⟩ }
      let region ← piece b.head count
      pure (some region)
    else
      pure none
  else
    pure none

/-- Writes the front of `elements` over a region of the store that starts at the head, as far as they fit, as the holder
    of a region given by `reserve` would. -/
def fill (region elements : σ) : BufferAction σ Unit := do
  let b ← look
  place b.head (Store.overlayFront region elements)

/-- Does `reserve` and, if room is granted, `fill`s the front of it; the answer is what was there before. -/
def reserveAndFill (count : Nat) (elements : σ) : BufferAction σ (Option σ) := do
  let granted ← reserve count
  match granted with
  | some region => do
      fill region elements
      pure (some region)
  | none => pure none

/-! ## Settling -/

/-- Commits the first `count` elements of the reserved room; the answer is their number (`commit`). -/
def commit (count : Nat) : BufferAction σ (Except Refusal Nat) := do
  let b ← look
  match b.reservation with
  | none => pure (.error .noPendingAllocation)
  | some reservation =>
      if reservation.epoch ≠ b.epoch then do
        alter fun b => { b with reservation := none }
        dropTail
        let b ← look
        pure (.error (.staleLease reservation.epoch b.epoch))
      else if reservation.length < count then
        pure (.error (.leaseOverrun count reservation.length))
      else do
        alter fun b => { b with reservation := none }
        let position ← ensure (addPosition b.head count)
        moveHead position
        dropTail
        pure (.ok count)

/-- Gives the reservation up; the answer is whether there was one (`cancel_alloc`). -/
def abandon : BufferAction σ Bool := do
  let b ← look
  alter fun b => { b with reservation := none }
  dropTail
  pure b.reservation.isSome

/-! ## All in one -/

/-- What came of reserving, filling and committing in one go, as `reserveWith` reports it. -/
structure Filled (σ : Type) where
  /-- What was in the room before it was filled, if room was granted. -/
  granted : Option σ
  committed : Except Refusal Nat

/-- Does `reserve` for `count` elements, lets `filler` fill the room and say how much it filled, and does `commit` for
    that much (`alloc_with`). Where no room is granted, nothing is committed and `filler` is not asked; where the commit
    is refused, the reservation is given up by `abandon`. -/
def reserveWith (count : Nat) (filler : σ → σ × Nat) : BufferAction σ (Filled σ) := do
  let granted ← reserve count
  match granted with
  | none => pure ⟨none, .ok 0⟩
  | some region => do
      fill region (filler region).1
      let committed ← commit (filler region).2
      match committed with
      | .ok written => pure ⟨some region, .ok written⟩
      | .error refusal => do
          let _ ← abandon
          pure ⟨some region, .error refusal⟩

end MemStream.Buffer
