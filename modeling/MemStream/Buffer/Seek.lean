import MemStream.Buffer.Read

/-!
# `MemStream.Buffer.Seek` — moving the head

A seek says in which direction the head is wanted. For reading, the head can go anywhere in the valid elements and to
their end. For writing, it can go anywhere the store will follow: blanks fill the gap. With both directions asked for,
the reading rule is tried first.

## Contents
- **Seeking.** `Buffer.seekTo` takes a position, `Buffer.seek` a target.
- **Going back.** `Buffer.stepBack` undoes the reading of one element.
-/

namespace MemStream.Buffer

open StateAction

variable {σ α : Type} [Store σ α]

/-- Reports by `Notice.seekRejected` that no direction admits the position. -/
def rejectSeek (position : Nat) (direction : Directions) : BufferAction σ (Option Nat) := do
  let b ← look
  report (.seekRejected position direction b.valid)
  pure none

/-- Moves the head to `position`; the answer is the position, if the head is there now (`seekpos`). The reading side is
    asked first. -/
def seekTo (position : Nat) (direction : Directions) : BufferAction σ (Option Nat) := do
  let b ← look
  if direction.reads ∧ b.canRead ∧ position ≤ b.valid then do
    moveHead position
    pure (some position)
  else if direction.writes ∧ b.canWrite then do
    dropTail
    let room ← growTo position
    if room then do
      moveHead position
      pure (some position)
    else
      rejectSeek position direction
  else
    rejectSeek position direction

/-- Moves the head to where a `Target` resolves (`seekoff`). -/
def seek (target : Target) (direction : Directions) : BufferAction σ (Option Nat) := do
  let b ← look
  match target.position? b.cursor with
  | some position => seekTo position direction
  | none => do
      report (.seekUnresolvable target)
      pure none

/-- Moves the head back by one element and gives that element (`ungetc`). -/
def stepBack : BufferAction σ (Option α) := do
  let moved ← seek (.current (-1)) .reading
  match moved with
  | some _ => peekOne
  | none => pure none

end MemStream.Buffer
