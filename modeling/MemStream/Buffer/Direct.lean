import MemStream.Buffer.Storage

/-!
# `MemStream.Buffer.Direct` — reading without copying

A reader can be granted everything from the head on as a lease, and settles it later by telling how much of it was
used. The lease is only a look: the head moves when it is settled. Settling is refused if the buffer has changed since
the grant, and if more is settled than was granted.

## Contents
- **Granting.** `Buffer.acquire`.
- **Settling.** `Buffer.release`; `Buffer.borrow` asks and settles in one go.
-/

namespace MemStream.Buffer

open StateAction

variable {σ α : Type} [Store σ α]

/-- Asks for a `Lease` of everything from the head on (`acquire`). -/
def acquire : BufferAction σ (Grant (Lease σ)) := do
  let b ← look
  if !b.mode.reads then
    pure .refused
  else if !b.canRead then
    pure .endOfStream
  else if b.available = 0 then
    pure .retry
  else do
    let elements ← piece b.head b.available
    pure (.granted ⟨elements, b.epoch, b.head, b.available⟩)

/-- Settles a `Ticket` for `count` elements; the answer is the new head (`release`). The ticket is held against `epoch`
    and length, and against nothing else. -/
def release (ticket : Ticket) (count : Nat) : BufferAction σ (Except Refusal Nat) := do
  let b ← look
  if ticket.epoch ≠ b.epoch then do
    let refusal := Refusal.staleLease ticket.epoch b.epoch
    report (.staleLease refusal.code)
    pure (.error refusal)
  else if ticket.length < count then do
    let refusal := Refusal.leaseOverrun count ticket.length
    report (.leaseOverrun refusal.code)
    pure (.error refusal)
  else do
    let position ← ensure (addPosition ticket.offset count)
    moveHead position
    pure (.ok position)

/-- Asks for a lease while holding on to the buffer (`acquire` of a handle, whose guard keeps the buffer locked). A
    lease that is granted is then settled for `settle` elements (`release` of the guard), or let go unsettled, which
    changes nothing. -/
def borrow (settle : Option Nat) : BufferAction σ (Grant (Lease σ × Option (Except Refusal Nat))) := do
  let grant ← acquire
  match grant, settle with
  | .granted lease, some count => do
      let settled ← release lease.ticket count
      pure (.granted (lease, some settled))
  | .granted lease, none => pure (.granted (lease, none))
  | .retry, _ => pure .retry
  | .endOfStream, _ => pure .endOfStream
  | .refused, _ => pure .refused

end MemStream.Buffer
