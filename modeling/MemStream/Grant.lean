import MemStream.Text.Outline

/-!
# `MemStream.Grant` — direct access to the elements of a buffer

A reader can look at everything from the head on without copying. What it gets is a `Lease`: the elements and a
`Ticket` to settle with. The ticket remembers the epoch of the buffer, so that a ticket from before a change is
recognised. A writer can reserve room ahead of the head; the buffer remembers the `Reservation` until it is
committed or given up.

## Contents
- **Reading.** `Ticket`, `Lease`, and the four answers `Grant` to a request for one.
- **Writing.** `Reservation`.
-/

namespace MemStream

open Text

/-- What a `Lease` is settled with (`LeaseTicket`): the `epoch` at which it was granted, its first position and its
    length. It does not say which buffer granted it. -/
structure Ticket where
  epoch : UInt64
  offset : Nat
  length : Nat
  deriving DecidableEq

/-- The `Ticket` for inspection. -/
def Ticket.outline (t : Ticket) : Outline :=
  .record "LeaseTicket"
    [("epoch", .number t.epoch.toNat), ("offset", .number t.offset), ("len", .number t.length)] false

/-- Whether a ticket of length zero was granted. -/
def Ticket.isEmpty (t : Ticket) : Bool :=
  t.length == 0

/-- Elements on loan, with the `Ticket` to settle them (`DirectRead`). -/
structure Lease (σ : Type) where
  elements : σ
  ticket : Ticket
  deriving DecidableEq

/-- A `Lease` that is held on to, for inspection: its elements are left out. -/
def Lease.outline {σ : Type} (l : Lease σ) : Outline :=
  .record "DirectReadGuard" [("ticket", l.ticket.outline)] true

/-- The answer to a request for direct access (`Acquire`): `granted`, or one of three reasons why not. -/
inductive Grant (γ : Type) where
  | granted (value : γ)
  /-- Nothing to read now, but the reading side is open. -/
  | retry
  /-- The reading side is closed. -/
  | endOfStream
  /-- The buffer was not opened for reading. -/
  | refused
  deriving DecidableEq

/-- Room for `length` elements ahead of the head, set aside at `epoch`. A buffer has at most one,
    `Buffer.reservation`. -/
structure Reservation where
  epoch : UInt64
  length : Nat
  deriving DecidableEq

end MemStream
