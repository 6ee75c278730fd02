import MemStream.Operation
import MemStream.Session.Table

/-!
# `MemStream.Session.Basic` — shared buffers under names

A session holds buffers, handles to them, and tickets. A handle sits in a named slot; handles in several slots may share
one buffer, and all of them see the same state. A buffer lives as long as some slot refers to it: when the last one lets
go, it retires.

## Contents
- **State.** `Session` and the `Report` of an event, with `Session.find?` for the buffer of a slot and
  `Session.handles` for the number of its handles.
- **Work on one buffer.** `Session.within`.
- **Slots.** `Session.enter` puts a handle into a slot, `Session.leave` takes it out, `Session.settle` retires a buffer
  without handles, and `Session.finish` empties all slots.
-/

namespace MemStream

/-- What tells the buffers of a `Session` apart. -/
abbrev BufferId := Nat

/-- Buffers by their `BufferId`, the slots that refer to them, and tickets by name. -/
structure Session (σ : Type) where
  buffers : Table BufferId (Buffer σ)
  slots : Table String BufferId
  tickets : Table String Ticket
  /-- The identity of the next buffer. -/
  nextId : BufferId
  deriving DecidableEq

/-- An `Event`, with the buffer it came from; a buffer that never came to be has no `source`. -/
structure Report where
  source : Option BufferId
  event : Event
  deriving DecidableEq

/-- A `StateAction` of a session. -/
abbrev SessionAction (σ β : Type) : Type :=
  StateAction (Session σ) Report β

namespace Session

open StateAction

variable {σ α β : Type} [Store σ α]

/-- A session in which nothing has been opened yet; `nextId` starts at zero. -/
def empty : Session σ :=
  ⟨.empty, .empty, .empty, 0⟩

/-- The buffer that `slot` refers to. -/
def find? (s : Session σ) (slot : String) : Option (Buffer σ) :=
  (s.slots.find? slot).bind s.buffers.find?

/-- The number of slots that refer to the buffer `id` (`ref_count`). -/
def handles (s : Session σ) (id : BufferId) : Nat :=
  s.slots.values.countP (· == id)

/-! ## Work on one buffer -/

/-- Lets the action `x` work on the buffer `id` of the session (`with_core`); without the buffer, nothing happens. -/
def within (id : BufferId) (x : BufferAction σ β) : SessionAction σ (Option β) := fun s =>
  match s.buffers.find? id with
  | none => .ok ⟨none, s, []⟩
  | some b =>
      match x.run b with
      | .error fault => .error fault
      | .ok step =>
          let reports := step.events.map (⟨some id, ·⟩)
          .ok ⟨some step.value, { s with buffers := s.buffers.insert id step.state }, reports⟩

/-! ## Slots -/

/-- Retires the buffer `id` by `Buffer.retire`, if no slot refers to it any more. -/
def settle (id : BufferId) : SessionAction σ Unit := do
  let s ← look
  if s.handles id = 0 then do
    let _ ← within id Buffer.retire
    alter fun s => { s with buffers := s.buffers.erase id }
  else
    pure ()

/-- Puts a handle of `id` into `slot`. A handle that was there before lets go of its buffer (`settle`). -/
def enter (slot : String) (id : BufferId) : SessionAction σ Unit := do
  let s ← look
  alter fun s => { s with slots := s.slots.insert slot id }
  match s.slots.find? slot with
  | some old => settle old
  | none => pure ()

/-- Takes the handle out of `slot` and lets go of its buffer (`settle`). -/
def leave (slot : String) : SessionAction σ Unit := do
  let s ← look
  alter fun s => { s with slots := s.slots.erase slot }
  match s.slots.find? slot with
  | some old => settle old
  | none => pure ()

/-- Brings a new buffer into `slot` under the identity `nextId`; `events` tell of its making. -/
def adopt (slot : String) (b : Buffer σ) (events : List Event) : SessionAction σ Unit := do
  let s ← look
  emit (events.map (⟨some s.nextId, ·⟩))
  alter fun s => { s with buffers := s.buffers.insert s.nextId b, nextId := s.nextId + 1 }
  enter slot s.nextId

/-- Empties all slots by `leave`, in the order of their names. -/
def finish : SessionAction σ Unit := do
  let s ← look
  (s.slots.names.mergeSort fun a b => decide (a ≤ b)).forM leave

end Session

end MemStream
