import MemStream.Access
import MemStream.Grant
import MemStream.Event
import MemStream.Store.Basic
import MemStream.Text.Quoted

/-!
# `MemStream.Buffer.Basic` — a stream over a store

A buffer reads from or writes to one store. Reading moves the head and removes nothing; writing grows the store as
needed. Changes of the head, the store and the open sides are counted, the count is the epoch, and a lease or
reservation is good only at the epoch it was made.

The store is as long as the valid elements, except while a reservation reaches beyond them: the elements past the
valid ones are then the *tail*, and belong to nobody until they are committed.

## Contents
- **State.** `Buffer`.
- **Questions.** `Buffer.canRead`, `Buffer.canWrite`, `Buffer.capacity`, `Buffer.available`, …
- **Text.** `Buffer.outline`.
-/

namespace MemStream

open Text

/-- A stream over a store (`ContainerBufferCore`): the elements `data`, the `cursor` and the `access` to them. -/
structure Buffer (σ : Type) where
  data : σ
  cursor : Cursor
  access : Access
  /-- How often head, store or open sides have been changed. -/
  changes : Nat
  reservation : Option Reservation
  label : String
  deriving DecidableEq

namespace Buffer

variable {σ α : Type}

/-! ## Questions -/

/-- What the buffer was opened for (`mode`). -/
def mode (b : Buffer σ) : Directions :=
  b.access.mode

/-- Whether the reading side is open (`can_read`). -/
def canRead (b : Buffer σ) : Bool :=
  b.access.readOpen

/-- Whether the writing side is open (`can_write`). -/
def canWrite (b : Buffer σ) : Bool :=
  b.access.writeOpen

/-- Whether any side is open (`is_open`). -/
def isOpen (b : Buffer σ) : Bool :=
  b.access.isOpen

/-- The head can be moved as long as any side is open (`can_seek`). -/
def canSeek (b : Buffer σ) : Bool :=
  b.access.isOpen

/-- The position of the head (`head`). -/
def head (b : Buffer σ) : Nat :=
  b.cursor.head

/-- The number of valid elements (`valid_size`). -/
def valid (b : Buffer σ) : Nat :=
  b.cursor.valid

/-- The number of `changes`, as far as 64 bits hold it: after the last epoch comes the first again (`epoch`). -/
def epoch (b : Buffer σ) : UInt64 :=
  UInt64.ofNat b.changes

/-- The length of the store (`capacity`), which reaches beyond `valid` while there is a tail. -/
def capacity [Store σ α] (b : Buffer σ) : Nat :=
  Store.size b.data

/-- The number of valid elements from the head on (`in_avail`), `Cursor.available`. -/
def available (b : Buffer σ) : Nat :=
  b.cursor.available

/-- Nothing is staged between a buffer and its store, in either direction (`buffer_size`). -/
def stagingSize (_b : Buffer σ) (_direction : Directions) : Nat :=
  0

/-- The buffer under another `label` (`with_label`). -/
def relabel (b : Buffer σ) (label : String) : Buffer σ :=
  { b with label := label }

/-! ## Text -/

/-- The `Buffer` for inspection; the elements are left out. -/
def outline [Store σ α] (b : Buffer σ) : Outline :=
  .record "ContainerBufferCore"
    [("label", .word (quote b.label)),
     ("mode", b.mode.outline),
     ("open", .flag b.isOpen),
     ("head", .number b.head),
     ("valid_size", .number b.valid),
     ("capacity", .number b.capacity),
     ("epoch", .number b.epoch.toNat)]
    false

end Buffer

end MemStream
