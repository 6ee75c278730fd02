import MemStream.Buffer.Direct
import MemStream.Buffer.Reserve
import MemStream.Buffer.Open
import MemStream.Buffer.Close
import MemStream.Buffer.Transfer

/-!
# `MemStream.Operation` — what can be asked of one buffer

The operations of a buffer as data, with the answers they give. A run of a buffer is a list of operations performed in
turn; statements about all runs quantify over such lists.

## Contents
- **Requests and answers.** `Operation`, `Answer`, and `Answer.ticket?` for what can be settled later.
- **Performing.** `Operation.perform` for one, `Operation.performAll` for a list.
-/

namespace MemStream

open Text

/-- A request to one buffer. The names in parentheses are those under which a caller of the stream, of a handle or of
    the core knows the request; where several name one behaviour, one constructor stands for all of them. -/
inductive Operation (σ α : Type) where
  /-- Asks for `Buffer.read` (`read`; `getn` and `sgetn` with `advance`). -/
  | read (count : Nat) (advance : Bool)
  /-- Asks for `Buffer.peek` (`copy_out`, `scopy`). -/
  | peek (count : Nat)
  /-- Asks for `Buffer.readOne` (`read_one`; `bumpc` and `sbumpc` with `advance`, `getc` and `sgetc` without). -/
  | readOne (advance : Bool)
  /-- Asks for `Buffer.skipOne` (`nextc`). -/
  | skipOne
  /-- Asks for `Buffer.stepBack` (`ungetc`). -/
  | stepBack
  /-- Asks for `Buffer.write` (`write`, `putn`). -/
  | write (elements : σ)
  /-- Asks for `Buffer.writeOne` (`putc`). -/
  | writeOne (element : α)
  /-- Asks for `Buffer.seekTo` (`seekpos`). -/
  | seekTo (position : Nat) (direction : Directions)
  /-- Asks for `Buffer.seek` (`seekoff`). -/
  | seek (target : Target) (direction : Directions)
  /-- Asks for `Buffer.sync` (`sync`, `flush`). -/
  | sync
  /-- Asks for `Buffer.stagingSize` (`buffer_size`). -/
  | stagingSize (direction : Directions)
  /-- Asks for `Buffer.hintStaging` (`set_buffer_size`). -/
  | hintStaging (size : Nat) (direction : Directions)
  /-- Asks for `Buffer.close` (`close`, `close_read`, `close_write`). -/
  | close (direction : Directions)
  /-- Asks for `Buffer.takeData` (`take_collection`). -/
  | takeData
  /-- Asks for `Buffer.dataCopy` (`collection_cloned`). -/
  | dataCopy
  /-- Asks for `Buffer.acquire` (`acquire` of the core). -/
  | acquire
  /-- Asks for `Buffer.borrow` (`acquire` of a handle, and what becomes of its guard). -/
  | borrow (settle : Option Nat)
  /-- Asks for `Buffer.release` (`release`). -/
  | release (ticket : Ticket) (count : Nat)
  /-- Asks for `Buffer.reserveAndFill` (`alloc`, and what its caller writes to the front of the region). -/
  | reserve (count : Nat) (filling : σ)
  /-- Asks for `Buffer.commit` (`commit`). -/
  | commit (count : Nat)
  /-- Asks for `Buffer.abandon` (`cancel_alloc`). -/
  | abandon
  /-- Asks for `Buffer.reserveWith` (`alloc_with`) of a filler that writes `filling` and claims `written` elements. -/
  | reserveWith (count : Nat) (filling : σ) (written : Nat)
  /-- Asks for `Buffer.readToEnd` (`read_to_end`). -/
  | readToEnd
  /-- Asks for `Buffer.readExact` (`read_exact`). -/
  | readExact (count : Nat)
  /-- Asks for `Buffer.readText` (`read_to_string`). -/
  | readText (codec : Codec σ)
  /-- Asks for `Buffer.writeAll` (`write_all`). -/
  | writeAll (elements : σ)
  /-- Asks for `Buffer.seekAny` (`seek`, `poll_seek`). -/
  | seekAny (target : Target)

/-- What `Operation.perform` answers, one constructor for each shape of answer. -/
inductive Answer (σ α : Type) where
  | done
  | flag (value : Bool)
  | count (value : Nat)
  | position (value : Option Nat)
  | element (value : Option α)
  /-- A whole sequence. -/
  | elements (value : σ)
  /-- The elements that a read of limited length came up with. -/
  | taken (value : σ)
  | lease (grant : Grant (Lease σ))
  | borrowed (grant : Grant (Lease σ × Option (Except Refusal Nat)))
  | settled (result : Except Refusal Nat)
  | region (granted : Option σ)
  | filled (result : Buffer.Filled σ)
  | gathered (result : Except TransferError σ)
  | text (result : Except TransferError (Nat × String))
  | stored (result : Except TransferError Unit)
  | moved (result : Except TransferError Nat)

/-- The `Ticket` of the lease that an answer grants. -/
def Answer.ticket? {σ α : Type} : Answer σ α → Option Ticket
  | .lease (.granted held) => some held.ticket
  | .borrowed (.granted (held, _)) => some held.ticket
  | _ => none

namespace Operation

variable {σ α : Type} [Store σ α]

/-- Performs one operation: the action of `Buffer` under the same name, its value wrapped as an `Answer`. -/
def perform : Operation σ α → BufferAction σ (Answer σ α)
  | .read count advance => do pure (.taken (← Buffer.read count advance))
  | .peek count => do pure (.taken (← Buffer.peek count))
  | .readOne advance => do pure (.element (← Buffer.readOne advance))
  | .skipOne => do pure (.element (← Buffer.skipOne))
  | .stepBack => do pure (.element (← Buffer.stepBack))
  | .write elements => do pure (.count (← Buffer.write elements))
  | .writeOne element => do pure (.element (← Buffer.writeOne element))
  | .seekTo position direction => do pure (.position (← Buffer.seekTo position direction))
  | .seek target direction => do pure (.position (← Buffer.seek target direction))
  | .sync => do pure (.flag (← Buffer.sync))
  | .stagingSize direction => do pure (.count ((← StateAction.look).stagingSize direction))
  | .hintStaging size direction => do
      Buffer.hintStaging size direction
      pure .done
  | .close direction => do pure (.flag (← Buffer.close direction))
  | .takeData => do pure (.elements (← Buffer.takeData))
  | .dataCopy => do pure (.elements (← Buffer.dataCopy))
  | .acquire => do pure (.lease (← Buffer.acquire))
  | .borrow settle => do pure (.borrowed (← Buffer.borrow settle))
  | .release ticket count => do pure (.settled (← Buffer.release ticket count))
  | .reserve count filling => do pure (.region (← Buffer.reserveAndFill count filling))
  | .commit count => do pure (.settled (← Buffer.commit count))
  | .abandon => do pure (.flag (← Buffer.abandon))
  | .reserveWith count filling written => do
      pure (.filled (← Buffer.reserveWith count fun _ => (filling, written)))
  | .readToEnd => do pure (.elements (← Buffer.readToEnd))
  | .readExact count => do pure (.gathered (← Buffer.readExact count))
  | .readText codec => do pure (.text (← Buffer.readText codec))
  | .writeAll elements => do pure (.stored (← Buffer.writeAll elements))
  | .seekAny target => do pure (.moved (← Buffer.seekAny target))

/-- Performs operations in turn and lists their answers. -/
def performAll (operations : List (Operation σ α)) : BufferAction σ (List (Answer σ α)) :=
  operations.mapM perform

@[simp] theorem performAll_nil : performAll ([] : List (Operation σ α)) = pure [] := rfl

/-- A `performAll` is the `perform` of the first operation and then the run of the others. -/
theorem performAll_cons (operation : Operation σ α) (rest : List (Operation σ α)) :
    performAll (operation :: rest) =
      operation.perform >>= fun answer => performAll rest >>= fun answers => pure (answer :: answers) := by
  simp [performAll]

end Operation

end MemStream
