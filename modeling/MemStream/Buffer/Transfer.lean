import MemStream.Buffer.Seek
import MemStream.Buffer.Write
import MemStream.Text.Codec

/-!
# `MemStream.Buffer.Transfer` — operations made of many reads or writes

A buffer may give fewer elements than asked for, and takes a write in full or not at all. The operations here ask again
until they have what they want or until nothing more comes, and say so if it was not enough.

## Contents
- **Failures.** `TransferError`, its kind and its wording.
- **Reading on.** `Buffer.gather` repeats reads; `Buffer.readToEnd`, `Buffer.readText` and `Buffer.readExact` are
  built on it.
- **Writing on.** `Buffer.writeAll`.
- **Seeking.** `Buffer.seekAny` picks the direction by what is open.
-/

namespace MemStream

/-! ## Failures -/

/-- Why a transfer failed. -/
inductive TransferError where
  /-- A seek to the target of the given text was refused. -/
  | seekRejected (target : String)
  /-- The buffer stopped taking elements. -/
  | writeZero
  /-- The data ended early. -/
  | unexpectedEnd
  /-- What was read is not text. -/
  | notText
  deriving DecidableEq

namespace TransferError

/-- The name of the kind of a `TransferError`. -/
def kind : TransferError → String
  | .seekRejected _ => "InvalidInput"
  | .writeZero => "WriteZero"
  | .unexpectedEnd => "UnexpectedEof"
  | .notText => "InvalidData"

/-- The wording of a `TransferError`. -/
def message : TransferError → String
  | .seekRejected target => "container buffer rejected seek to " ++ target
  | .writeZero => "failed to write whole buffer"
  | .unexpectedEnd => "failed to fill whole buffer"
  | .notText => "stream did not contain valid UTF-8"

end TransferError

namespace Buffer

open StateAction Text

variable {σ α : Type} [Store σ α]

/-! ## Reading on -/

/-- Does `read` again and again, each time for as many elements as `request` says for the number gathered so far, until
    nothing is asked for or nothing comes. The number `rounds` bounds the reads. -/
def gather (request : Nat → Nat) : Nat → σ → BufferAction σ σ
  | 0, gathered => pure gathered
  | rounds + 1, gathered =>
      if request (Store.size gathered) = 0 then
        pure gathered
      else do
        let elements ← read (request (Store.size gathered)) true
        if Store.size elements = 0 then
          pure gathered
        else
          gather request rounds (Store.append gathered elements)

/-- Everything `request` leads to. A `read` that gives something takes at least one of the `available` elements, so one
    round more than there are elements is enough. -/
def gatherAll (request : Nat → Nat) : BufferAction σ σ := do
  let b ← look
  gather request (b.available + 1) Store.empty

/-- The number of elements that `readToEnd` asks for at a time. -/
def chunkSize : Nat := 256

/-- All elements from the head to the end, in reads of `chunkSize` (`read_to_end`). -/
def readToEnd : BufferAction σ σ :=
  gatherAll fun _ => chunkSize

/-- The least number of elements that `readText` asks for. -/
def probeSize : Nat := 32

/-- All elements from the head to the end as text; the answer is their number and the text (`read_to_string`). Each
    `read` asks for as many elements as there are already. What is not text has been read all the same. -/
def readText (codec : Codec σ) : BufferAction σ (Except TransferError (Nat × String)) := do
  let elements ← gatherAll fun gathered => max probeSize gathered
  match codec.decode elements with
  | .ok text => pure (.ok (Store.size elements, text))
  | .error _ => pure (.error .notText)

/-- Exactly `count` elements (`read_exact`). Where there are fewer, those have been read all the same. -/
def readExact (count : Nat) : BufferAction σ (Except TransferError σ) := do
  let elements ← gatherAll fun gathered => count - gathered
  if Store.size elements = count then
    pure (.ok elements)
  else
    pure (.error .unexpectedEnd)

/-! ## Writing on -/

/-- Does `write` until nothing is left; `rounds` bounds the number of writes. -/
def writeOn : Nat → σ → BufferAction σ (Except TransferError Unit)
  | 0, _ => pure (.error .writeZero)
  | rounds + 1, elements =>
      if Store.size elements = 0 then
        pure (.ok ())
      else do
        let count ← write elements
        if count = 0 then
          pure (.error .writeZero)
        else
          writeOn rounds (Store.slice elements count (Store.size elements - count))

/-- Writes all elements (`write_all`). A `write` that puts anything leaves fewer to write, so one round more than there
    are elements is enough. -/
def writeAll (elements : σ) : BufferAction σ (Except TransferError Unit) :=
  writeOn (Store.size elements + 1) elements

/-! ## Seeking -/

/-- Moves the head by `seek`, for reading while the reading side is open and for writing otherwise (`io_seek`,
    `poll_seek`). -/
def seekAny (target : Target) : BufferAction σ (Except TransferError Nat) := do
  let b ← look
  let moved ← seek target (if b.canRead then .reading else .writing)
  match moved with
  | some position => pure (.ok position)
  | none => pure (.error (.seekRejected target.outline.oneLine))

end Buffer

end MemStream
