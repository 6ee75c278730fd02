import MemStream.Buffer.Basic
import MemStream.StateAction

/-!
# `MemStream.Buffer.Storage` — the store and the head under every operation

Everything that reads or changes the elements, and everything that moves the head, goes through the few actions of
this module. They are where the epoch moves on, where a range is checked against the store, and where head, valid
elements and capacity are checked to come in order.

## Contents
- **Elements.** `Buffer.piece` takes elements out, `Buffer.place` puts elements in.
- **Length.** `Buffer.growTo` makes room for a writer, `Buffer.dropTail` gives up what was never committed.
- **Head.** `Buffer.moveHead`.

Each comes with a lemma that says what a run of it leaves, under the condition that rules a fault out where there is
one (`run_piece`, `run_place`, `run_dropTail`, `run_growTo`, `run_moveHead`).
-/

namespace MemStream

/-- A `StateAction` of a buffer. -/
abbrev BufferAction (σ β : Type) : Type :=
  StateAction (Buffer σ) Event β

namespace Buffer

open StateAction

variable {σ α : Type}

/-- Reports `notice` under the `label` of the buffer. -/
def report (notice : Notice) : BufferAction σ Unit := do
  let b ← look
  emit [⟨b.label, notice⟩]

@[simp] theorem run_report (notice : Notice) (b : Buffer σ) :
    (report notice).run b = .ok ⟨(), b, [⟨b.label, notice⟩]⟩ := rfl

@[simp] theorem run_report_bind {β : Type} (notice : Notice) (f : Unit → BufferAction σ β) (b : Buffer σ) :
    (report notice >>= f).run b = ((f ()).run b).map (·.after [⟨b.label, notice⟩]) :=
  run_bind_of_ok (run_report notice b)

/-- Counts one more change, which moves the `epoch` on (`bump_epoch`). -/
def nextEpoch : BufferAction σ Unit :=
  alter fun b => { b with changes := b.changes + 1 }

@[simp] theorem run_nextEpoch (b : Buffer σ) :
    nextEpoch.run b = .ok ⟨(), { b with changes := b.changes + 1 }, []⟩ := rfl

@[simp] theorem run_nextEpoch_bind {β : Type} (f : Unit → BufferAction σ β) (b : Buffer σ) :
    (nextEpoch >>= f).run b = (f ()).run { b with changes := b.changes + 1 } :=
  run_alter_bind _ f b

variable [Store σ α]

/-! ## Elements -/

/-- A range must end inside the store, or it meets `Fault.rangePastEnd`. -/
def checkRange (stop size : Nat) : Except Fault Unit :=
  if stop ≤ size then .ok () else .error (.rangePastEnd stop size)

theorem checkRange_of_le {stop size : Nat} (h : stop ≤ size) : checkRange stop size = .ok () := by
  simp [checkRange, h]

/-- The `count` elements from `start` on, `Store.slice` behind the checks of the range. -/
def piece (start count : Nat) : BufferAction σ σ := do
  let b ← look
  let stop ← ensure (addPosition start count)
  ensure (checkRange stop b.capacity)
  pure (Store.slice b.data start count)

/-- A `piece` that lies in the store is given and nothing changes. -/
theorem run_piece {b : Buffer σ} {start count : Nat} (hstop : start + count ≤ b.capacity)
    (hcap : b.capacity < positionLimit) :
    (piece start count).run b = .ok ⟨Store.slice b.data start count, b, []⟩ := by
  simp [piece, addPosition_of_lt (Nat.lt_of_le_of_lt hstop hcap), checkRange_of_le hstop, Except.map]

/-- Puts `elements` in place of what the store has from `start` on, `Store.overlay` behind the checks of the range. -/
def place (start : Nat) (elements : σ) : BufferAction σ Unit := do
  let b ← look
  let stop ← ensure (addPosition start (Store.size elements))
  ensure (checkRange stop b.capacity)
  alter fun b => { b with data := Store.overlay b.data start elements }

/-- Elements that fit into the store are put there by `place`, and nothing else changes. -/
theorem run_place {b : Buffer σ} {start : Nat} {elements : σ} (hstop : start + Store.size elements ≤ b.capacity)
    (hcap : b.capacity < positionLimit) :
    (place start elements).run b = .ok ⟨(), { b with data := Store.overlay b.data start elements }, []⟩ := by
  simp [place, addPosition_of_lt (Nat.lt_of_le_of_lt hstop hcap), checkRange_of_le hstop]

/-! ## Length -/

/-- Cuts the store off after the `valid` elements (`trim_uncommitted`). -/
def dropTail : BufferAction σ Unit := do
  let b ← look
  if b.valid < b.capacity then do
    report (.tailDropped b.capacity b.valid)
    alter fun b => { b with data := Store.resize b.data b.valid }
    nextEpoch
  else
    pure ()

/-- Dropping a tail is reported and moves the `epoch` on; where `capacity` is no more than `valid`, nothing happens. -/
theorem run_dropTail (b : Buffer σ) :
    dropTail.run b =
      if b.valid < b.capacity then
        .ok ⟨(), { b with data := Store.resize b.data b.valid, changes := b.changes + 1 },
          [⟨b.label, .tailDropped b.capacity b.valid⟩]⟩
      else
        .ok ⟨(), b, []⟩ := by
  simp [dropTail, Except.map]

/-- Makes room up to `position` (`resize_for_write`). The store follows the `valid` elements, so it is resized only for
    a position beyond them; a store that `Store.tryResize?` refuses stays as it is, and the answer is negative. -/
def growTo (position : Nat) : BufferAction σ Bool := do
  let b ← look
  if position ≤ b.valid ∨ position = b.capacity then
    pure true
  else do
    report (.storeResizing b.capacity position)
    match Store.tryResize? b.data position with
    | some data => do
        alter fun b => { b with data }
        pure true
    | none => do
        report (.growthRefused b.capacity position)
        pure false

/-- To grow changes nothing but the store, and that only where the position lies beyond `valid`, is not the `capacity`
    already, and is accepted. -/
theorem run_growTo (b : Buffer σ) (position : Nat) :
    (growTo position).run b =
      if position ≤ b.valid ∨ position = b.capacity then
        .ok ⟨true, b, []⟩
      else if Store.accepts b.data position then
        .ok ⟨true, { b with data := Store.resize b.data position },
          [⟨b.label, .storeResizing b.capacity position⟩]⟩
      else
        .ok ⟨false, b,
          [⟨b.label, .storeResizing b.capacity position⟩, ⟨b.label, .growthRefused b.capacity position⟩]⟩ := by
  unfold growTo Store.tryResize?
  rw [run_look_bind, run_ite, run_report_bind]
  split
  · rfl
  · cases Store.accepts b.data position with
    | true => rfl
    | false => rfl

/-! ## Head -/

/-- Moves the head (`move_head`). With the writing side open, `valid` reaches at least up to the new head. -/
def moveHead (position : Nat) : BufferAction σ Unit := do
  alter fun b => { b with cursor := b.cursor.advance position b.canWrite }
  nextEpoch
  let b ← look
  ensure (b.cursor.check b.capacity)

/-- The head can go anywhere in the `valid` elements, and for a writer anywhere within `capacity`. -/
theorem run_moveHead {b : Buffer σ} {position : Nat} (hvalid : b.valid ≤ b.capacity)
    (hposition : position ≤ if b.canWrite then b.capacity else b.valid) :
    (moveHead position).run b =
      .ok ⟨(), { b with cursor := b.cursor.advance position b.canWrite, changes := b.changes + 1 }, []⟩ := by
  have hcheck : (b.cursor.advance position b.canWrite).check b.capacity = .ok () := by
    rw [Cursor.check_eq_ok_iff]
    unfold valid at hvalid hposition
    cases hwrite : b.canWrite with
    | true =>
        rw [hwrite, if_pos rfl] at hposition
        rw [Cursor.head_advance, Cursor.valid_advance_true]
        omega
    | false =>
        rw [hwrite, if_neg Bool.false_ne_true] at hposition
        rw [Cursor.head_advance, Cursor.valid_advance_false]
        exact ⟨hposition, hvalid⟩
  unfold moveHead
  rw [run_alter_bind, run_nextEpoch_bind, run_look_bind]
  show StateAction.run (ensure ((b.cursor.advance position b.canWrite).check b.capacity)) _ = _
  rw [hcheck, run_ensure_ok]

end Buffer

end MemStream
