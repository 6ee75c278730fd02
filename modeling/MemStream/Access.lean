import MemStream.Refusal

/-!
# `MemStream.Access` — which sides of a buffer are open

A buffer is opened for reading or for writing, never for both: the two would have to share one head. Each side
that the mode names starts open and can be closed once. The mode itself never changes.

## Contents
- **Opening.** `Access.ofMode?` checks the mode; `Access.reader` and `Access.writer` need no check.
- **Closing.** `Access.closes` tells whether a close would change anything and `Access.close` does it. After a
  close nothing is left for the same direction to close (`closes_close`).
-/

namespace MemStream

open Text

/-- The `mode` of a buffer and its sides that are still open, `readOpen` and `writeOpen`. -/
structure Access where
  mode : Directions
  readOpen : Bool
  writeOpen : Bool
  deriving DecidableEq

/-- A mode of both directions is the one that is rejected, with `Refusal.invalidConfiguration`. -/
def Directions.validate (m : Directions) : Except Refusal Unit :=
  if m.reads && m.writes then .error (.invalidConfiguration m) else .ok ()

namespace Access

/-! ## Opening -/

/-- Every side that the mode names is open, if `Directions.validate` lets it pass. -/
def ofMode? (m : Directions) : Except Refusal Access := do
  m.validate
  pure ⟨m, m.reads, m.writes⟩

/-- The `Access` of a buffer opened for reading alone. -/
def reader : Access := ⟨.reading, true, false⟩

/-- The `Access` of a buffer opened for writing alone. -/
def writer : Access := ⟨.writing, false, true⟩

/-- Whether `readOpen` or `writeOpen` holds. -/
def isOpen (a : Access) : Bool :=
  a.readOpen || a.writeOpen

/-! ## Closing -/

/-- Whether closing `direction` would close a side that is open. -/
def closes (a : Access) (direction : Directions) : Bool :=
  (direction.reads && a.readOpen) || (direction.writes && a.writeOpen)

/-- Closes the sides that `direction` names; the `mode` stays. -/
def close (a : Access) (direction : Directions) : Access :=
  { a with
    readOpen := a.readOpen && !direction.reads
    writeOpen := a.writeOpen && !direction.writes }

/-- A second `close` of the same direction has nothing left to do. -/
@[simp] theorem closes_close (a : Access) (d : Directions) : (a.close d).closes d = false := by
  rcases a with ⟨_, _ | _, _ | _⟩ <;> rcases d with ⟨_ | _, _ | _⟩ <;> rfl

/-- Where `closes` says that nothing would change, `close` changes nothing. -/
theorem close_eq_self_of_not_closes {a : Access} {d : Directions} (h : a.closes d = false) : a.close d = a := by
  rcases a with ⟨_, _ | _, _ | _⟩ <;> rcases d with ⟨_ | _, _ | _⟩ <;> simp_all [closes, close]

/-! ## Coherence -/

/-- The `mode` is not both directions, and no side is open that the `mode` does not name. -/
structure Coherent (a : Access) : Prop where
  exclusive : ¬ (a.mode.reads = true ∧ a.mode.writes = true)
  reads_of_readOpen : a.readOpen = true → a.mode.reads = true
  writes_of_writeOpen : a.writeOpen = true → a.mode.writes = true

/-- What `ofMode?` lets pass is `Coherent`. -/
theorem coherent_of_ofMode? {m : Directions} {a : Access} (h : ofMode? m = .ok a) : a.Coherent := by
  rcases m with ⟨_ | _, _ | _⟩
  · cases h
    exact ⟨by simp, id, id⟩
  · cases h
    exact ⟨by simp, id, id⟩
  · cases h
    exact ⟨by simp, id, id⟩
  · cases h

/-- A `Coherent` access has at most one side open. -/
theorem Coherent.writeOpen_eq_false {a : Access} (h : a.Coherent) (hr : a.readOpen = true) : a.writeOpen = false := by
  cases hw : a.writeOpen with
  | false => rfl
  | true => exact absurd ⟨h.reads_of_readOpen hr, h.writes_of_writeOpen hw⟩ h.exclusive

/-- To `close` a side takes nothing from `Coherent`. -/
theorem Coherent.close {a : Access} (h : a.Coherent) (d : Directions) : (a.close d).Coherent := by
  refine ⟨h.exclusive, ?_, ?_⟩
  · intro hr
    simp only [Access.close, Bool.and_eq_true] at hr
    exact h.reads_of_readOpen hr.1
  · intro hw
    simp only [Access.close, Bool.and_eq_true] at hw
    exact h.writes_of_writeOpen hw.1

/-! ## Text -/

/-- The `Access` for inspection: the `mode` and the state of both sides. -/
def outline (a : Access) : Outline :=
  .record "ModeState"
    [("mode", a.mode.outline), ("read_open", .flag a.readOpen), ("write_open", .flag a.writeOpen)] false

end Access

end MemStream
