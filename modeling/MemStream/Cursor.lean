import MemStream.Text.Outline

/-!
# `MemStream.Cursor` — the head and the end of the valid elements

A buffer has one head, from which it reads or at which it writes, and one count of valid elements, those that
have been committed. `Cursor` keeps the two together, so that the rule by which writing past the end raises the
count is stated once.

Positions are natural numbers, and a position is representable below `positionLimit`. Arithmetic that would leave
that range, a range that leaves the store, and a head or a count that has run ahead are *faults*: they end the
run, and a buffer that is used as documented never meets one.

## Contents
- **Faults.** `Fault`, `Fault.message`.
- **Checked arithmetic.** `addPosition`, with `addPosition_of_lt`.
- **Cursor.** `Cursor.advance`, `Cursor.available`, `Cursor.check`.
-/

namespace MemStream

open Text

/-! ## Faults -/

/-- How an internal rule can be broken. A run that meets a `Fault` ends there. -/
inductive Fault where
  /-- The head lies beyond the valid elements. -/
  | headPastValid (head valid : Nat)
  /-- More elements count as valid than the store holds. -/
  | validPastCapacity (valid capacity : Nat)
  /-- A sum of two positions is not a position. -/
  | positionOverflow (position count : Nat)
  /-- A range ends beyond the store. -/
  | rangePastEnd (stop size : Nat)
  deriving DecidableEq

/-- The wording of a `Fault`. -/
def Fault.message : Fault → String
  | .headPastValid head valid =>
      "container buffer head " ++ toString head ++ " ran past valid size " ++ toString valid
  | .validPastCapacity valid capacity =>
      "container buffer valid size " ++ toString valid ++ " exceeds capacity " ++ toString capacity
  | .positionOverflow position count =>
      "position " ++ toString position ++ " cannot be moved by " ++ toString count
  | .rangePastEnd stop size =>
      "range up to " ++ toString stop ++ " leaves a store of " ++ toString size

/-! ## Checked arithmetic -/

/-- The first number that is not a position: positions have the 64 bits of `UInt64`. -/
def positionLimit : Nat := UInt64.size

/-- The sum of `position` and `count`, which must be below `positionLimit`. -/
def addPosition (position count : Nat) : Except Fault Nat :=
  if position + count < positionLimit then .ok (position + count)
  else .error (.positionOverflow position count)

/-- A sum below `positionLimit` meets no `Fault`. -/
theorem addPosition_of_lt {position count : Nat} (h : position + count < positionLimit) :
    addPosition position count = .ok (position + count) := by
  simp [addPosition, h]

/-! ## The cursor -/

/-- The `head` and the number `valid` of committed elements (`head`, `valid_size`). -/
structure Cursor where
  head : Nat
  valid : Nat
  deriving DecidableEq

namespace Cursor

/-- The cursor with `head` and `valid` at the start. -/
def zero : Cursor := ⟨0, 0⟩

/-- How many valid elements lie at or after the `head`; none where it lies behind them. -/
def available (c : Cursor) : Nat :=
  c.valid - c.head

/-- Moves the `head`; where `extend` holds, a head beyond `valid` makes the valid elements reach up to it. -/
def advance (c : Cursor) (head : Nat) (extend : Bool) : Cursor :=
  ⟨head, if extend && decide (c.valid < head) then head else c.valid⟩

/-- The rule that `head`, `valid` and `capacity` come in this order. The `head` is looked at first. -/
def check (c : Cursor) (capacity : Nat) : Except Fault Unit :=
  if c.valid < c.head then .error (.headPastValid c.head c.valid)
  else if capacity < c.valid then .error (.validPastCapacity c.valid capacity)
  else .ok ()

@[simp] theorem head_advance (c : Cursor) (head : Nat) (extend : Bool) : (c.advance head extend).head = head :=
  rfl

/-- Reading never changes `valid`. -/
@[simp] theorem valid_advance_false (c : Cursor) (head : Nat) : (c.advance head false).valid = c.valid := by
  simp [advance]

/-- Writing raises `valid` to the head and never lowers it. -/
@[simp] theorem valid_advance_true (c : Cursor) (head : Nat) : (c.advance head true).valid = max c.valid head := by
  simp only [advance, Bool.true_and, decide_eq_true_eq]
  split <;> omega

/-- The `check` passes exactly when the three come in order. -/
theorem check_eq_ok_iff {c : Cursor} {capacity : Nat} :
    c.check capacity = .ok () ↔ c.head ≤ c.valid ∧ c.valid ≤ capacity := by
  unfold check
  split
  · simp; omega
  · split
    · simp; omega
    · simp; omega

/-- The `Cursor` for inspection. -/
def outline (c : Cursor) : Outline :=
  .record "PositionTracker" [("head", .number c.head), ("valid_size", .number c.valid)] false

end Cursor

end MemStream
