import MemStream.Operation

/-!
# `MemStream.Proofs.Draft` — what a writer is meant to do

A draft is a sequence of elements, a position in it, and what stands of the last reservation. There is no tail, no
epoch, and no order in which things are cut off and grown: a write lays its elements over the content, a seek pads the
content, and a reservation keeps aside whatever would lie beyond the content until it is committed. That is all a
caller of a writer has to know; that the buffer does the same is proved of its runs.

## Contents
- **State.** `Draft` with its `Pending` reservation; `Draft.start`.
- **Requests.** `Edit`, and the `Operation` that each stands for.
- **Performing.** `Draft.perform`, `Draft.performAll`.
- **Answers.** `Answer.blurred` leaves the epochs of a stale reservation out, of which a draft knows nothing.
-/

namespace MemStream

/-! ## State -/

/-- What stands of the last reservation of a `Draft`. -/
inductive Pending (σ : Type) where
  | none
  /-- Something else has happened since. -/
  | stale
  /-- Room for `length` elements at the position; `aside` are those that lie beyond the content. -/
  | live (length : Nat) (aside : σ)

/-- A sequence that is being written: the machine that writers are compared with. -/
structure Draft (σ : Type) where
  content : σ
  position : Nat
  isOpen : Bool
  pending : Pending σ

/-! ## Requests -/

/-- A request to a writer: the operations that `Draft.perform` knows. -/
inductive Edit (σ α : Type) where
  | write (elements : σ)
  | writeOne (element : α)
  | seekTo (position : Nat) (direction : Directions)
  | seek (target : Target) (direction : Directions)
  | reserve (count : Nat) (filling : σ)
  | commit (count : Nat)
  | abandon
  | close (direction : Directions)
  | takeData

variable {σ α : Type}

/-- The `Operation` that the request stands for. -/
def Edit.operation : Edit σ α → Operation σ α
  | .write elements => .write elements
  | .writeOne element => .writeOne element
  | .seekTo position direction => .seekTo position direction
  | .seek target direction => .seek target direction
  | .reserve count filling => .reserve count filling
  | .commit count => .commit count
  | .abandon => .abandon
  | .close direction => .close direction
  | .takeData => .takeData

/-- The answer without the epochs of a `staleLease`, of which a `Draft` knows nothing. -/
def Answer.blurred : Answer σ α → Answer σ α
  | .settled (.error (.staleLease _ _)) => .settled (.error (.staleLease 0 0))
  | answer => answer

/-! ## Performing -/

/-- The reservation once something else has happened: a `live` one goes `stale`. -/
def Pending.outdated : Pending σ → Pending σ
  | .none => .none
  | .stale => .stale
  | .live _ _ => .stale

/-- Whether there is a reservation, `live` or `stale`. -/
def Pending.isSome : Pending σ → Bool
  | .none => false
  | .stale => true
  | .live _ _ => true

/-- The reservation once the store has refused to grow: elements kept `aside` are lost, and what needed them is
    `stale`. -/
def Pending.refused [Store σ α] : Pending σ → Pending σ
  | .none => .none
  | .stale => .stale
  | .live length aside => if 0 < Store.size aside then .stale else .live length aside

namespace Draft

variable [Store σ α]

/-- A draft at the end of its `content`. -/
def start (content : σ) : Draft σ :=
  ⟨content, Store.size content, true, .none⟩

/-- Whether the `content` may be `n` elements long. -/
def accepts (d : Draft σ) (n : Nat) : Bool :=
  decide (n ≤ Store.size d.content) || Store.accepts d.content n

/-- The `content`, padded with blanks up to `n` elements. -/
def padded (d : Draft σ) (n : Nat) : σ :=
  Store.resize d.content (max (Store.size d.content) n)

/-! ### What a request may lead to -/

/-- The draft after the store was asked in vain, with `Pending.refused`. -/
def refused (d : Draft σ) : Draft σ :=
  { d with pending := d.pending.refused }

/-- The `elements` laid over the `content`, and the `position` behind them. -/
def written (d : Draft σ) (elements : σ) : Draft σ :=
  { d with
    content := Store.overlay d.content d.position elements
    position := d.position + Store.size elements
    pending := d.pending.outdated }

/-- The `position` moved to `p`, and the `content` `padded` up to it. -/
def sought (d : Draft σ) (p : Nat) : Draft σ :=
  { d with content := d.padded p, position := p, pending := d.pending.outdated }

/-- What is in the room of `count` elements at the `position`. -/
def room (d : Draft σ) (count : Nat) : σ :=
  Store.slice (d.padded (d.position + count)) d.position count

/-- The `room` of a reservation, filled from the front: what lies in the `content` is overwritten, the rest kept
    `aside`. -/
def filled (d : Draft σ) (count : Nat) (filling : σ) : Draft σ :=
  { d with
    content := Store.overlay d.content d.position
      (Store.slice (Store.overlayFront (d.room count) filling) 0 (Store.size d.content - d.position))
    pending := .live count
      (Store.slice (Store.overlayFront (d.room count) filling) (Store.size d.content - d.position) count) }

/-- The `position` moved behind `count` elements of the `room`; of those kept `aside`, as many as needed join the
    `content`. -/
def committed (d : Draft σ) (count : Nat) (aside : σ) : Draft σ :=
  { d with
    content := Store.append d.content (Store.slice aside 0 (d.position + count - Store.size d.content))
    position := d.position + count
    pending := .none }

/-! ### Requests -/

/-- Lays `elements` over the `content`, all or none. -/
def write (d : Draft σ) (elements : σ) : Nat × Draft σ :=
  if d.isOpen ∧ 0 < Store.size elements ∧ d.position + Store.size elements < positionLimit then
    if d.accepts (d.position + Store.size elements) then
      (Store.size elements, d.written elements)
    else
      (0, d.refused)
  else
    (0, d)

/-- Moves the `position`, padding the `content` if need be. -/
def seekTo (d : Draft σ) (position : Nat) (direction : Directions) : Option Nat × Draft σ :=
  if direction.writes ∧ d.isOpen then
    if d.accepts position then
      (some position, d.sought position)
    else
      (none, d.refused)
  else
    (none, d)

/-- Moves the `position` to a `target`. -/
def seek (d : Draft σ) (target : Target) (direction : Directions) : Option Nat × Draft σ :=
  match target.position? ⟨d.position, Store.size d.content⟩ with
  | some position => d.seekTo position direction
  | none => (none, d)

/-- Reserves `room` for `count` elements and fills its front; the answer is what was in the `room`. -/
def reserve (d : Draft σ) (count : Nat) (filling : σ) : Option σ × Draft σ :=
  if d.isOpen ∧ d.position + count < positionLimit then
    if d.accepts (d.position + count) then
      (some (d.room count), d.filled count filling)
    else
      (none, d.refused)
  else
    (none, d)

/-- Commits `count` elements of the room that is `pending`. -/
def commit (d : Draft σ) (count : Nat) : Except Refusal Nat × Draft σ :=
  match d.pending with
  | .none => (.error .noPendingAllocation, d)
  | .stale => (.error (.staleLease 0 0), { d with pending := .none })
  | .live length aside =>
      if length < count then
        (.error (.leaseOverrun count length), d)
      else
        (.ok count, d.committed count aside)

/-- Closes the draft; the answer is whether it was open (`isOpen`). -/
def close (d : Draft σ) (direction : Directions) : Bool × Draft σ :=
  if direction.writes ∧ d.isOpen then
    (true, { d with isOpen := false, pending := .none })
  else
    (false, d)

/-- Performs an `Edit`. -/
def perform (d : Draft σ) : Edit σ α → Answer σ α × Draft σ
  | .write elements => (d.write elements).map .count id
  | .writeOne element =>
      (d.write (Store.single element)).map (fun count => .element (if count = 1 then some element else none)) id
  | .seekTo position direction => (d.seekTo position direction).map .position id
  | .seek target direction => (d.seek target direction).map .position id
  | .reserve count filling => (d.reserve count filling).map .region id
  | .commit count => (d.commit count).map .settled id
  | .abandon => (.flag d.pending.isSome, { d with pending := .none })
  | .close direction => (d.close direction).map .flag id
  | .takeData => (.elements d.content, { (d.close .both).2 with content := Store.empty, position := 0 })

/-- Performs a list of `Edit`s in turn. -/
def performAll (d : Draft σ) : List (Edit σ α) → List (Answer σ α) × Draft σ
  | [] => ([], d)
  | edit :: rest =>
      let first := d.perform edit
      let others := first.2.performAll rest
      (first.1 :: others.1, others.2)

end Draft

end MemStream
