import MemStream.Operation

/-!
# `MemStream.Proofs.Scroll` — what a reader is meant to do

A scroll is a fixed sequence of elements and a position in it. Reading gives what lies ahead of the position, going back
gives what lies before it, and nothing can be written. A lease is everything that lies ahead, and a scroll keeps the
tickets that can still be settled: all those lent since the position was last set. That is all a caller of a reader has
to know; that the buffer does the same is proved of its runs.

A scroll has no epochs. Where one is needed, on a ticket or in a refusal, it puts the stamp that it is given and never
looks at it.

## Contents
- **State.** `Scroll`, `Scroll.start`.
- **Requests.** What lies ahead (`Scroll.upcoming`), what is taken of it (`Scroll.take`), seeks, leases and closing.
- **Performing.** `Scroll.perform`.
- **What comes of it.** A settlement moves the position on (`Scroll.release_eq_ok`); going back undoes a read
  (`Scroll.stepBack_take`).
-/

namespace MemStream

/-! ## State -/

/-- A sequence that is being read: the machine that readers are compared with. -/
structure Scroll (σ : Type) where
  content : σ
  position : Nat
  isOpen : Bool
  /-- The tickets lent since the position was last set. -/
  lent : List Ticket

namespace Scroll

variable {σ α : Type} [Store σ α]

/-- A scroll at the start of its `content`. -/
def start (content : σ) : Scroll σ :=
  ⟨content, 0, true, []⟩

/-! ## Requests -/

/-- The number of elements ahead of the `position`. -/
def rest (s : Scroll σ) : Nat :=
  Store.size s.content - s.position

/-- At most `count` of the elements ahead. -/
def upcoming (s : Scroll σ) (count : Nat) : σ :=
  if s.isOpen then Store.slice s.content s.position (min count s.rest) else Store.empty

/-- The scroll at another `position`; what was `lent` before cannot be settled any more. -/
def setTo (s : Scroll σ) (position : Nat) : Scroll σ :=
  { s with position := position, lent := [] }

/-- The `position` moved behind `count` elements; passing none by is no move. -/
def passed (s : Scroll σ) (count : Nat) : Scroll σ :=
  if count = 0 then s else s.setTo (s.position + count)

/-- Takes at most `count` of the elements ahead: they are `upcoming`, and then `passed`. -/
def take (s : Scroll σ) (count : Nat) : σ × Scroll σ :=
  (s.upcoming count, s.passed (Store.size (s.upcoming count)))

/-- Goes back by one element, which then lies ahead again: `setTo` the place before. -/
def stepBack (s : Scroll σ) : Option α × Scroll σ :=
  if s.isOpen ∧ 0 < s.position then
    (Store.head? ((s.setTo (s.position - 1)).upcoming 1), s.setTo (s.position - 1))
  else
    (none, s)

/-- Sets the `position` to an integer that lies in the content, if the direction includes reading. -/
def seek (s : Scroll σ) (place : Int) (direction : Directions) : Option Nat × Scroll σ :=
  if direction.reads ∧ s.isOpen ∧ 0 ≤ place ∧ place ≤ Store.size s.content then
    (some place.toNat, s.setTo place.toNat)
  else
    (none, s)

/-- The integer that a `target` names. -/
def placeOf (s : Scroll σ) (target : Target) : Int :=
  target.resolve ⟨s.position, Store.size s.content⟩

/-- The `Lease` on everything ahead, stamped with an epoch. -/
def lease (s : Scroll σ) (stamp : UInt64) : Lease σ :=
  ⟨Store.slice s.content s.position s.rest, ⟨stamp, s.position, s.rest⟩⟩

/-- The scroll once it has `lent` everything ahead. -/
def lending (s : Scroll σ) (stamp : UInt64) : Scroll σ :=
  { s with lent := (s.lease stamp).ticket :: s.lent }

/-- Lends everything ahead: the `lease`, and the scroll `lending` it. -/
def acquire (s : Scroll σ) (stamp : UInt64) : Grant (Lease σ) × Scroll σ :=
  if s.isOpen then
    if s.rest = 0 then
      (.retry, s)
    else
      (.granted (s.lease stamp), s.lending stamp)
  else
    (.endOfStream, s)

/-- Settles a `ticket` for `count` elements: the `position` moves behind them, if the ticket is one of those `lent`. -/
def release (s : Scroll σ) (stamp : UInt64) (ticket : Ticket) (count : Nat) : Except Refusal Nat × Scroll σ :=
  if ticket ∈ s.lent then
    if count ≤ ticket.length then
      (.ok (s.position + count), s.setTo (s.position + count))
    else
      (.error (.leaseOverrun count ticket.length), s)
  else
    (.error (.staleLease ticket.epoch stamp), s)

/-- Does `acquire` and settles in one go, or lets the lease go unsettled. -/
def borrow (s : Scroll σ) (stamp : UInt64) (settle : Option Nat) :
    Grant (Lease σ × Option (Except Refusal Nat)) × Scroll σ :=
  match s.acquire stamp, settle with
  | (.granted held, lending), some count =>
      (lending.release stamp held.ticket count).map (fun result => .granted (held, some result)) id
  | (.granted held, lending), none => (.granted (held, none), lending)
  | (.retry, _), _ => (.retry, s)
  | (.endOfStream, _), _ => (.endOfStream, s)
  | (.refused, _), _ => (.refused, s)

/-- The scroll once it is closed: nothing that was `lent` can be settled any more. -/
def closed (s : Scroll σ) : Scroll σ :=
  { s with isOpen := false, lent := [] }

/-- Closes the scroll; the answer is whether it was open (`isOpen`). -/
def close (s : Scroll σ) (direction : Directions) : Bool × Scroll σ :=
  if direction.reads ∧ s.isOpen then
    (true, s.closed)
  else
    (false, s)

/-- What `elements` that were read come to as text by `codec`. -/
def readAs (codec : Text.Codec σ) (elements : σ) : Except TransferError (Nat × String) :=
  match codec.decode elements with
  | .ok text => .ok (Store.size elements, text)
  | .error _ => .error .notText

/-! ## Performing -/

/-- Performs an `Operation`. Whatever would write is refused. -/
def perform (s : Scroll σ) (stamp : UInt64) : Operation σ α → Answer σ α × Scroll σ
  | .read count true => (s.take count).map .taken id
  | .read count false => (.taken (s.upcoming count), s)
  | .peek count => (.taken (s.upcoming count), s)
  | .readOne true => (s.take 1).map (fun elements => .element (Store.head? elements)) id
  | .readOne false => (.element (Store.head? (s.upcoming 1)), s)
  | .skipOne => (.element (Store.head? ((s.take 1).2.upcoming 1)), (s.take 1).2)
  | .stepBack => s.stepBack.map .element id
  | .seekTo position direction => (s.seek position direction).map .position id
  | .seek target direction => (s.seek (s.placeOf target) direction).map .position id
  | .seekAny target =>
      (s.seek (s.placeOf target) .reading).map
        (fun reached => .moved (match reached with
          | some position => .ok position
          | none => .error (.seekRejected target.outline.oneLine)))
        id
  | .acquire => (s.acquire stamp).map .lease id
  | .borrow settle => (s.borrow stamp settle).map .borrowed id
  | .release ticket count => (s.release stamp ticket count).map .settled id
  | .close direction => (s.close direction).map .flag id
  | .takeData => (.elements s.content, { s.closed with content := Store.empty, position := 0 })
  | .dataCopy => (.elements s.content, s)
  | .readToEnd => (s.take s.rest).map .elements id
  | .readExact count =>
      (s.take count).map
        (fun elements => .gathered
          (if Store.size elements = count then .ok elements else .error .unexpectedEnd))
        id
  | .readText codec => (s.take s.rest).map (fun elements => .text (readAs codec elements)) id
  | .sync => (.flag true, s)
  | .stagingSize _ => (.count 0, s)
  | .hintStaging _ _ => (.done, s)
  | .write _ => (.count 0, s)
  | .writeOne _ => (.element none, s)
  | .writeAll elements => (.stored (if Store.size elements = 0 then .ok () else .error .writeZero), s)
  | .reserve _ _ => (.region none, s)
  | .reserveWith _ _ _ => (.filled ⟨none, .ok 0⟩, s)
  | .commit _ => (.settled (.error .noPendingAllocation), s)
  | .abandon => (.flag false, s)

/-! ## What comes of it -/

/-- A ticket that is settled by `release` was `lent`, and the `position` moves on by what is settled. -/
theorem release_eq_ok {s : Scroll σ} {stamp : UInt64} {t : Ticket} {count reached : Nat}
    (h : (s.release stamp t count).1 = .ok reached) :
    t ∈ s.lent ∧ count ≤ t.length ∧ (s.release stamp t count).2.position = s.position + count := by
  unfold Scroll.release at h ⊢
  split
  · next hmem =>
      rw [if_pos hmem] at h
      split
      · next hcount => exact ⟨hmem, hcount, rfl⟩
      · next hcount =>
          rw [if_neg hcount] at h
          cases h
  · next hmem =>
      rw [if_neg hmem] at h
      cases h

variable [LawfulStore σ]

/-- What `take` has just taken comes again with `stepBack`. -/
theorem stepBack_take {s : Scroll σ} {x : α} (h : Store.head? (s.upcoming 1) = some x) :
    (s.take 1).2.stepBack.1 = some x ∧ (s.take 1).2.stepBack.2.position = s.position := by
  have hpos : 0 < Store.size (s.upcoming 1) := by
    have hsome := Store.isSome_head? (s.upcoming 1)
    rw [h] at hsome
    exact of_decide_eq_true hsome.symm
  cases hopen : s.isOpen with
  | false =>
      unfold Scroll.upcoming at hpos
      rw [hopen, if_neg Bool.false_ne_true, Store.size_empty] at hpos
      exact absurd hpos (Nat.lt_irrefl 0)
  | true =>
      have hone : Store.size (s.upcoming 1) = 1 := by
        have hle : Store.size (s.upcoming 1) ≤ 1 := by
          unfold Scroll.upcoming
          rw [hopen, if_pos rfl, Store.size_slice]
          omega
        omega
      have htaken : (s.take 1).2 = s.setTo (s.position + 1) := by
        unfold Scroll.take Scroll.passed
        rw [hone, if_neg Nat.one_ne_zero]
      rw [htaken]
      unfold Scroll.stepBack
      rw [if_pos ⟨hopen, Nat.succ_pos _⟩]
      exact ⟨h, rfl⟩

end Scroll

end MemStream
