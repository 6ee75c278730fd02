import MemStream.Proofs.Effect
import MemStream.Buffer.Close
import MemStream.Buffer.Direct
import MemStream.Buffer.Open

/-!
# `MemStream.Proofs.Lending` — what leases, closing and handing out come to

A lease is asked for without changing anything; what a settlement does hangs on the epoch first, on the length second,
and only then on where the ticket points. A ticket of the buffer itself never points anywhere bad, which is shown where
runs are looked at; here the ticket is whatever it is.

## Contents
- **Leases.** `Buffer.offer`, `run_acquire`.
- **Settlements.** `run_release_stale`, `run_release_overrun`, `run_release_settled`, and `run_release_fault` for a
  ticket that points beyond the buffer; `run_borrow` and `borrow_cases` for a lease that is settled in one go.
- **Closing.** `Buffer.closed` is what a close leaves; `run_close`, `run_takeData`, `run_retire`.
-/

namespace MemStream.Buffer

open StateAction

variable {σ α : Type} [Store σ α] {b : Buffer σ}

/-! ## Leases -/

/-- The `Lease` on everything from the head on. -/
def lease (b : Buffer σ) : Lease σ :=
  ⟨Store.slice b.data b.head b.available, ⟨b.epoch, b.head, b.available⟩⟩

/-- The answer of `acquire`: `lease`, or the reason why there is none. -/
def offer (b : Buffer σ) : Grant (Lease σ) :=
  if !b.mode.reads then .refused
  else if !b.canRead then .endOfStream
  else if b.available = 0 then .retry
  else .granted b.lease

/-- What is on `offer` is the `lease` of an open reader with elements `available`. -/
theorem offer_eq_granted {held : Lease σ} (h : b.offer = .granted held) :
    b.mode.reads = true ∧ b.canRead = true ∧ 0 < b.available ∧ held = b.lease := by
  unfold offer at h
  split at h
  · cases h
  · next hmode =>
      split at h
      · cases h
      · next hread =>
          split at h
          · cases h
          · next havail =>
              injection h with h
              exact ⟨by simpa using hmode, by simpa using hread, Nat.pos_of_ne_zero havail, h.symm⟩

/-- Where the reading side is closed, the `offer` depends on the mode alone. -/
theorem offer_of_not_canRead (hr : b.canRead = false) :
    b.offer = if b.mode.reads then .endOfStream else .refused := by
  unfold offer
  rw [hr]
  cases b.mode.reads <;> rfl

/-- To `acquire` gives the `offer` and changes nothing. -/
theorem run_acquire (h : b.Ordered) : acquire.run b = .ok ⟨b.offer, b, []⟩ := by
  unfold acquire offer
  rw [run_look_bind, run_ite, run_ite, run_ite]
  split
  · rfl
  split
  · rfl
  split
  · rfl
  · have hfit : b.head + b.available ≤ b.capacity := by
      rw [h.head_add_available]
      exact h.valid_le
    rw [run_bind_of_silent (run_piece hfit h.capacity_lt)]
    rfl

/-! ## Settlements -/

/-- The report of a settlement that comes too late, `Notice.staleLease`. -/
def staleEvents (b : Buffer σ) (t : Ticket) : List Event :=
  [⟨b.label, .staleLease (Refusal.staleLease t.epoch b.epoch).code⟩]

/-- The report of a settlement for more than was granted, `Notice.leaseOverrun`. -/
def overrunEvents (b : Buffer σ) (t : Ticket) (count : Nat) : List Event :=
  [⟨b.label, .leaseOverrun (Refusal.leaseOverrun count t.length).code⟩]

/-- A ticket of another `epoch` is refused by `release`, whatever the count. -/
theorem run_release_stale {t : Ticket} (hepoch : t.epoch ≠ b.epoch) (count : Nat) :
    (release t count).run b = .ok ⟨.error (.staleLease t.epoch b.epoch), b, b.staleEvents t⟩ := by
  unfold release
  rw [run_look_bind, run_ite, if_pos hepoch]
  rfl

/-- A count beyond the length of the ticket is refused by `release` at the right `epoch`. -/
theorem run_release_overrun {t : Ticket} (hepoch : t.epoch = b.epoch) {count : Nat} (hcount : t.length < count) :
    (release t count).run b = .ok ⟨.error (.leaseOverrun count t.length), b, b.overrunEvents t count⟩ := by
  unfold release
  rw [run_look_bind, run_ite, if_neg fun hne => hne hepoch, run_ite, if_pos hcount]
  rfl

/-- What is left of a `release` once epoch and length are as they should be. -/
theorem run_release_good {t : Ticket} (hepoch : t.epoch = b.epoch) {count : Nat} (hcount : count ≤ t.length)
    (hlimit : t.offset + count < positionLimit) :
    (release t count).run b =
      ((moveHead (t.offset + count)).run b).map fun step => ⟨.ok (t.offset + count), step.state, step.events⟩ := by
  unfold release
  rw [run_look_bind, run_ite, if_neg fun hne => hne hepoch, run_ite, if_neg (Nat.not_lt.mpr hcount),
    addPosition_of_lt hlimit, run_ensure_ok_bind, bind_pure_comp, run_map]

/-- A `release` goes through where the head may go, and leaves the buffer `moved`. -/
theorem run_release_settled (h : b.Ordered) {t : Ticket} (hepoch : t.epoch = b.epoch) {count : Nat}
    (hcount : count ≤ t.length) (hmove : t.offset + count ≤ if b.canWrite then b.capacity else b.valid) :
    (release t count).run b = .ok ⟨.ok (t.offset + count), b.moved (t.offset + count), []⟩ := by
  have hlimit : t.offset + count < positionLimit := by
    have hvalid := h.valid_le
    have hcap := h.capacity_lt
    split at hmove <;> omega
  rw [run_release_good hepoch hcount hlimit, run_moveHead_moved h hmove]
  rfl

/-- A head that cannot be where it is wanted is found out by the `Cursor.check` that follows the move. -/
theorem run_moveHead_fault {p : Nat} (hmove : ¬ p ≤ if b.canWrite then b.capacity else b.valid) :
    (moveHead p).run b =
      .error (if b.canWrite then .validPastCapacity (max b.valid p) b.capacity else .headPastValid p b.valid) := by
  unfold moveHead
  rw [run_alter_bind, run_nextEpoch_bind, run_look_bind]
  show StateAction.run (ensure ((b.cursor.advance p b.canWrite).check b.capacity)) _ = _
  unfold valid at *
  cases hw : b.canWrite with
  | true =>
      -- a writer raises the valid elements along with the head, so it is these that end up behind the store
      rw [hw, if_pos rfl] at hmove
      have hcheck : (b.cursor.advance p true).check b.capacity =
          .error (.validPastCapacity (max b.cursor.valid p) b.capacity) := by
        unfold Cursor.check
        rw [Cursor.valid_advance_true, Cursor.head_advance, if_neg (by omega), if_pos (by omega)]
      rw [hcheck, run_ensure_error, if_pos rfl]
  | false =>
      rw [hw, if_neg Bool.false_ne_true] at hmove
      have hcheck : (b.cursor.advance p false).check b.capacity = .error (.headPastValid p b.cursor.valid) := by
        unfold Cursor.check
        rw [Cursor.valid_advance_false, Cursor.head_advance, if_pos (by omega)]
      rw [hcheck, run_ensure_error, if_neg Bool.false_ne_true]

/-- A `release` faults only in `Cursor.check`, when the head cannot be where the ticket wants it. -/
theorem run_release_fault {t : Ticket} (hepoch : t.epoch = b.epoch) {count : Nat} (hcount : count ≤ t.length)
    (hlimit : t.offset + count < positionLimit)
    (hmove : ¬ t.offset + count ≤ if b.canWrite then b.capacity else b.valid) :
    (release t count).run b =
      .error (if b.canWrite then .validPastCapacity (max b.valid (t.offset + count)) b.capacity
        else .headPastValid (t.offset + count) b.valid) := by
  rw [run_release_good hepoch hcount hlimit, run_moveHead_fault hmove]
  rfl

/-- A `lease` that is held on to can be settled for anything up to its length, since nothing comes in between. -/
theorem run_borrow (h : b.Ordered) (settle : Option Nat) :
    (borrow settle).run b =
      match b.offer, settle with
      | .granted held, some count =>
          if count ≤ b.available then
            .ok ⟨.granted (held, some (.ok (b.head + count))), b.moved (b.head + count), []⟩
          else
            .ok ⟨.granted (held, some (.error (.leaseOverrun count b.available))), b,
              b.overrunEvents b.lease.ticket count⟩
      | .granted held, none => .ok ⟨.granted (held, none), b, []⟩
      | .retry, _ => .ok ⟨.retry, b, []⟩
      | .endOfStream, _ => .ok ⟨.endOfStream, b, []⟩
      | .refused, _ => .ok ⟨.refused, b, []⟩ := by
  unfold borrow
  rw [run_bind_of_silent (run_acquire h)]
  cases hoffer : b.offer with
  | granted held =>
      obtain ⟨-, -, -, rfl⟩ := offer_eq_granted hoffer
      cases settle with
      | none => rfl
      | some count =>
          simp only
          split
          · next hcount =>
              have hmove : b.head + count ≤ if b.canWrite then b.capacity else b.valid := by
                have havail := h.head_add_available
                have hvalid := h.valid_le
                split <;> omega
              rw [run_bind_of_silent (run_release_settled (t := b.lease.ticket) h rfl hcount hmove)]
              rfl
          · next hcount =>
              rw [run_bind_of_run (run_release_overrun (t := b.lease.ticket) rfl (Nat.not_le.mp hcount))]
              rfl
  | retry => rfl
  | endOfStream => rfl
  | refused => rfl

/-- Where a `lease` is on `offer`, it is settled and moves the head, or refused, or let go; otherwise there is none.
    Only a settlement changes anything. -/
theorem borrow_cases (h : b.Ordered) {settle : Option Nat}
    {step : Step (Buffer σ) Event (Grant (Lease σ × Option (Except Refusal Nat)))}
    (hrun : (borrow settle).run b = .ok step) :
    (b.offer = .granted b.lease ∧
      ((∃ count, count ≤ b.available ∧ step.value = .granted (b.lease, some (.ok (b.head + count))) ∧
          step.state = b.moved (b.head + count)) ∨
        (∃ count, b.available < count ∧
          step.value = .granted (b.lease, some (.error (.leaseOverrun count b.available))) ∧ step.state = b) ∨
        (step.value = .granted (b.lease, none) ∧ step.state = b))) ∨
      ((∀ pair, step.value ≠ .granted pair) ∧ step.state = b) := by
  rw [run_borrow h] at hrun
  cases hoffer : b.offer with
  | granted held =>
      obtain ⟨-, -, -, rfl⟩ := offer_eq_granted hoffer
      rw [hoffer] at hrun
      refine .inl ⟨rfl, ?_⟩
      cases settle with
      | none =>
          cases hrun
          exact .inr (.inr ⟨rfl, rfl⟩)
      | some count =>
          simp only at hrun
          split at hrun
          · next hcount =>
              cases hrun
              exact .inl ⟨count, hcount, rfl, rfl⟩
          · next hcount =>
              cases hrun
              exact .inr (.inl ⟨count, Nat.not_le.mp hcount, rfl, rfl⟩)
  | retry =>
      rw [hoffer] at hrun
      cases hrun
      exact .inr ⟨nofun, rfl⟩
  | endOfStream =>
      rw [hoffer] at hrun
      cases hrun
      exact .inr ⟨nofun, rfl⟩
  | refused =>
      rw [hoffer] at hrun
      cases hrun
      exact .inr ⟨nofun, rfl⟩

/-! ## Closing -/

/-- What `close` leaves. -/
def closed (b : Buffer σ) (direction : Directions) : Buffer σ :=
  if b.access.closes direction then
    trimmed { b with access := b.access.close direction, changes := b.changes + 1, reservation := none }
  else b

/-- Where `closes` says that a side goes, the reservation and the tail go with it. -/
theorem closed_of_closes {direction : Directions} (hc : b.access.closes direction = true) :
    b.closed direction =
      trimmed { b with access := b.access.close direction, changes := b.changes + 1, reservation := none } :=
  if_pos hc

/-- Where `closes` has nothing to close, nothing changes. -/
theorem closed_eq_self {direction : Directions} (hc : b.access.closes direction = false) : b.closed direction = b :=
  if_neg (hc ▸ Bool.false_ne_true)

@[simp] theorem access_closed (b : Buffer σ) (direction : Directions) :
    (b.closed direction).access = b.access.close direction := by
  cases hc : b.access.closes direction with
  | true => rw [closed_of_closes hc, access_trimmed]
  | false => rw [closed_eq_self hc, Access.close_eq_self_of_not_closes hc]

/-- To close cuts the tail off and leaves the `content`. -/
theorem content_closed [LawfulStore σ] (b : Buffer σ) (direction : Directions) :
    (b.closed direction).content = b.content := by
  unfold closed
  split
  · exact content_trimmed _
  · rfl

/-- The reports of `close`. -/
def closeEvents (b : Buffer σ) (direction : Directions) : List Event :=
  if b.access.closes direction then
    b.trimEvents ++ [⟨b.label, .closed direction (b.closed direction).isOpen⟩]
  else []

/-- To `close` tells whether anything was open, and never faults. -/
theorem run_close (b : Buffer σ) (direction : Directions) :
    (close direction).run b =
      .ok ⟨b.access.closes direction, b.closed direction, b.closeEvents direction⟩ := by
  unfold close closeEvents closed
  rw [run_look_bind]
  show StateAction.run (ite _ _ _) b = _
  rw [run_ite]
  cases hc : b.access.closes direction with
  | true =>
      simp only [if_true]
      rw [run_alter_bind, run_nextEpoch_bind, run_alter_bind,
        run_dropTail_bind, run_look_bind, run_report_bind, run_pure]
      simp only [Except.map, Step.after_mk, List.append_nil]
      rw [label_trimmed]
      rfl
  | false => rfl

/-- What `takeData` leaves. -/
def emptied (b : Buffer σ) : Buffer σ :=
  { (b.closed .both).trimmed with cursor := .zero, data := Store.empty }

/-- The elements that `takeData` hands out are those in the store once it is `closed` and `trimmed`. -/
theorem run_takeData (b : Buffer σ) :
    takeData.run b = .ok ⟨(b.closed .both).trimmed.data, b.emptied,
      b.closeEvents .both ++ (b.closed .both).trimEvents⟩ := by
  unfold takeData
  rw [run_bind_of_run (run_close b .both), run_dropTail_bind, run_look_bind, run_alter_bind, run_pure]
  simp only [Except.map, Step.after_mk, List.append_nil]
  rfl

/-- To `retire` is to close for reading, then for writing, and to report `Notice.released` last. -/
theorem run_retire (b : Buffer σ) :
    retire.run b = .ok ⟨(), (b.closed .reading).closed .writing,
      b.closeEvents .reading ++ ((b.closed .reading).closeEvents .writing ++
        [⟨((b.closed .reading).closed .writing).label, .released⟩])⟩ := by
  unfold retire
  rw [run_bind_of_run (run_close b .reading), run_bind_of_run (run_close (b.closed .reading) .writing), run_report]
  simp only [Except.map, Step.after_mk]

end MemStream.Buffer
