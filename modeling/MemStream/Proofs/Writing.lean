import MemStream.Proofs.Effect
import MemStream.Buffer.Reserve
import MemStream.Buffer.Transfer

/-!
# `MemStream.Proofs.Writing` — what writing and reserving come to

For every operation of a writer, one lemma says what its run gives and leaves. A writer that needs room up to `p` first
drops the tail; where the store then refuses, that is all that happens.

## Contents
- **Writes.** `run_write`, `run_writeOne`; `run_writeOn` and `run_writeAll` for writes in a row.
- **Reservations.** `run_reserve`, `run_reserveAndFill`; the room of a reservation lies in the store
  (`head_add_le_capacity_filled`).
- **Commits.** `run_abandon`, `run_commit_none`, `run_commit_stale`, `run_commit_overrun`, `run_commit_moved`,
  `run_commit_live` for a reservation whose room is there, and `run_commit_filled` for one that was just granted.
- **All in one.** `run_reserveWith`.
- **Closed sides.** Where the writing side is closed, nothing is written or granted (`write_of_not_canWrite`,
  `grants_eq_false`).
-/

namespace MemStream.Buffer

open StateAction

variable {σ α : Type} [Store σ α] [LawfulStore σ] {b : Buffer σ}

/-! ## Writes -/

/-- What a `write` that goes through leaves. -/
def written (b : Buffer σ) (elements : σ) : Buffer σ :=
  ((b.extended (b.head + Store.size elements)).placed b.head elements).moved (b.head + Store.size elements)

section Written

omit [LawfulStore σ]

variable (b : Buffer σ) (elements : σ)

theorem head_written : (b.written elements).head = b.head + Store.size elements := rfl
theorem canRead_written : (b.written elements).canRead = b.canRead := canRead_extended b _
theorem canWrite_written : (b.written elements).canWrite = b.canWrite := canWrite_extended b _

variable {b} in
/-- Elements that are `written` are valid, and none that was valid before ceases to be. -/
theorem valid_written (hw : b.canWrite = true) :
    (b.written elements).valid = max b.valid (b.head + Store.size elements) := by
  unfold written
  rw [valid_moved, canWrite_placed, canWrite_extended, if_pos hw, valid_placed, valid_extended]

end Written

/-- Elements at the head fit into the room for which the store was `extended`. -/
theorem head_add_le_capacity_extended (h : b.Ordered) {n p : Nat} (hp : b.head + n ≤ p) :
    b.head + n ≤ (b.extended p).capacity := by
  rw [capacity_extended p h]
  exact Nat.le_trans hp (Nat.le_max_right _ _)

/-- A `write` that goes through leaves the buffer `Ordered`. -/
theorem Ordered.written (h : b.Ordered) (hw : b.canWrite = true) {elements : σ}
    (hlimit : b.head + Store.size elements < positionLimit) : (b.written elements).Ordered := by
  have hfit := head_add_le_capacity_extended (n := Store.size elements) h (Nat.le_refl _)
  apply ((h.extended hlimit).placed hfit).moved
  rw [canWrite_placed, canWrite_extended, if_pos hw, capacity_placed hfit, capacity_extended _ h]
  omega

/-- A `write` lays its elements over the valid ones (`Store.overlay`), and beyond them where it reaches further. -/
theorem data_written (h : b.Ordered) (elements : σ) :
    (b.written elements).data = Store.overlay b.trimmed.data b.head elements := by
  show Store.overlay (b.extended (b.head + Store.size elements)).data b.head elements = _
  rw [data_extended _ h]
  exact Store.overlay_resize_max b.trimmed.data elements (head_le_size_trimmed h)

/-- A `write` is all or nothing: it leaves the buffer `written`, or answers zero and leaves it as it was or, where the
    store was asked and refused, `trimmed`. -/
theorem run_write (h : b.Ordered) (elements : σ) :
    (write elements).run b =
      if b.canWrite ∧ 0 < Store.size elements then
        if b.head + Store.size elements < positionLimit then
          if b.trimmed.admits (b.head + Store.size elements) then
            .ok ⟨Store.size elements, b.written elements,
              b.trimEvents ++ b.trimmed.growEvents (b.head + Store.size elements)⟩
          else
            .ok ⟨0, b.trimmed, b.trimEvents ++ b.trimmed.growEvents (b.head + Store.size elements)⟩
        else
          .ok ⟨0, b, [⟨b.label, .writeOverflow b.head (Store.size elements)⟩]⟩
      else
        .ok ⟨0, b, []⟩ := by
  unfold write
  rw [run_look_bind]
  show StateAction.run (ite _ _ _) b = _
  rw [run_ite, run_ite]
  split
  · next hgo =>
      split
      · next hlimit =>
          rw [run_dropTail_bind, run_growTo_bind, run_ite]
          split
          · have hfit := head_add_le_capacity_extended (n := Store.size elements) h (Nat.le_refl _)
            have hordered := (h.extended hlimit).placed hfit
            have hmove : b.head + Store.size elements ≤
                if ((b.extended (b.head + Store.size elements)).placed b.head elements).canWrite then
                  ((b.extended (b.head + Store.size elements)).placed b.head elements).capacity
                else ((b.extended (b.head + Store.size elements)).placed b.head elements).valid := by
              rw [canWrite_placed, canWrite_extended, if_pos hgo.1, capacity_placed hfit]
              exact hfit
            rw [grown_trimmed, run_bind_of_silent (run_place_placed (h.extended hlimit) hfit),
              run_bind_of_silent (run_moveHead_moved hordered hmove), run_pure]
            simp [Except.map, written]
          · simp [Except.map]
      · rfl
  · rfl

omit [LawfulStore σ] in
/-- To write one element is to `write` a run of one. -/
theorem run_writeOne (a : α) (b : Buffer σ) :
    (writeOne (σ := σ) a).run b =
      ((write (Store.single a : σ)).run b).map fun step =>
        ⟨if step.value = 1 then some a else none, step.state, step.events⟩ := by
  unfold writeOne
  rw [bind_pure_comp, run_map]

/-- Of the elements of a `write`, all are put or none. -/
theorem write_all_or_none (h : b.Ordered) (elements : σ) :
    ∃ step, (write elements).run b = .ok step ∧ (step.value = 0 ∨ step.value = Store.size elements) := by
  rw [run_write h]
  split
  · split
    · split
      · exact ⟨_, rfl, .inr rfl⟩
      · exact ⟨_, rfl, .inl rfl⟩
    · exact ⟨_, rfl, .inl rfl⟩
  · exact ⟨_, rfl, .inl rfl⟩

/-- Since a `write` is all or nothing, the first of a row of writes is the only one that matters, however many `rounds`
    there are to be. -/
theorem run_writeOn (h : b.Ordered) {elements : σ} {rounds : Nat} (hrounds : Store.size elements < rounds) :
    (writeOn rounds elements).run b =
      if Store.size elements = 0 then .ok ⟨.ok (), b, []⟩
      else ((write elements).run b).map fun step =>
        ⟨if step.value = 0 then .error .writeZero else .ok (), step.state, step.events⟩ := by
  obtain ⟨rounds, rfl⟩ := Nat.exists_eq_succ_of_ne_zero (Nat.ne_of_gt (Nat.zero_lt_of_lt hrounds))
  unfold writeOn
  rw [run_ite]
  split
  · rfl
  · next hne =>
      obtain ⟨step, hrun, hvalue⟩ := write_all_or_none h elements
      rw [run_bind_of_ok hrun, run_ite, hrun]
      rcases hvalue with hzero | hfull
      · rw [if_pos hzero]
        simp [Except.map, hzero]
      · -- all elements are written, so the next round has nothing left and stops
        have hstop : writeOn rounds (Store.slice elements step.value (Store.size elements - step.value)) =
            pure (.ok ()) := by
          obtain ⟨rounds, rfl⟩ := Nat.exists_eq_succ_of_ne_zero (n := rounds) (by omega)
          unfold writeOn
          rw [if_pos]
          rw [Store.size_slice]
          omega
        rw [if_neg (by omega), hstop]
        have hpos : step.value ≠ 0 := by omega
        simp [Except.map, hpos]

/-- To write all is to `write` once, unless there is nothing to write, and to fail with `TransferError.writeZero` where
    nothing is put. -/
theorem run_writeAll (h : b.Ordered) (elements : σ) :
    (writeAll elements).run b =
      if Store.size elements = 0 then .ok ⟨.ok (), b, []⟩
      else ((write elements).run b).map fun step =>
        ⟨if step.value = 0 then .error .writeZero else .ok (), step.state, step.events⟩ :=
  run_writeOn h (Nat.lt_succ_self _)

/-! ## Reservations -/

/-- The buffer without its `reservation`. -/
def unreserved (b : Buffer σ) : Buffer σ :=
  { b with reservation := none }

/-- What is in the room of `n` elements at the head, once the store is `extended` to hold it. -/
def room (b : Buffer σ) (n : Nat) : σ :=
  Store.slice (b.extended (b.head + n)).data b.head n

/-- What `reserve` leaves where room is granted. -/
def reserved (b : Buffer σ) (n : Nat) : Buffer σ :=
  { b.extended (b.head + n) with
    changes := b.trimmed.changes + 1
    reservation := some ⟨UInt64.ofNat (b.trimmed.changes + 1), n⟩ }

/-- What `reserveAndFill` leaves where room is granted. -/
def filled (b : Buffer σ) (n : Nat) (filling : σ) : Buffer σ :=
  (b.reserved n).placed b.head (Store.overlayFront (b.room n) filling)

/-- What `abandon` leaves: neither a reservation nor a tail. -/
def abandoned (b : Buffer σ) : Buffer σ :=
  b.unreserved.trimmed

/-- What a `commit` that goes through leaves. -/
def committed (b : Buffer σ) (count : Nat) : Buffer σ :=
  (b.unreserved.moved (b.head + count)).trimmed

/-- The reports of making `room` for `n` elements at the head. -/
def roomEvents (b : Buffer σ) (n : Nat) : List Event :=
  b.trimEvents ++ b.trimmed.growEvents (b.head + n)

section Fields

omit [LawfulStore σ]

variable (b : Buffer σ) (n : Nat) (filling : σ)

theorem head_reserved : (b.reserved n).head = b.head := head_extended b _
theorem head_filled : (b.filled n filling).head = b.head := head_extended b _
theorem valid_filled : (b.filled n filling).valid = b.valid := valid_extended b _
theorem access_filled : (b.filled n filling).access = b.access := access_extended b _
theorem canWrite_filled : (b.filled n filling).canWrite = b.canWrite := canWrite_extended b _

end Fields

theorem size_room (h : b.Ordered) (n : Nat) : Store.size (b.room n) = n := by
  have hfit := head_add_le_capacity_extended (n := n) h (Nat.le_refl _)
  unfold capacity at hfit
  unfold room
  rw [Store.size_slice]
  omega

/-- Whatever a `room` is filled with, it stays as long as it was. -/
theorem size_overlayFront_room (h : b.Ordered) (n : Nat) (filling : σ) :
    Store.size (Store.overlayFront (b.room n) filling) = n := by
  rw [Store.size_overlayFront, size_room h]

/-- Whether `reserve` gives room for `n` elements at the head. -/
def grants (b : Buffer σ) (n : Nat) : Bool :=
  b.canWrite && decide (b.head + n < positionLimit) && b.trimmed.admits (b.head + n)

omit [LawfulStore σ] in
/-- Room is given by an open writer, up to a position, where the store `admits` it without its tail. -/
theorem grants_iff {n : Nat} :
    b.grants n = true ↔ b.canWrite = true ∧ b.head + n < positionLimit ∧ b.trimmed.admits (b.head + n) = true := by
  unfold grants
  simp only [Bool.and_eq_true, decide_eq_true_eq, and_assoc]

/-- What is left where room for `n` elements is not given: the buffer is `trimmed` if it came to asking the store. -/
def denied (b : Buffer σ) (n : Nat) : Buffer σ :=
  if b.canWrite ∧ b.head + n < positionLimit then b.trimmed else b

/-- What is reported where room for `n` elements is `denied`. -/
def denyEvents (b : Buffer σ) (n : Nat) : List Event :=
  if b.canWrite ∧ b.head + n < positionLimit then b.roomEvents n else []

/-- A reservation that ends at a position leaves the buffer `Ordered`. -/
theorem Ordered.reserved (h : b.Ordered) {n : Nat} (hlimit : b.head + n < positionLimit) :
    (b.reserved n).Ordered :=
  ⟨(h.extended hlimit).head_le, (h.extended hlimit).valid_le, (h.extended hlimit).capacity_lt⟩

/-- The store ends with the `room`, or with the valid elements where these reach further. -/
theorem capacity_reserved (h : b.Ordered) (n : Nat) : (b.reserved n).capacity = max b.valid (b.head + n) :=
  capacity_extended _ h

/-- A filling ends where the `room` ends, and so inside the store. -/
theorem head_add_le_capacity_reserved (h : b.Ordered) (n : Nat) (filling : σ) :
    b.head + Store.size (Store.overlayFront (b.room n) filling) ≤ (b.reserved n).capacity := by
  rw [size_overlayFront_room h]
  exact head_add_le_capacity_extended h (Nat.le_refl _)

/-- To `reserve` gives the `room` where the buffer `grants` it. -/
theorem run_reserve (h : b.Ordered) (n : Nat) :
    (reserve n).run b =
      if b.grants n then .ok ⟨some (b.room n), b.reserved n, b.roomEvents n⟩
      else .ok ⟨none, b.denied n, b.denyEvents n⟩ := by
  unfold reserve grants denied denyEvents roomEvents
  rw [run_look_bind, run_ite]
  by_cases hgo : b.canWrite = true ∧ b.head + n < positionLimit
  · rw [if_pos hgo, run_dropTail_bind, run_growTo_bind, run_ite, hgo.1, decide_eq_true hgo.2]
    simp only [Bool.true_and]
    split
    · -- the epoch moves on before the reservation records it
      have hfit : b.head + n ≤ (b.reserved n).capacity := head_add_le_capacity_extended h (Nat.le_refl _)
      have hpiece := run_piece hfit (h.reserved hgo.2).capacity_lt
      rw [grown_trimmed, run_nextEpoch_bind, run_alter_bind]
      have hstate : ({ b.extended (b.head + n) with
          changes := (b.extended (b.head + n)).changes + 1
          reservation := some ⟨epoch { b.extended (b.head + n) with
            changes := (b.extended (b.head + n)).changes + 1 }, n⟩ } : Buffer σ) = b.reserved n := by
        unfold Buffer.reserved epoch
        rw [changes_extended]
      rw [hstate, run_bind_of_silent hpiece]
      simp [Except.map]
      rfl
    · simp [Except.map, hgo]
  · rw [if_neg hgo]
    have hno : (b.canWrite && decide (b.head + n < positionLimit)) = false := by
      simpa using fun hw hl => hgo ⟨hw, hl⟩
    rw [hno]
    simp [hgo]

theorem Ordered.filled (h : b.Ordered) {n : Nat} (hlimit : b.head + n < positionLimit) (filling : σ) :
    (b.filled n filling).Ordered :=
  (h.reserved hlimit).placed (head_add_le_capacity_reserved h n filling)

theorem capacity_filled (h : b.Ordered) (n : Nat) (filling : σ) :
    (b.filled n filling).capacity = max b.valid (b.head + n) := by
  unfold Buffer.filled
  rw [capacity_placed (head_add_le_capacity_reserved h n filling), capacity_reserved h]

/-- A filled reservation is laid over the valid elements (`Store.overlay`), and beyond them where it reaches further. -/
theorem data_filled (h : b.Ordered) (n : Nat) (filling : σ) :
    (b.filled n filling).data =
      Store.overlay b.trimmed.data b.head (Store.overlayFront (b.room n) filling) := by
  have hsize := size_overlayFront_room h n filling
  have hpad := Store.overlay_resize_max b.trimmed.data (Store.overlayFront (b.room n) filling) (head_le_size_trimmed h)
  rw [hsize] at hpad
  show Store.overlay (b.extended (b.head + n)).data b.head (Store.overlayFront (b.room n) filling) = _
  rw [data_extended _ h, hpad]

/-- The `room` of a new reservation lies in the store. -/
theorem head_add_le_capacity_filled (h : b.Ordered) (n : Nat) (filling : σ) :
    (b.filled n filling).head + n ≤ (b.filled n filling).capacity := by
  rw [capacity_filled h, head_filled]
  exact Nat.le_max_right _ _

/-- To `fill` the room of a buffer that is `reserved` leaves it `filled`. -/
theorem run_fill (h : b.Ordered) {n : Nat} (hlimit : b.head + n < positionLimit) (filling : σ) :
    (fill (b.room n) filling).run (b.reserved n) = .ok ⟨(), b.filled n filling, []⟩ := by
  unfold fill
  rw [run_look_bind, head_reserved, run_place_placed (h.reserved hlimit) (head_add_le_capacity_reserved h n filling)]
  rfl

/-- The answer of `reserveAndFill` is the `room` as it was before the filling. -/
theorem run_reserveAndFill (h : b.Ordered) (n : Nat) (filling : σ) :
    (reserveAndFill n filling).run b =
      if b.grants n then .ok ⟨some (b.room n), b.filled n filling, b.roomEvents n⟩
      else .ok ⟨none, b.denied n, b.denyEvents n⟩ := by
  have hrun := run_reserve h n
  unfold reserveAndFill
  cases hg : b.grants n with
  | true =>
      have hlimit : b.head + n < positionLimit := (grants_iff.mp hg).2.1
      rw [hg, if_pos rfl] at hrun
      rw [if_pos rfl, run_bind_of_run hrun]
      show Except.map _ (StateAction.run (fill (b.room n) filling >>= fun _ => pure (some (b.room n))) _) = _
      rw [run_bind_of_silent (run_fill h hlimit filling)]
      simp [Except.map]
  | false =>
      rw [hg, if_neg Bool.false_ne_true] at hrun
      rw [if_neg Bool.false_ne_true, run_bind_of_run hrun]
      simp [Except.map]

/-! ## Commits -/

/-- The report of the tail that goes with a `commit`. -/
def commitEvents (b : Buffer σ) (count : Nat) : List Event :=
  (b.unreserved.moved (b.head + count)).trimEvents

omit [LawfulStore σ] in
/-- To `abandon` never fails, and tells whether there was a reservation. -/
theorem run_abandon (b : Buffer σ) :
    abandon.run b = .ok ⟨b.reservation.isSome, b.abandoned, b.unreserved.trimEvents⟩ := by
  unfold abandon
  rw [run_look_bind, run_alter_bind, run_dropTail_bind]
  simp only [run_pure, Except.map, Step.after_mk, List.append_nil]
  rfl

omit [LawfulStore σ] in
/-- Without a reservation, `commit` is refused with `Refusal.noPendingAllocation` and changes nothing. -/
theorem run_commit_none (hres : b.reservation = none) (count : Nat) :
    (commit count).run b = .ok ⟨.error .noPendingAllocation, b, []⟩ := by
  unfold commit
  rw [run_look_bind, hres]
  rfl

omit [LawfulStore σ] in
/-- A stale reservation is taken out by `commit`, and a tail would go with it (`abandoned`). -/
theorem run_commit_stale {r : Reservation} (hres : b.reservation = some r) (hepoch : r.epoch ≠ b.epoch)
    (count : Nat) :
    (commit count).run b =
      .ok ⟨.error (.staleLease r.epoch b.abandoned.epoch), b.abandoned, b.unreserved.trimEvents⟩ := by
  unfold commit
  rw [run_look_bind, hres]
  show StateAction.run (ite _ _ _) b = _
  rw [run_ite, if_pos hepoch, run_alter_bind, run_dropTail_bind, run_look_bind]
  simp only [run_pure, Except.map, Step.after_mk, List.append_nil]
  rfl

omit [LawfulStore σ] in
/-- A `commit` of more than was reserved changes nothing. -/
theorem run_commit_overrun {r : Reservation} (hres : b.reservation = some r) (hepoch : r.epoch = b.epoch)
    {count : Nat} (hcount : r.length < count) :
    (commit count).run b = .ok ⟨.error (.leaseOverrun count r.length), b, []⟩ := by
  unfold commit
  rw [run_look_bind, hres]
  show StateAction.run (ite _ _ _) b = _
  rw [run_ite, if_neg (fun hne => hne hepoch), run_ite, if_pos hcount]
  rfl

omit [LawfulStore σ] in
theorem Ordered.unreserved (h : b.Ordered) : b.unreserved.Ordered :=
  ⟨h.head_le, h.valid_le, h.capacity_lt⟩

omit [LawfulStore σ] in
/-- What a writer commits lies within `capacity`, so the head can go behind it. -/
theorem Ordered.moved_unreserved (h : b.Ordered) (hw : b.canWrite = true) {count : Nat}
    (hroom : b.head + count ≤ b.capacity) : (b.unreserved.moved (b.head + count)).Ordered := by
  apply h.unreserved.moved
  show b.head + count ≤ if b.canWrite then b.capacity else b.valid
  rw [if_pos hw]
  exact hroom

omit [LawfulStore σ] in
/-- What is left of a `commit` once epoch and length are as they should be. -/
theorem run_commit_good {r : Reservation} (hres : b.reservation = some r) (hepoch : r.epoch = b.epoch) {count : Nat}
    (hcount : count ≤ r.length) :
    (commit count).run b =
      (ensure (addPosition b.head count) >>= fun position => moveHead position >>= fun _ => dropTail >>= fun _ =>
        pure (.ok count)).run b.unreserved := by
  unfold commit
  rw [run_look_bind, hres]
  show StateAction.run (ite _ _ _) b = _
  rw [run_ite, if_neg (fun hne => hne hepoch), run_ite, if_neg (Nat.not_lt.mpr hcount), run_alter_bind]
  rfl

omit [LawfulStore σ] in
/-- A `commit` goes through where the head may go behind what is committed. -/
theorem run_commit_moved (h : b.Ordered) {r : Reservation} (hres : b.reservation = some r) (hepoch : r.epoch = b.epoch)
    {count : Nat} (hcount : count ≤ r.length)
    (hmove : b.head + count ≤ if b.canWrite then b.capacity else b.valid) :
    (commit count).run b = .ok ⟨.ok count, b.committed count, b.commitEvents count⟩ := by
  have hlimit : b.head + count < positionLimit := by
    have hvalid := h.valid_le
    have hcap := h.capacity_lt
    split at hmove <;> omega
  rw [run_commit_good hres hepoch hcount, addPosition_of_lt hlimit, run_ensure_ok_bind,
    run_bind_of_silent (run_moveHead_moved h.unreserved hmove), run_dropTail_bind]
  simp only [run_pure, Except.map, Step.after_mk, List.append_nil]
  rfl

omit [LawfulStore σ] in
/-- A `commit` goes through for a writer whose reservation is of the present epoch and has its room in the store. -/
theorem run_commit_live (h : b.Ordered) {r : Reservation} (hres : b.reservation = some r)
    (hepoch : r.epoch = b.epoch) (hw : b.canWrite = true) (hroom : b.head + r.length ≤ b.capacity)
    {count : Nat} (hcount : count ≤ r.length) :
    (commit count).run b = .ok ⟨.ok count, b.committed count, b.commitEvents count⟩ := by
  apply run_commit_moved h hres hepoch hcount
  rw [if_pos hw]
  omega

/-- What is granted is `filled`, and can then be `committed`. -/
theorem run_commit_filled (h : b.Ordered) {n : Nat} (hw : b.canWrite = true) (hlimit : b.head + n < positionLimit)
    (filling : σ) {count : Nat} (hcount : count ≤ n) :
    (commit count).run (b.filled n filling) =
      .ok ⟨.ok count, (b.filled n filling).committed count, (b.filled n filling).commitEvents count⟩ := by
  have hres : (b.filled n filling).reservation = some ⟨(b.filled n filling).epoch, n⟩ := rfl
  have hwrite : (b.filled n filling).canWrite = true := (canWrite_filled b n filling).trans hw
  exact run_commit_live (h.filled hlimit filling) hres rfl hwrite (head_add_le_capacity_filled h n filling) hcount

/-! ## All in one -/

/-- Where the buffer `grants` room, the rest of `reserveWith` is a commit that can only overrun; an overrun leaves the
    buffer `abandoned`. -/
theorem run_reserveWith (h : b.Ordered) (n : Nat) (filler : σ → σ × Nat) :
    (reserveWith n filler).run b =
      if b.grants n then
        if (filler (b.room n)).2 ≤ n then
          .ok ⟨⟨some (b.room n), .ok (filler (b.room n)).2⟩,
            (b.filled n (filler (b.room n)).1).committed (filler (b.room n)).2,
            b.roomEvents n ++ (b.filled n (filler (b.room n)).1).commitEvents (filler (b.room n)).2⟩
        else
          .ok ⟨⟨some (b.room n), .error (.leaseOverrun (filler (b.room n)).2 n)⟩,
            (b.filled n (filler (b.room n)).1).abandoned,
            b.roomEvents n ++ (b.filled n (filler (b.room n)).1).unreserved.trimEvents⟩
      else .ok ⟨⟨none, .ok 0⟩, b.denied n, b.denyEvents n⟩ := by
  have hrun := run_reserve h n
  unfold reserveWith
  cases hg : b.grants n with
  | false =>
      rw [hg, if_neg Bool.false_ne_true] at hrun
      rw [if_neg Bool.false_ne_true, run_bind_of_run hrun]
      simp [Except.map]
  | true =>
      obtain ⟨hw, hlimit, -⟩ := grants_iff.mp hg
      rw [hg, if_pos rfl] at hrun
      rw [if_pos rfl, run_bind_of_run hrun]
      generalize hfill : filler (b.room n) = filling
      obtain ⟨elements, count⟩ := filling
      have hres : (b.filled n elements).reservation = some ⟨(b.filled n elements).epoch, n⟩ := rfl
      show Except.map _ (StateAction.run (fill (b.room n) (filler (b.room n)).1 >>= fun _ =>
        commit (filler (b.room n)).2 >>= _) _) = _
      rw [hfill, run_bind_of_silent (run_fill h hlimit elements)]
      split
      · next hcount =>
          rw [run_bind_of_run (run_commit_filled h hw hlimit elements hcount)]
          simp [Except.map]
      · next hcount =>
          rw [run_bind_of_silent (run_commit_overrun hres rfl (Nat.not_le.mp hcount))]
          show Except.map _ (StateAction.run (abandon >>= _) _) = _
          rw [run_bind_of_run (run_abandon _)]
          simp [Except.map]

/-! ## Writing where nothing can be written -/

/-- Where nothing can be written, `write` answers zero and changes nothing. -/
theorem write_of_not_canWrite (h : b.Ordered) (hw : b.canWrite = false) (elements : σ) :
    (write elements).run b = .ok ⟨0, b, []⟩ := by
  rw [run_write h, if_neg]
  rintro ⟨hopen, -⟩
  rw [hw] at hopen
  cases hopen

omit [LawfulStore σ] in
theorem denied_eq_self (hw : b.canWrite = false) (n : Nat) : b.denied n = b := by
  unfold denied
  rw [if_neg]
  rintro ⟨hopen, -⟩
  rw [hw] at hopen
  cases hopen

omit [LawfulStore σ] in
theorem grants_eq_false (hw : b.canWrite = false) (n : Nat) : b.grants n = false := by
  unfold grants
  rw [hw]
  rfl

omit [LawfulStore σ] in
/-- Without a reservation and without a tail there is nothing to be `abandoned`. -/
theorem abandoned_eq_self (hres : b.reservation = none) (hcapacity : b.capacity = b.valid) : b.abandoned = b := by
  have hsame : b.unreserved = b := by
    unfold Buffer.unreserved
    rw [← hres]
  unfold Buffer.abandoned
  rw [hsame]
  exact trimmed_eq_self b (Nat.le_of_eq hcapacity)

end MemStream.Buffer
