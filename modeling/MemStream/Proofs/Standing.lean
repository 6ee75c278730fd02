import Mathlib.Data.List.Induction
import MemStream.Proofs.Tail
import MemStream.Store.Cells

/-!
# `MemStream.Proofs.Standing` — what becomes of a reservation

Nowhere is it written down that a reservation is out of date. A commit finds out by comparing epochs, and operations
move the epoch on once, or twice, or, where there is no tail to drop, not at all. What it comes to can be told without
epochs, from what operations asked for and what they were answered: a reservation is live, or stale, or not there, and
each operation has a bearing on it.

## Contents
- **The automaton.** `Standing`, `Bearing`; `Standing.next` for an operation, `Standing.settle` for what a commit
  answers.
- **Reading a run.** `Entry.bearing` from request and answer; `standingAfter` for the whole run.
- **The buffer.** `Buffer.standing` is what the epochs say. One operation takes it where its bearing says
  (`standing_of_perform`), and so does a run (`Run.standing`).
- **Settling.** `reservation_protocol`.
-/

namespace MemStream

open StateAction

/-! ## The automaton -/

/-- How things stand with the `Reservation` of a buffer. -/
inductive Standing where
  | none
  /-- Out of date, and granted at the epoch `issued`. -/
  | stale (issued : UInt64)
  | live (issued : UInt64) (length : Nat)
  deriving DecidableEq

/-- What an operation means for a `Reservation`. -/
inductive Bearing where
  | nothing
  | grants (issued : UInt64) (length : Nat)
  | settles (count : Nat)
  | ends
  | outdates
  /-- The store would not grow; from the head on, `within` elements are valid. -/
  | refuses (within : Nat)
  deriving DecidableEq

namespace Standing

/-- Whether there is a reservation on record, `live` or `stale`. -/
def isSome : Standing → Bool
  | .none => false
  | .stale _ | .live _ _ => true

/-- A `live` reservation goes `stale` once the epoch has moved on. -/
def outdated : Standing → Standing
  | .live issued _ => .stale issued
  | s => s

/-- Where growth is refused, the tail is gone, and a reservation is `stale` if it reached into the tail. -/
def refused (within : Nat) : Standing → Standing
  | .live issued length => if within < length then .stale issued else .live issued length
  | s => s

/-- A commit of too much leaves a `live` reservation as it is; any other takes the reservation away. -/
def settled (count : Nat) : Standing → Standing
  | .live issued length => if length < count then .live issued length else .none
  | _ => .none

/-- How things stand after an operation of the given `Bearing`. -/
def next (s : Standing) : Bearing → Standing
  | .nothing => s
  | .grants issued length => .live issued length
  | .settles count => s.settled count
  | .ends => .none
  | .outdates => s.outdated
  | .refuses within => s.refused within

/-- What a commit of `count` elements answers at the epoch `current`. -/
def settle (s : Standing) (count : Nat) (current : UInt64) : Except Refusal Nat :=
  match s with
  | .none => .error .noPendingAllocation
  | .stale issued => .error (.staleLease issued current)
  | .live _ length => if length < count then .error (.leaseOverrun count length) else .ok count

end Standing

/-! ## Reading a run -/

section Bearings

variable {σ α : Type} [Store σ α]

/-- The place up to which `count` elements at the head need room. There is none to ask for where the writing side is
    closed or the place would not be below `positionLimit`. -/
def Buffer.reach? (b : Buffer σ) (count : Nat) : Option Nat :=
  if b.canWrite ∧ b.head + count < positionLimit then some (b.head + count) else none

/-- The place to which a seek wants the store to reach, if it is one for writing and there is a `position`. -/
def Buffer.goal? (b : Buffer σ) (position : Option Nat) (direction : Directions) : Option Nat :=
  if direction.writes ∧ b.canWrite then position else none

/-- The place up to which an operation wants room in the store, by `reach?` or `goal?`. -/
def Operation.place? (b : Buffer σ) : Operation σ α → Option Nat
  | .write elements | .writeAll elements =>
      if 0 < Store.size elements then b.reach? (Store.size elements) else none
  | .writeOne _ => b.reach? 1
  | .reserve count _ | .reserveWith count _ _ => b.reach? count
  | .seekTo position direction => b.goal? (some position) direction
  | .seek target direction => b.goal? (target.position? b.cursor) direction
  | .seekAny target => b.goal? (target.position? b.cursor) (if b.canRead then .reading else .writing)
  | _ => none

/-- Where the store refuses the room that an operation wants, that is all the operation means; otherwise it means what
    its answer has `shown`. -/
def Buffer.pressed (b : Buffer σ) (place : Option Nat) (shown : Bearing) : Bearing :=
  if place.any fun p => !b.trimmed.admits p then .refuses b.available else shown

/-- What an operation means for a reservation by its `answer`. -/
def Entry.shown (e : Entry σ α) : Bearing :=
  match e.operation, e.answer with
  | .reserve count _, .region granted => if granted.isSome then .grants e.after.epoch count else .nothing
  -- what is reserved in one go with a commit is settled or given up in the same go
  | .reserveWith _ _ _, .filled result => if result.granted.isSome then .ends else .nothing
  | .commit count, _ => .settles count
  | .abandon, _ => .ends
  | .close _, .flag effective => if effective then .ends else .nothing
  | .takeData, _ => if e.before.isOpen then .ends else .nothing
  | .write _, .count value => if 0 < value then .outdates else .nothing
  | .writeOne _, .element put => if put.isSome then .outdates else .nothing
  | .writeAll elements, .stored (.ok _) => if 0 < Store.size elements then .outdates else .nothing
  | .seekTo _ direction, .position reached => if direction.writes ∧ reached.isSome then .outdates else .nothing
  | .seek _ direction, .position reached => if direction.writes ∧ reached.isSome then .outdates else .nothing
  | .seekAny _, .moved (.ok _) => if e.before.canRead then .nothing else .outdates
  | _, _ => .nothing

/-- What an operation of a run means for a reservation: what is `shown`, unless it was `pressed` for room in vain. -/
def Entry.bearing (e : Entry σ α) : Bearing :=
  e.before.pressed (e.operation.place? e.before) e.shown

/-- How things stand after a run of a new buffer: `Standing.next` along its bearings. -/
def standingAfter (entries : List (Entry σ α)) : Standing :=
  entries.foldl (fun s e => s.next e.bearing) .none

/-- One more entry takes `standingAfter` on by its `bearing`. -/
theorem standingAfter_append (entries : List (Entry σ α)) (e : Entry σ α) :
    standingAfter (entries ++ [e]) = (standingAfter entries).next e.bearing := by
  unfold standingAfter
  rw [List.foldl_append]
  rfl

theorem Buffer.pressed_none (b : Buffer σ) (shown : Bearing) : b.pressed none shown = shown := rfl

theorem Buffer.pressed_admitted {b : Buffer σ} {p : Nat} (h : b.trimmed.admits p = true) (shown : Bearing) :
    b.pressed (some p) shown = shown := by
  unfold pressed
  rw [Option.any_some, h]
  rfl

/-- Where the store refuses, `pressed` says so, with the number of valid elements from the head on. -/
theorem Buffer.pressed_refused {b : Buffer σ} {p : Nat} (h : ¬ b.trimmed.admits p = true) (shown : Bearing) :
    b.pressed (some p) shown = .refuses b.available := by
  unfold pressed
  rw [Option.any_some, eq_false_of_ne_true h]
  rfl

/-- An operation that `browses` has no bearing on a reservation. -/
theorem Entry.bearing_of_browses {e : Entry σ α} (h : e.operation.browses = true) : e.bearing = .nothing := by
  obtain ⟨before, operation, answer, after⟩ := e
  cases operation with
  | write | writeOne | writeAll | seekTo | seek | seekAny | reserve | reserveWith | commit | abandon | close
  | takeData | release => cases h
  | _ => rfl

end Bearings

namespace Buffer

variable {σ α : Type} [Store σ α] {own : Ticket → Prop} {b c : Buffer σ}

/-! ## The buffer -/

/-- How things stand with the reservation of a buffer by the epochs. -/
def standing (b : Buffer σ) : Standing :=
  match b.reservation with
  | none => .none
  | some r => if r.epoch.toNat = b.changes then .live r.epoch r.length else .stale r.epoch

omit [Store σ α] in
theorem standing_of_none (h : b.reservation = none) : b.standing = .none := by
  unfold standing
  rw [h]

omit [Store σ α] in
/-- A `Live` reservation stands as `live`, with its epoch and its length. -/
theorem standing_of_live {r : Reservation} (h : b.Live r) : b.standing = .live r.epoch r.length := by
  unfold standing
  rw [h.1]
  exact if_pos h.2

omit [Store σ α] in
/-- A reservation that is not `Live` stands as `stale`. -/
theorem standing_of_stale {r : Reservation} (hres : b.reservation = some r) (h : ¬ b.Live r) :
    b.standing = .stale r.epoch := by
  unfold standing
  rw [hres]
  exact if_neg fun hepoch => h ⟨hres, hepoch⟩

omit [Store σ α] in
theorem isSome_standing (b : Buffer σ) : b.standing.isSome = b.reservation.isSome := by
  unfold standing
  cases b.reservation with
  | none => rfl
  | some r =>
      simp only
      split <;> rfl

/-- There is nothing behind the `valid` elements of an `Exact` buffer if its one reservation is stale. -/
theorem Exact.capacity_of_stale (hexact : b.Exact) {r : Reservation} (hres : b.reservation = some r)
    (hstale : ¬ b.Live r) : b.capacity = b.valid := by
  apply hexact.idle
  intro other hother
  obtain ⟨hsome, -⟩ := id hother
  rw [hres] at hsome
  cases hsome
  exact hstale hother

/-- Once the epoch has moved on, a reservation that was kept is `outdated`. -/
theorem standing_of_later (h : b.Guarded own) (hres : c.reservation = b.reservation) (hlt : b.changes < c.changes) :
    c.standing = b.standing.outdated := by
  cases hb : b.reservation with
  | none =>
      rw [standing_of_none hb, standing_of_none (hres.trans hb)]
      rfl
  | some r =>
      have hstale : ¬ c.Live r := h.not_live hlt (fun _ hc => hres ▸ hc) r
      rw [standing_of_stale (hres.trans hb) hstale]
      by_cases hlive : b.Live r
      · rw [standing_of_live hlive]
        rfl
      · rw [standing_of_stale hb hlive]
        rfl

/-- An open reader has no reservation, and reading makes none: the `standing` is `none`. -/
theorem standing_of_reader (h : b.Guarded own) (hr : b.canRead = true) (hres : c.reservation = b.reservation) :
    b.standing = .none ∧ c.standing = .none := by
  obtain ⟨-, hnone, -⟩ := h.reader hr
  exact ⟨standing_of_none hnone, standing_of_none (hres.trans hnone)⟩

/-- What leaves a buffer `Browsed` leaves its `standing`. -/
theorem standing_of_browsed (h : b.Guarded own) (hbrowsed : Browsed b c) : c.standing = b.standing := by
  cases hbrowsed with
  | stay => rfl
  | pass p n hr _ _ _ =>
      obtain ⟨hbefore, hafter⟩ := standing_of_reader (c := { b with
        cursor := ⟨p, b.valid⟩, changes := b.changes + n }) h hr rfl
      rw [hbefore, hafter]

/-- Where growth is refused the buffer is left `trimmed`, and the epoch moves on only if there was a tail. -/
theorem standing_trimmed (h : b.Guarded own) (hexact : b.Exact) :
    b.trimmed.standing = b.standing.next (.refuses b.available) := by
  cases hb : b.reservation with
  | none =>
      rw [standing_of_none hb, standing_of_none ((reservation_trimmed b).trans hb)]
      rfl
  | some r =>
      by_cases hlive : b.Live r
      · have hcapacity := hexact.held r hlive
        have havail := h.ordered.head_add_available
        rw [standing_of_live hlive]
        show _ = if b.available < r.length then Standing.stale r.epoch else .live r.epoch r.length
        split
        · -- the reservation reached into the tail
          have hlt : b.changes < b.trimmed.changes := by
            rw [changes_trimmed, if_pos (by omega)]
            exact Nat.lt_succ_self _
          rw [standing_of_later h (reservation_trimmed b) hlt, standing_of_live hlive]
          rfl
        · rw [trimmed_eq_self b (by omega), standing_of_live hlive]
      · have hcapacity := hexact.capacity_of_stale hb hlive
        rw [trimmed_eq_self b (Nat.le_of_eq hcapacity), standing_of_stale hb hlive]
        rfl

theorem standing_written (h : b.Guarded own) (elements : σ) :
    (b.written elements).standing = b.standing.outdated :=
  standing_of_later h (reservation_extended b _) (changes_lt_written b elements)

theorem standing_sought (h : b.Guarded own) (p : Nat) : ((b.extended p).moved p).standing = b.standing.outdated := by
  apply standing_of_later h _ (changes_lt_sought b p)
  rw [reservation_moved, reservation_extended]

theorem standing_filled (n : Nat) (filling : σ) (hlimit : (b.filled n filling).changes < epochLimit) :
    (b.filled n filling).standing = .live (b.filled n filling).epoch n :=
  standing_of_live (live_filled b n filling hlimit)

theorem standing_abandoned (b : Buffer σ) : b.abandoned.standing = .none :=
  standing_of_none (reservation_trimmed b.unreserved)

theorem standing_committed (b : Buffer σ) (count : Nat) : (b.committed count).standing = .none :=
  standing_of_none (reservation_trimmed (b.unreserved.moved (b.head + count)))

theorem reservation_closed {direction : Directions} (hc : b.access.closes direction = true) :
    (b.closed direction).reservation = none := by
  rw [closed_of_closes hc, reservation_trimmed]

/-- A `close` that `closes` a side takes the reservation with it. -/
theorem standing_closed (b : Buffer σ) (direction : Directions) :
    (b.closed direction).standing = b.standing.next (if b.access.closes direction then .ends else .nothing) := by
  cases hc : b.access.closes direction with
  | true => exact standing_of_none (reservation_closed hc)
  | false =>
      rw [closed_eq_self hc]
      rfl

/-- To hand out the elements of an open buffer takes the reservation with it; a closed one keeps what it has on
    record. -/
theorem standing_emptied (h : b.Guarded own) (hexact : b.Exact) :
    b.emptied.standing = b.standing.next (if b.isOpen then .ends else .nothing) := by
  cases hopen : b.isOpen with
  | true =>
      apply standing_of_none
      show (b.closed .both).trimmed.reservation = none
      rw [reservation_trimmed]
      exact reservation_closed ((closes_both b).trans hopen)
  | false =>
      -- closed already, it has no live reservation and so no tail
      have hcapacity : b.capacity = b.valid := by
        apply hexact.idle
        intro r hlive
        have hwrite := (h.live r hlive).1
        have hclosed : b.canWrite = false := (Bool.or_eq_false_iff.mp hopen).2
        rw [hclosed] at hwrite
        cases hwrite
      rw [emptied_of_not_isOpen hopen hcapacity]
      rfl

/-! ## Actions -/

/-- Where room for `n` elements is `denied`, the store refused it or was not asked. -/
theorem standing_denied (h : b.Guarded own) (hexact : b.Exact) {n : Nat} (hg : ¬ b.grants n = true) :
    (b.denied n).standing = b.standing.next (b.pressed (b.reach? n) .nothing) := by
  unfold denied reach?
  split
  · next hgo =>
      have hrefused : ¬ b.trimmed.admits (b.head + n) = true := fun hadmits => hg (grants_iff.mpr ⟨hgo.1, hgo.2, hadmits⟩)
      rw [pressed_refused hrefused]
      exact standing_trimmed h hexact
  · rfl

/-- Where the buffer `grants` room, it was not `pressed` in vain. -/
theorem reach?_of_grants {n : Nat} (hg : b.grants n = true) (shown : Bearing) : b.pressed (b.reach? n) shown = shown := by
  obtain ⟨hw, hlimit, hadmits⟩ := grants_iff.mp hg
  unfold reach?
  rw [if_pos ⟨hw, hlimit⟩]
  exact pressed_admitted hadmits shown

/-- Whether an entry has the `bearing` it should have is found out by running the action inside the operation. -/
theorem standing_of_run {β : Type} {x : BufferAction σ β} {f : β → Answer σ α} {operation : Operation σ α}
    {step : Step (Buffer σ) Event (Answer σ α)} (hrun : (x >>= fun value => pure (f value)).run b = .ok step)
    (hx : ∃ first, x.run b = .ok first ∧
      first.state.standing = b.standing.next (Entry.bearing ⟨b, operation, f first.value, first.state⟩)) :
    step.state.standing = b.standing.next (Entry.bearing ⟨b, operation, step.value, step.state⟩) :=
  answer_of_run (R := fun answer c => c.standing = b.standing.next (Entry.bearing ⟨b, operation, answer, c⟩)) hrun hx

variable [LawfulStore σ]

/-- What `write` does to the `standing`: nothing, unless it goes through or the store refuses. -/
theorem write_standing (h : b.Guarded own) (hexact : b.Exact) (elements : σ) :
    ∃ step, (write elements).run b = .ok step ∧ (step.value = 0 ∨ step.value = Store.size elements) ∧
      step.state.standing = b.standing.next
        (b.pressed (if 0 < Store.size elements then b.reach? (Store.size elements) else none)
          (if 0 < step.value then .outdates else .nothing)) := by
  rw [run_write h.ordered]
  split
  · next hgo =>
      have hreach : (if 0 < Store.size elements then b.reach? (Store.size elements) else none) =
          b.reach? (Store.size elements) := if_pos hgo.2
      rw [hreach]
      split
      · next hlimit =>
          have hplace : b.reach? (Store.size elements) = some (b.head + Store.size elements) :=
            if_pos ⟨hgo.1, hlimit⟩
          rw [hplace]
          split
          · next hadmits =>
              refine ⟨_, rfl, .inr rfl, ?_⟩
              rw [pressed_admitted hadmits, if_pos hgo.2]
              exact standing_written h elements
          · next hadmits =>
              refine ⟨_, rfl, .inl rfl, ?_⟩
              rw [pressed_refused hadmits]
              exact standing_trimmed h hexact
      · next hlimit =>
          have hplace : b.reach? (Store.size elements) = none := if_neg fun hroom => hlimit hroom.2
          rw [hplace]
          exact ⟨_, rfl, .inl rfl, rfl⟩
  · next hgo =>
      have hplace : (if 0 < Store.size elements then b.reach? (Store.size elements) else none) = none := by
        split
        · next hsize => exact if_neg fun hroom => hgo ⟨hroom.1, hsize⟩
        · rfl
      rw [hplace]
      exact ⟨_, rfl, .inl rfl, rfl⟩

/-- What `seekTo` does to the `standing`: nothing, unless it goes through for writing or the store refuses. -/
theorem seekTo_standing (h : b.Guarded own) (hexact : b.Exact) {p : Nat} (hp : p < positionLimit)
    (direction : Directions) :
    ∃ step, (seekTo p direction).run b = .ok step ∧
      step.state.standing = b.standing.next (b.pressed (b.goal? (some p) direction)
        (if direction.writes ∧ step.value.isSome then .outdates else .nothing)) := by
  rw [run_seekTo h.ordered hp]
  split
  · next hread =>
      -- an open reader has no reservation to lose
      obtain ⟨hw, -, -⟩ := h.reader hread.2.1
      obtain ⟨hbefore, hafter⟩ := standing_of_reader (c := b.moved p) h hread.2.1 rfl
      have hgoal : b.goal? (some p) direction = none := if_neg fun hgo => Bool.false_ne_true (hw.symm.trans hgo.2)
      refine ⟨_, rfl, ?_⟩
      rw [hgoal, pressed_none, hbefore, hafter]
      split <;> rfl
  split
  · next hwrite =>
      have hgoal : b.goal? (some p) direction = some p := if_pos hwrite
      rw [hgoal]
      split
      · next hadmits =>
          refine ⟨_, rfl, ?_⟩
          rw [pressed_admitted hadmits, if_pos ⟨hwrite.1, rfl⟩]
          exact standing_sought h p
      · next hadmits =>
          refine ⟨_, rfl, ?_⟩
          rw [pressed_refused hadmits]
          exact standing_trimmed h hexact
  · next hwrite =>
      have hgoal : b.goal? (some p) direction = none := if_neg hwrite
      refine ⟨_, rfl, ?_⟩
      rw [hgoal, pressed_none, if_neg fun hgo => Bool.false_ne_true hgo.2]
      rfl

theorem seek_standing (h : b.Guarded own) (hexact : b.Exact) (target : Target) (direction : Directions) :
    ∃ step, (seek target direction).run b = .ok step ∧
      step.state.standing = b.standing.next (b.pressed (b.goal? (target.position? b.cursor) direction)
        (if direction.writes ∧ step.value.isSome then .outdates else .nothing)) := by
  rw [run_seek]
  cases ht : target.position? b.cursor with
  | some p => exact seekTo_standing h hexact (Target.position?_eq_some_iff.mp ht).2 direction
  | none =>
      refine ⟨_, rfl, ?_⟩
      rw [if_neg fun hgo => Bool.false_ne_true hgo.2]
      unfold goal?
      rw [ite_self]
      rfl

theorem writeOne_standing (h : b.Guarded own) (hexact : b.Exact) (element : α) :
    ∃ step, (writeOne (σ := σ) element).run b = .ok step ∧
      step.state.standing = b.standing.next (b.pressed (b.reach? 1)
        (if step.value.isSome then .outdates else .nothing)) := by
  obtain ⟨⟨value, state, events⟩, hrun, hvalue, hstate⟩ := write_standing h hexact (Store.single element : σ)
  rw [Store.size_single, if_pos Nat.one_pos] at hstate
  rw [Store.size_single] at hvalue
  rw [run_writeOne, hrun]
  refine ⟨_, rfl, ?_⟩
  rcases hvalue with hnone | hone
  · cases hnone
    exact hstate
  · cases hone
    exact hstate

/-- To `writeAll` goes wrong only where the first `write` does. -/
theorem writeAll_standing (h : b.Guarded own) (hexact : b.Exact) (elements : σ) :
    ∃ step, (writeAll elements).run b = .ok step ∧
      step.state.standing = b.standing.next
        (Entry.bearing ⟨b, .writeAll elements, .stored step.value, step.state⟩) := by
  obtain ⟨first, hrun, hvalue, hstate⟩ := write_standing h hexact elements
  rw [run_writeAll h.ordered, hrun]
  unfold Entry.bearing
  show ∃ step, _ ∧ _ = b.standing.next (b.pressed (if 0 < Store.size elements then b.reach? (Store.size elements) else
    none) _)
  by_cases hsize : Store.size elements = 0
  · rw [if_pos hsize, if_neg (by omega)]
    refine ⟨_, rfl, ?_⟩
    unfold Entry.shown
    simp only
    rw [if_neg (by omega)]
    rfl
  · rw [if_neg hsize]
    refine ⟨_, rfl, ?_⟩
    rcases hvalue with hzero | hall
    · rw [hzero] at hstate
      simp only [hzero, if_true]
      exact hstate
    · rw [hall] at hstate
      simp only [hall, if_neg hsize]
      exact hstate

theorem seekAny_standing (h : b.Guarded own) (hexact : b.Exact) (target : Target) :
    ∃ step, (seekAny target).run b = .ok step ∧
      step.state.standing = b.standing.next
        (Entry.bearing ⟨b, .seekAny target, .moved step.value, step.state⟩) := by
  obtain ⟨first, hrun, hstate⟩ := seek_standing h hexact target (if b.canRead then .reading else .writing)
  unfold seekAny
  rw [run_look_bind, run_bind_of_ok hrun]
  unfold Entry.bearing
  show ∃ step, _ ∧ _ = b.standing.next (b.pressed (b.goal? (target.position? b.cursor)
    (if b.canRead then .reading else .writing)) _)
  cases hvalue : first.value with
  | none =>
      have hshown : (if (if b.canRead then Directions.reading else .writing).writes ∧ (none : Option Nat).isSome then
          Bearing.outdates else .nothing) = .nothing := if_neg fun hgo => Bool.false_ne_true hgo.2
      rw [hvalue, hshown] at hstate
      exact ⟨_, rfl, hstate⟩
  | some position =>
      have hshown : (if (if b.canRead then Directions.reading else .writing).writes ∧ (some position).isSome then
          Bearing.outdates else .nothing) = if b.canRead then .nothing else .outdates := by
        cases b.canRead <;> rfl
      rw [hvalue, hshown] at hstate
      exact ⟨_, rfl, hstate⟩

/-- Where room is granted, the new reservation is the one that stands, and it is `live`. -/
theorem reserveAndFill_standing (h : b.Guarded own) (hexact : b.Exact) (n : Nat) (filling : σ)
    {step : Step (Buffer σ) Event (Option σ)} (hrun : (reserveAndFill n filling).run b = .ok step)
    (hlimit : step.state.changes < epochLimit) :
    step.state.standing = b.standing.next (b.pressed (b.reach? n)
      (if step.value.isSome then .grants step.state.epoch n else .nothing)) := by
  rw [run_reserveAndFill h.ordered] at hrun
  split at hrun
  · next hg =>
      cases hrun
      rw [reach?_of_grants hg]
      exact standing_filled n filling hlimit
  · next hg =>
      cases hrun
      exact standing_denied h hexact hg

/-- What `reserveWith` reserves it settles or gives up, so no reservation stands after it. -/
theorem reserveWith_standing (h : b.Guarded own) (hexact : b.Exact) (n : Nat) (filler : σ → σ × Nat) :
    ∃ step, (reserveWith n filler).run b = .ok step ∧
      step.state.standing = b.standing.next (b.pressed (b.reach? n)
        (if step.value.granted.isSome then .ends else .nothing)) := by
  rw [run_reserveWith h.ordered]
  split
  · next hg =>
      split
      · refine ⟨_, rfl, ?_⟩
        rw [reach?_of_grants hg]
        exact standing_committed _ _
      · refine ⟨_, rfl, ?_⟩
        rw [reach?_of_grants hg]
        exact standing_abandoned _
  · next hg => exact ⟨_, rfl, standing_denied h hexact hg⟩

omit [LawfulStore σ] in
/-- **What a `commit` does**, and what it answers: `Standing.settled` and `Standing.settle`. -/
theorem commit_standing (h : b.Guarded own) (hexact : b.Exact) (hlimit : b.changes < epochLimit) (count : Nat) :
    ∃ step, (commit count).run b = .ok step ∧ step.value = b.standing.settle count b.epoch ∧
      step.state.standing = b.standing.settled count := by
  cases hres : b.reservation with
  | none =>
      rw [standing_of_none hres]
      exact ⟨_, run_commit_none hres count, rfl, standing_of_none hres⟩
  | some r =>
      by_cases hlive : b.Live r
      · have hepoch : r.epoch = b.epoch := (epoch_eq_iff hlimit).mpr hlive.2
        obtain ⟨hw, hroom⟩ := h.live r hlive
        rw [standing_of_live hlive]
        by_cases hcount : r.length < count
        · refine ⟨_, run_commit_overrun hres hepoch hcount, (if_pos hcount).symm, ?_⟩
          show b.standing = if r.length < count then .live r.epoch r.length else .none
          rw [if_pos hcount]
          exact standing_of_live hlive
        · refine ⟨_, run_commit_live h.ordered hres hepoch hw hroom (Nat.not_lt.mp hcount), (if_neg hcount).symm, ?_⟩
          show (b.committed count).standing = if r.length < count then .live r.epoch r.length else .none
          rw [if_neg hcount]
          exact standing_committed b count
      · -- a stale reservation has no tail, so giving it up leaves the epoch that the answer names
        have hepoch : r.epoch ≠ b.epoch := fun heq => hlive ⟨hres, (epoch_eq_iff hlimit).mp heq⟩
        have hcapacity := hexact.capacity_of_stale hres hlive
        have hsame : b.abandoned.epoch = b.epoch := by
          unfold abandoned
          rw [trimmed_eq_self b.unreserved (Nat.le_of_eq hcapacity)]
          rfl
        rw [standing_of_stale hres hlive]
        refine ⟨_, run_commit_stale hres hepoch count, ?_, standing_abandoned b⟩
        rw [hsame]
        rfl

/-- What `reserveWith` settles is what it was granted, and nothing else. -/
theorem reserveWith_settles (h : b.Ordered) (n : Nat) (filler : σ → σ × Nat) :
    ∃ step granted, (reserveWith n filler).run b = .ok step ∧
      step.value = ⟨granted, if granted.isSome then
        (Standing.live b.epoch n).settle (filler (b.room n)).2 b.epoch else .ok 0⟩ := by
  rw [run_reserveWith h]
  split
  · have hsettle : (Standing.live b.epoch n).settle (filler (b.room n)).2 b.epoch =
        if n < (filler (b.room n)).2 then .error (.leaseOverrun (filler (b.room n)).2 n)
        else .ok (filler (b.room n)).2 := rfl
    split
    · next hcount =>
        refine ⟨_, some (b.room n), rfl, ?_⟩
        rw [hsettle, if_neg (Nat.not_lt.mpr hcount)]
        rfl
    · next hcount =>
        refine ⟨_, some (b.room n), rfl, ?_⟩
        rw [hsettle, if_pos (Nat.not_le.mp hcount)]
        rfl
  · exact ⟨_, none, rfl, rfl⟩

omit [LawfulStore σ] in
/-- Whoever can `release` a lease of its own has no reservation. -/
theorem release_standing (h : b.Guarded own) (hlimit : b.changes < epochLimit) {t : Ticket}
    (hfits : t.offset + t.length < positionLimit) (ht : own t) {count : Nat}
    {step : Step (Buffer σ) Event (Except Refusal Nat)} (hrun : (release t count).run b = .ok step) :
    step.state.standing = b.standing := by
  rcases release_cases hfits h.ordered hrun with ⟨hepoch, -, -, hstate⟩ | ⟨-, -, hstate⟩
  · have hr := (h.lease t ht ((epoch_eq_iff hlimit).mp hepoch)).1
    obtain ⟨hbefore, hafter⟩ := standing_of_reader (c := b.moved (t.offset + count)) h hr rfl
    rw [hstate, hbefore, hafter]
  · rw [hstate]

/-- **One operation takes the `standing` where its `bearing` says.** -/
theorem standing_of_perform (h : b.Guarded own) (hexact : b.Exact) (hstart : b.changes < epochLimit)
    {operation : Operation σ α} (hfits : operation.Fits) (hown : ∀ t, operation.presented? = some t → own t)
    {step : Step (Buffer σ) Event (Answer σ α)} (hrun : operation.perform.run b = .ok step)
    (hlimit : step.state.changes < epochLimit) :
    step.state.standing = b.standing.next (Entry.bearing ⟨b, operation, step.value, step.state⟩) := by
  by_cases hbrowses : operation.browses = true
  · obtain ⟨other, hother, hbrowsed⟩ := perform_browsed h.ordered hbrowses
    rw [hrun] at hother
    cases hother
    rw [Entry.bearing_of_browses hbrowses]
    exact standing_of_browsed h hbrowsed
  cases operation with
  | write elements =>
      obtain ⟨first, hfirst, -, hstate⟩ := write_standing h hexact elements
      exact standing_of_run hrun ⟨first, hfirst, hstate⟩
  | writeOne element => exact standing_of_run hrun (writeOne_standing h hexact element)
  | writeAll elements => exact standing_of_run hrun (writeAll_standing h hexact elements)
  | seekTo position direction => exact standing_of_run hrun (seekTo_standing h hexact hfits direction)
  | seek target direction => exact standing_of_run hrun (seek_standing h hexact target direction)
  | seekAny target => exact standing_of_run hrun (seekAny_standing h hexact target)
  | reserve count filling =>
      obtain ⟨first, hfirst, rfl⟩ := value_of_answer hrun
      exact reserveAndFill_standing h hexact count filling hfirst hlimit
  | reserveWith count filling written => exact standing_of_run hrun (reserveWith_standing h hexact count _)
  | commit count =>
      obtain ⟨first, hfirst, -, hstate⟩ := commit_standing h hexact hstart count
      exact standing_of_run hrun ⟨first, hfirst, hstate⟩
  | abandon => exact standing_of_run hrun ⟨_, run_abandon b, standing_abandoned b⟩
  | close direction => exact standing_of_run hrun ⟨_, run_close b direction, standing_closed b direction⟩
  | takeData => exact standing_of_run hrun ⟨_, run_takeData b, standing_emptied h hexact⟩
  | release ticket count =>
      obtain ⟨first, hfirst, rfl⟩ := value_of_answer hrun
      exact release_standing h hstart hfits (hown ticket rfl) hfirst
  | _ => exact absurd rfl hbrowses

end Buffer

/-! ## Settling -/

variable {σ α : Type} [Store σ α] [LawfulStore σ] {entries : List (Entry σ α)}

/-- **A run takes the `standing` where its bearings say**, to `standingAfter`. -/
theorem Run.standing {first last : Buffer σ} (hrun : Run first entries last) (hnew : first.New)
    (hown : OwnTickets entries) (hlimit : EpochsFit entries) : last.standing = standingAfter entries := by
  -- the last entry of a run is the one to look at, since what goes before it is a run of its own
  induction entries using List.reverseRecOn generalizing last with
  | nil =>
      cases hrun
      obtain ⟨data, mode, access, label, -, -, rfl⟩ := hnew
      rfl
  | append_singleton earlier e ih =>
      obtain ⟨middle, hearlier, hrest⟩ := Run.append_iff.mp hrun
      obtain ⟨hguard, hexact, hstart⟩ := hearlier.guarded_exact hnew hown.left hlimit.left
      rw [standingAfter_append, ← ih hearlier hown.left hlimit.left]
      cases hrest with
      | next hfits hperform hdone =>
          cases hdone
          apply Buffer.standing_of_perform hguard hexact hstart hfits _ hperform
          · exact hlimit _ (List.mem_append_right earlier List.mem_cons_self)
          · intro t ht
            exact hown earlier _ [] rfl t ht

omit [LawfulStore σ] in
/-- The epoch of a `stale` reservation is not the present one. -/
theorem Buffer.epoch_ne_of_stale {b : Buffer σ} (hlimit : b.changes < epochLimit) {issued : UInt64}
    (h : b.standing = .stale issued) : issued ≠ b.epoch := by
  unfold Buffer.standing at h
  split at h
  · cases h
  · split at h
    · cases h
    · next r _ hepoch =>
        cases h
        exact fun heq => hepoch ((Buffer.epoch_eq_iff hlimit).mp heq)

/-- **The reservation protocol.** Whatever was done to a new buffer, with its own tickets and short of the last epoch,
    how things stand with its reservation follows from what was asked and answered (`standingAfter`), and decides what
    comes next:
    - a `commit` answers what the standing says (`Standing.settle`), and never faults;
    - a reservation that is `stale` was granted at another epoch than the present one;
    - to `abandon` tells whether there was a reservation, `live` or `stale`;
    - `reserveWith` commits a `live` reservation of the length that was granted, and comes to nothing where no room is
      granted. -/
theorem reservation_protocol {first last : Buffer σ} (hnew : first.New) (hrun : Run first entries last)
    (hown : OwnTickets entries) (hlimit : EpochsFit entries) :
    (∀ count, ∃ step, (Operation.commit count : Operation σ α).perform.run last = .ok step ∧
        step.value = .settled ((standingAfter entries).settle count last.epoch)) ∧
      (∀ issued, standingAfter entries = .stale issued → issued ≠ last.epoch) ∧
      (∃ step, (Operation.abandon : Operation σ α).perform.run last = .ok step ∧
        step.value = .flag (standingAfter entries).isSome) ∧
      ∀ count filling written, ∃ step granted,
        (Operation.reserveWith count filling written : Operation σ α).perform.run last = .ok step ∧
          step.value = .filled ⟨granted, if granted.isSome then
            (Standing.live last.epoch count).settle written last.epoch else .ok 0⟩ := by
  obtain ⟨hguard, hexact, hend⟩ := hrun.guarded_exact hnew hown hlimit
  have hstanding := hrun.standing hnew hown hlimit
  rw [← hstanding]
  refine ⟨?_, ?_, ?_, ?_⟩
  · intro count
    obtain ⟨step, hcommit, hvalue, -⟩ := Buffer.commit_standing hguard hexact hend count
    exact ⟨_, Buffer.run_answer hcommit Answer.settled, congrArg Answer.settled hvalue⟩
  · intro issued hissued
    exact Buffer.epoch_ne_of_stale hend hissued
  · refine ⟨_, Buffer.run_answer (Buffer.run_abandon last) Answer.flag, ?_⟩
    rw [Buffer.isSome_standing]
  · intro count filling written
    obtain ⟨step, room, hreserve, hvalue⟩ :=
      Buffer.reserveWith_settles hguard.ordered count fun _ => (filling, written)
    exact ⟨_, room, Buffer.run_answer hreserve Answer.filled, congrArg Answer.filled hvalue⟩

/-- A writer of two bytes reserved three and then wanted to go to a place its store will not reach. The refusal alone
    has made the reservation `stale`: a `commit` of a single byte is told so, with both epochs. -/
theorem reservation_protocol_refused :
    ∃ (entries : List (Entry SmallBytes UInt8)) (first last : Buffer SmallBytes)
        (step : Step (Buffer SmallBytes) Event (Answer SmallBytes UInt8)),
      first.New ∧ Run first entries last ∧ OwnTickets entries ∧ EpochsFit entries ∧
        (Operation.commit 1).perform.run last = .ok step ∧ step.value = .settled (.error (.staleLease 1 2)) := by
  let first : Buffer SmallBytes := Buffer.start ⟨#[1, 2]⟩ .writer "w"
  let middle : Buffer SmallBytes :=
    { data := ⟨#[1, 2, 7, 0, 0]⟩, cursor := ⟨2, 2⟩, access := .writer, changes := 1,
      reservation := some ⟨1, 3⟩, label := "w" }
  let last : Buffer SmallBytes := { middle with data := ⟨#[1, 2]⟩, changes := 2 }
  let reserving : Entry SmallBytes UInt8 := ⟨first, .reserve 3 ⟨#[7]⟩, .region (some ⟨#[0, 0, 0]⟩), middle⟩
  let seeking : Entry SmallBytes UInt8 := ⟨middle, .seekTo 100 .writing, .position none, last⟩
  have hnew : first.New := ⟨⟨#[1, 2]⟩, .writing, .writer, "w", rfl, by decide, rfl⟩
  have hreserve : reserving.operation.perform.run first =
      .ok ⟨reserving.answer, middle, [⟨"w", .storeResizing 2 5⟩]⟩ := by
    cbv
  have hseek : seeking.operation.perform.run middle =
      .ok ⟨seeking.answer, last, [⟨"w", .tailDropped 5 2⟩, ⟨"w", .storeResizing 2 100⟩,
        ⟨"w", .growthRefused 2 100⟩, ⟨"w", .seekRejected 100 .writing 2⟩]⟩ := by
    cbv
  have hfirst : reserving.operation.Fits := trivial
  have hsecond : seeking.operation.Fits := by
    show 100 < positionLimit
    decide
  have hrun : Run first [reserving, seeking] last := .next hfirst hreserve (.next hsecond hseek (.done last))
  have hown : OwnTickets [reserving, seeking] := by
    apply OwnTickets.of_none
    intro e he
    rcases List.mem_cons.mp he with rfl | he
    · rfl
    · cases List.mem_singleton.mp he
      rfl
  have hlimit : EpochsFit [reserving, seeking] := by
    intro e he
    rcases List.mem_cons.mp he with rfl | he
    · decide
    · cases List.mem_singleton.mp he
      decide
  have hstanding : standingAfter [reserving, seeking] = .stale 1 := by cbv
  obtain ⟨hcommit, -, -, -⟩ := reservation_protocol hnew hrun hown hlimit
  obtain ⟨step, hperform, hvalue⟩ := hcommit 1
  rw [hstanding] at hvalue
  exact ⟨[reserving, seeking], first, last, step, hnew, hrun, hown, hlimit, hperform, hvalue⟩

end MemStream
