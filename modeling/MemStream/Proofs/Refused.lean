import MemStream.Proofs.Sides
import MemStream.Proofs.Standing

/-!
# `MemStream.Proofs.Refused` — what a refusal leaves

Writes, reservations and the seeks of a writer want room in the store up to some place; where the side, the length or
the place itself is wrong, there is no such place. Room is given in full or not at all. Where it is not given, the buffer
stays as it was, with one exception: the tail goes before the store is asked, and it does not come back if the store
will not grow. So a reservation that reaches beyond the valid elements does not outlive the asking, and that is all that
a refusal can cost.

## Contents
- **Places.** `Buffer.reaches`, `Buffer.yields`, `Buffer.balks`; `Buffer.Overhangs` for a reservation that has a tail.
- **What is left.** `Buffer.balked`, and `Unharmed` for what can be said of it.
- **Writes and reservations.** `AllOrNothing`, `writes_all_or_nothing`.
- **Seeks.** `SparesIff`, `refused_seek_spares_iff`; `not_every_refused_seek_spares` for the exception.
-/

namespace MemStream

open StateAction

namespace Buffer

variable {σ α : Type} [Store σ α] {own : Ticket → Prop} {b : Buffer σ}

/-! ## Places -/

/-- Whether the store, cut off after the `valid` elements, is long enough for the place `p` or ready to become so. -/
def reaches (b : Buffer σ) (p : Nat) : Bool :=
  decide (p ≤ b.valid) || Store.accepts (Store.resize b.data b.valid) p

/-- Whether there is a `place` to reach and the store `reaches` it. -/
def yields (b : Buffer σ) (place : Option Nat) : Bool :=
  place.any b.reaches

/-- Whether there is a `place` to reach and the store does not reach it. -/
def balks (b : Buffer σ) (place : Option Nat) : Bool :=
  place.any fun p => !b.reaches p

/-- Whether a reservation of the present `epoch` reaches beyond the `valid` elements. -/
def Overhangs (b : Buffer σ) : Prop :=
  ∃ r, b.reservation = some r ∧ r.epoch = b.epoch ∧ b.valid < b.head + r.length

/-- The store cut off after the `valid` elements, which counts as one change. -/
def cut (b : Buffer σ) : Buffer σ :=
  { b with data := Store.resize b.data b.valid, changes := b.changes + 1 }

@[simp] theorem yields_none (b : Buffer σ) : b.yields none = false := rfl
@[simp] theorem yields_some (b : Buffer σ) (p : Nat) : b.yields (some p) = b.reaches p := rfl
@[simp] theorem balks_none (b : Buffer σ) : b.balks none = false := rfl
@[simp] theorem balks_some (b : Buffer σ) (p : Nat) : b.balks (some p) = !b.reaches p := rfl

/-- Where there is a tail, a buffer that is `trimmed` is `cut`. -/
theorem trimmed_eq_cut (h : b.valid < b.capacity) : b.trimmed = b.cut :=
  if_pos h

/-- A buffer that is `cut` has no tail. -/
theorem capacity_cut [LawfulStore σ] (b : Buffer σ) : b.cut.capacity = b.cut.valid :=
  Store.size_resize b.data b.valid

/-- A tail is there exactly for a reservation that `Overhangs`. -/
theorem Exact.overhangs_iff (hexact : b.Exact) (hlimit : b.changes < epochLimit) :
    b.Overhangs ↔ b.valid < b.capacity := by
  rw [← Nat.not_le, hexact.untailed_iff hlimit]
  simp [Overhangs]

section

variable [LawfulStore σ]

/-- What a writer asks of the store, it asks when the buffer is `trimmed`. -/
theorem admits_trimmed_eq_reaches (h : b.Ordered) (p : Nat) : b.trimmed.admits p = b.reaches p := by
  rw [admits_trimmed p h, data_trimmed h]
  rfl

/-- A buffer `grants` room at the head if there is a place for it to reach and the store `yields` it. -/
theorem grants_eq_yields (h : b.Ordered) (n : Nat) : b.grants n = b.yields (b.reach? n) := by
  unfold grants reach?
  rw [admits_trimmed_eq_reaches h]
  by_cases hgo : b.canWrite = true ∧ b.head + n < positionLimit
  · simp [hgo]
  · have hno : (b.canWrite && decide (b.head + n < positionLimit)) = false := by simpa using hgo
    rw [hno, if_neg hgo]
    rfl

end

/-! ## What is left -/

/-- What is left where there is no room: `trimmed` if it came to asking the store. -/
def balked (b : Buffer σ) (place : Option Nat) : Buffer σ :=
  if b.balks place then b.trimmed else b

/-- What a refusal of room up to `place` leaves: nothing that can be seen has changed, and nothing else either, unless
    the store `balks` while a reservation `Overhangs` the valid elements. -/
structure Unharmed (b : Buffer σ) (place : Option Nat) (c : Buffer σ) : Prop where
  head : c.head = b.head
  valid : c.valid = b.valid
  access : c.access = b.access
  reservation : c.reservation = b.reservation
  content : c.content = b.content
  label : c.label = b.label
  same : ¬ (b.balks place = true ∧ b.Overhangs) → c = b
  tail : b.balks place = true → b.Overhangs → c = b.cut

theorem balked_of_not_balks {place : Option Nat} (h : b.balks place = false) : b.balked place = b := by
  simp [balked, h]

theorem balked_of_balks {place : Option Nat} (h : b.balks place = true) : b.balked place = b.trimmed := by
  simp [balked, h]

/-- Without a tail, a buffer that is `balked` has nothing to lose. -/
theorem balked_eq_self_of_untailed (h : b.capacity ≤ b.valid) (place : Option Nat) : b.balked place = b := by
  unfold balked
  rw [trimmed_eq_self b h, ite_self]

/-- A refusal changes something exactly where the store `balks` and there was a tail. -/
theorem balked_eq_self_iff (b : Buffer σ) (place : Option Nat) :
    b.balked place = b ↔ ¬ (b.balks place = true ∧ b.valid < b.capacity) := by
  constructor
  · rintro hsame ⟨hbalks, htail⟩
    -- dropping the tail would have been counted
    have hchanges := congrArg Buffer.changes hsame
    rw [balked_of_balks hbalks, changes_trimmed, if_pos htail] at hchanges
    omega
  · intro hnot
    by_cases htail : b.valid < b.capacity
    · have hbalks : b.balks place = false := by simpa using fun hb => hnot ⟨hb, htail⟩
      exact balked_of_not_balks hbalks
    · exact balked_eq_self_of_untailed (Nat.not_lt.mp htail) place

/-- What a refusal changes is that the store is `cut`. -/
theorem balked_eq_cut {place : Option Nat} (h : b.balked place ≠ b) : b.balked place = b.cut := by
  obtain ⟨hbalks, htail⟩ := not_not.mp fun hnot => h ((balked_eq_self_iff b place).mpr hnot)
  rw [balked_of_balks hbalks, trimmed_eq_cut htail]

variable [LawfulStore σ]

/-- Of an `Exact` buffer, what is lost when it is `balked` is the tail of a reservation that `Overhangs`. -/
theorem unharmed_balked (hexact : b.Exact) (hlimit : b.changes < epochLimit) (place : Option Nat) :
    b.Unharmed place (b.balked place) := by
  have hoverhangs := hexact.overhangs_iff hlimit
  cases hbalks : b.balks place with
  | false =>
      rw [balked_of_not_balks hbalks]
      exact ⟨rfl, rfl, rfl, rfl, rfl, rfl, fun _ => rfl, fun h => by simp [hbalks] at h⟩
  | true =>
      rw [balked_of_balks hbalks]
      refine ⟨head_trimmed b, valid_trimmed b, access_trimmed b, reservation_trimmed b, content_trimmed b,
        label_trimmed b, ?_, ?_⟩
      · intro hnot
        apply trimmed_eq_self
        rw [hoverhangs] at hnot
        simpa [hbalks] using hnot
      · intro _ hover
        exact trimmed_eq_cut (hoverhangs.mp hover)

/-! ## Writes and reservations -/

/-- With room (`yields`), an operation answers `full`; without it, the answer is `nothing` and the buffer is
    `Unharmed`. -/
def AllOrNothing (b : Buffer σ) (operation : Operation σ α) (full nothing : Answer σ α) : Prop :=
  ∃ step, operation.perform.run b = .ok step ∧
    if b.yields (operation.place? b) then step.value = full
    else step.value = nothing ∧ b.Unharmed (operation.place? b) step.state

/-- The run of `write`, told by the place it wants to reach. -/
theorem run_write_yields (h : b.Ordered) (elements : σ) :
    ∃ events, (write elements).run b = .ok
      (if b.yields ((Operation.write elements).place? b) then ⟨Store.size elements, b.written elements, events⟩
      else ⟨0, b.balked ((Operation.write elements).place? b), events⟩) := by
  have hplace : (Operation.write elements).place? b =
      if 0 < Store.size elements then b.reach? (Store.size elements) else none := rfl
  rw [run_write h, hplace]
  by_cases hgo : b.canWrite = true ∧ 0 < Store.size elements
  · rw [if_pos hgo, if_pos hgo.2]
    by_cases hlimit : b.head + Store.size elements < positionLimit
    · have hreach : b.reach? (Store.size elements) = some (b.head + Store.size elements) := if_pos ⟨hgo.1, hlimit⟩
      rw [if_pos hlimit, hreach, admits_trimmed_eq_reaches h, yields_some]
      cases hreaches : b.reaches (b.head + Store.size elements) with
      | true => exact ⟨_, rfl⟩
      | false =>
          rw [balked_of_balks (by simp [hreaches])]
          exact ⟨_, rfl⟩
    · have hreach : b.reach? (Store.size elements) = none := if_neg fun hroom => hlimit hroom.2
      rw [if_neg hlimit, hreach]
      exact ⟨_, rfl⟩
  · have hreach : (if 0 < Store.size elements then b.reach? (Store.size elements) else none) = none := by
      split
      · next hsize => exact if_neg fun hroom => hgo ⟨hroom.1, hsize⟩
      · rfl
    rw [if_neg hgo, hreach]
    exact ⟨_, rfl⟩

/-- Where room is `denied`, a reservation leaves what any refusal leaves. -/
theorem denied_eq_balked (h : b.Ordered) {n : Nat} (hg : b.grants n = false) : b.denied n = b.balked (b.reach? n) := by
  unfold denied
  split
  · next hgo =>
      have hreach : b.reach? n = some (b.head + n) := if_pos hgo
      rw [grants_eq_yields h, hreach, yields_some] at hg
      rw [hreach, balked_of_balks (by simp [hg])]
  · next hgo =>
      have hreach : b.reach? n = none := if_neg hgo
      rw [hreach]
      rfl

/-- The run of `reserveAndFill`, told by the place it wants to reach. -/
theorem run_reserve_yields (h : b.Ordered) (n : Nat) (filling : σ) :
    ∃ events, (reserveAndFill n filling).run b = .ok
      (if b.yields (b.reach? n) then ⟨some (b.room n), b.filled n filling, events⟩
      else ⟨none, b.balked (b.reach? n), events⟩) := by
  rw [run_reserveAndFill h, ← grants_eq_yields h]
  cases hg : b.grants n with
  | true => exact ⟨_, rfl⟩
  | false =>
      rw [denied_eq_balked h hg]
      exact ⟨_, rfl⟩

theorem allOrNothing_write (h : b.Ordered) (hexact : b.Exact) (hlimit : b.changes < epochLimit) (elements : σ) :
    b.AllOrNothing (.write elements) (.count (Store.size elements)) (.count 0) := by
  obtain ⟨events, hrun⟩ := run_write_yields h elements
  refine ⟨_, run_answer hrun _, ?_⟩
  split
  · rfl
  · exact ⟨rfl, unharmed_balked hexact hlimit _⟩

/-- One element is written as a run of one, so `writeOne` is `AllOrNothing` as `write` is. -/
theorem allOrNothing_writeOne (h : b.Ordered) (hexact : b.Exact) (hlimit : b.changes < epochLimit) (a : α) :
    b.AllOrNothing (.writeOne a) (.element (some a)) (.element none) := by
  obtain ⟨events, hrun⟩ := run_write_yields h (Store.single a : σ)
  have hplace : (Operation.write (Store.single a : σ)).place? b = (Operation.writeOne a : Operation σ α).place? b := by
    show (if 0 < Store.size (Store.single a : σ) then b.reach? (Store.size (Store.single a : σ)) else none) = b.reach? 1
    rw [Store.size_single, if_pos Nat.one_pos]
  rw [hplace, Store.size_single] at hrun
  have hone := run_writeOne a b
  rw [hrun] at hone
  refine ⟨_, run_answer hone _, ?_⟩
  split
  · rfl
  · exact ⟨rfl, unharmed_balked hexact hlimit _⟩

theorem allOrNothing_reserve (h : b.Ordered) (hexact : b.Exact) (hlimit : b.changes < epochLimit) (n : Nat)
    (filling : σ) : b.AllOrNothing (.reserve n filling) (.region (some (b.room n))) (.region none) := by
  obtain ⟨events, hrun⟩ := run_reserve_yields h n filling
  refine ⟨_, run_answer hrun _, ?_⟩
  show if b.yields (b.reach? n) then _ else _
  split
  · rfl
  · exact ⟨rfl, unharmed_balked hexact hlimit _⟩

/-! ## Seeks -/

/-- Whether the head can go to `p`: for reading among the valid elements and to their end, for writing wherever the
    store `reaches`. -/
def seekable (b : Buffer σ) (direction : Directions) (p : Nat) : Bool :=
  direction.reads && b.canRead && decide (p ≤ b.valid) || direction.writes && b.canWrite && b.reaches p

/-- The position that a seek reaches, if its target is one and it is `seekable`. -/
def sought? (b : Buffer σ) (position : Option Nat) (direction : Directions) : Option Nat :=
  position.filter (b.seekable direction)

/-- A seek answers with the position it `reached`. If it reached none, the buffer is as it was, but for a tail that went
    before the store `balks`. -/
def SparesIff (b : Buffer σ) (operation : Operation σ α) (reached : Option Nat) : Prop :=
  ∃ step, operation.perform.run b = .ok step ∧ step.value = .position reached ∧
    (reached = none →
      (step.state = b ↔ ¬ (b.balks (operation.place? b) = true ∧ b.valid < b.capacity)) ∧
        (step.state ≠ b → step.state = b.cut))

/-- The run of `seekTo`, told by the position that is `sought?`. -/
theorem run_seekTo_sought (h : b.Ordered) {p : Nat} (hp : p < positionLimit) (direction : Directions) :
    ∃ step, (seekTo p direction).run b = .ok step ∧ step.value = b.sought? (some p) direction ∧
      (step.value = none → step.state = b.balked (b.goal? (some p) direction)) := by
  rw [run_seekTo h hp, sought?, Option.filter_some]
  unfold seekable goal?
  by_cases hread : direction.reads = true ∧ b.canRead = true ∧ p ≤ b.valid
  · rw [if_pos hread]
    exact ⟨_, rfl, by simp [hread], nofun⟩
  · have hnot : (direction.reads && b.canRead && decide (p ≤ b.valid)) = false := by simpa [and_assoc] using hread
    rw [if_neg hread, hnot, Bool.false_or]
    by_cases hwrite : direction.writes = true ∧ b.canWrite = true
    · rw [if_pos hwrite, if_pos hwrite, admits_trimmed_eq_reaches h]
      cases hreaches : b.reaches p with
      | true => exact ⟨_, rfl, by simp [hwrite], nofun⟩
      | false => exact ⟨_, rfl, by simp, fun _ => (balked_of_balks (by simp [hreaches])).symm⟩
    · have hneither : (direction.writes && b.canWrite) = false := by simpa using hwrite
      rw [if_neg hwrite, if_neg hwrite]
      exact ⟨_, rfl, by simp [hneither], fun _ => rfl⟩

/-- The run of `seek` is that of `seekTo` to where its target resolves. -/
theorem run_seek_sought (h : b.Ordered) (target : Target) (direction : Directions) :
    ∃ step, (seek target direction).run b = .ok step ∧
      step.value = b.sought? (target.position? b.cursor) direction ∧
      (step.value = none → step.state = b.balked (b.goal? (target.position? b.cursor) direction)) := by
  rw [run_seek]
  cases ht : target.position? b.cursor with
  | some p => exact run_seekTo_sought h (Target.position?_eq_some_iff.mp ht).2 direction
  | none =>
      have hgoal : b.goal? none direction = none := ite_self none
      rw [hgoal]
      exact ⟨_, rfl, rfl, fun _ => rfl⟩

omit [LawfulStore σ] in
/-- An operation that seeks spares the buffer if what it leaves on a refusal is `balked`. -/
theorem sparesIff_of_run {x : BufferAction σ (Option Nat)} {operation : Operation σ α} {reached : Option Nat}
    (hoperation : operation.perform = x >>= fun value => pure (.position value))
    (hx : ∃ step, x.run b = .ok step ∧ step.value = reached ∧
      (step.value = none → step.state = b.balked (operation.place? b))) : b.SparesIff operation reached := by
  obtain ⟨step, hrun, rfl, hstate⟩ := hx
  refine ⟨_, hoperation ▸ run_answer hrun Answer.position, rfl, fun hnone => ?_⟩
  simp only [hstate hnone]
  exact ⟨balked_eq_self_iff b _, balked_eq_cut⟩

omit [LawfulStore σ] in
/-- Of a buffer that can be read, no room is ever wanted, so its store never `balks`. -/
theorem balks_goal?_of_canRead (hcoherent : b.access.Coherent) (hr : b.canRead = true) (position : Option Nat)
    (direction : Directions) : b.balks (b.goal? position direction) = false := by
  have hw : b.canWrite = false := hcoherent.writeOpen_eq_false hr
  simp [goal?, hw]

/-- Once the tail is `cut` off, a reservation that had been good is stale. -/
theorem commit_cut_stale {r : Reservation} (hres : b.reservation = some r) (hepoch : r.epoch = b.epoch) (count : Nat) :
    (commit count).run b.cut = .ok ⟨.error (.staleLease r.epoch b.cut.epoch), b.cut.abandoned, []⟩ := by
  have hone : b.cut.changes = b.changes + 1 := rfl
  have hmany : 1 < epochLimit := by decide
  have hne : r.epoch ≠ b.cut.epoch := by
    rw [hepoch]
    exact (epoch_ne_of_changes (by omega) (by omega)).symm
  have huntailed : b.cut.unreserved.capacity ≤ b.cut.unreserved.valid := Nat.le_of_eq (capacity_cut b)
  have hsame : b.cut.abandoned = b.cut.unreserved := trimmed_eq_self _ huntailed
  have hquiet : b.cut.unreserved.trimEvents = [] := if_neg (Nat.not_lt.mpr huntailed)
  rw [run_commit_stale (b := b.cut) hres hne, hquiet, hsame]
  rfl

end Buffer

/-! ## Runs -/

section Runs

variable {σ α : Type} [Store σ α] [LawfulStore σ] {entries : List (Entry σ α)} {first last : Buffer σ}

/-- **Writes and reservations are `AllOrNothing`.** Whatever was done to a new buffer, with its own tickets and short of
    the last epoch: a run of elements is written in full or not at all, one element likewise, and the room of a
    reservation is as long as asked for or there is none. They go through exactly if there is a `place?` to reach (the
    writing side is open, the length is not zero for a write, and the place is a position) and the store `yields` it.
    Otherwise the buffer is `Unharmed`: head, valid elements, sides and reservation are as they were; the rest is as it
    was, too, unless the store was asked in vain while a reservation `Overhangs` the valid elements, and then the store
    is cut off after them and the epoch has moved on by one. -/
theorem writes_all_or_nothing (hnew : first.New) (hrun : Run first entries last) (hown : OwnTickets entries)
    (hlimit : EpochsFit entries) :
    (∀ elements : σ, last.AllOrNothing (.write elements) (.count (Store.size elements)) (.count 0)) ∧
      (∀ a : α, last.AllOrNothing (.writeOne a) (.element (some a)) (.element none)) ∧
      ∀ (n : Nat) (filling : σ), ∃ region : σ, Store.size region = n ∧
        last.AllOrNothing (.reserve n filling) (.region (some region)) (.region none) := by
  obtain ⟨hguard, hexact, hend⟩ := hrun.guarded_exact hnew hown hlimit
  refine ⟨?_, ?_, ?_⟩
  · intro elements
    exact Buffer.allOrNothing_write hguard.ordered hexact hend elements
  · intro a
    exact Buffer.allOrNothing_writeOne hguard.ordered hexact hend a
  · intro n filling
    exact ⟨last.room n, Buffer.size_room hguard.ordered n,
      Buffer.allOrNothing_reserve hguard.ordered hexact hend n filling⟩

/-- **What a refused seek spares.** Whatever was done to a new buffer, with whatever tickets:
    - a seek answers with its position where that is `seekable`, and is refused elsewhere; a refused one leaves the
      buffer as it was exactly if the store was not asked in vain (`balks`) or there was no tail, and otherwise the
      store is `cut` off after the valid elements and the epoch has moved on by one;
    - no refusal touches a buffer that can be read, nor the leases on it;
    - of a buffer that settled its own tickets and is short of the last epoch, there is a tail exactly for a reservation
      that `Overhangs` the valid elements, and once that tail is cut off, every `commit` is told that the reservation is
      stale. -/
theorem refused_seek_spares_iff (hnew : first.New) (hrun : Run first entries last) :
    (∀ p direction, p < positionLimit →
        last.SparesIff (.seekTo p direction : Operation σ α) (last.sought? (some p) direction)) ∧
      (∀ target direction, last.SparesIff (.seek target direction : Operation σ α)
        (last.sought? (target.position? last.cursor) direction)) ∧
      (last.canRead = true → ∀ position direction, last.balks (last.goal? position direction) = false) ∧
      (OwnTickets entries → EpochsFit entries →
        (last.valid < last.capacity ↔ last.Overhangs) ∧
          ∀ r, last.reservation = some r → r.epoch = last.epoch → ∀ count, ∃ step,
            (Operation.commit count : Operation σ α).perform.run last.cut = .ok step ∧
              step.value = .settled (.error (.staleLease r.epoch last.cut.epoch))) := by
  have hordered := (hrun.neat hnew.neat).ordered
  refine ⟨?_, ?_, ?_, ?_⟩
  · intro p direction hp
    exact Buffer.sparesIff_of_run rfl (Buffer.run_seekTo_sought hordered hp direction)
  · intro target direction
    exact Buffer.sparesIff_of_run rfl (Buffer.run_seek_sought hordered target direction)
  · intro hr
    exact Buffer.balks_goal?_of_canRead (hnew.coherent.narrows (hrun.narrows hnew.neat)) hr
  · intro hown hlimit
    obtain ⟨-, hexact, hend⟩ := hrun.guarded_exact hnew hown hlimit
    refine ⟨(hexact.overhangs_iff hend).symm, ?_⟩
    intro r hres hepoch count
    exact ⟨_, Buffer.run_answer (Buffer.commit_cut_stale hres hepoch count) Answer.settled, rfl⟩

end Runs

/-! ## A writer with a tail -/

/-- A writer of two `SmallBytes` that reserved three and filled one of them. -/
def Buffer.overhanging : Buffer SmallBytes :=
  { data := ⟨#[1, 2, 7, 0, 0]⟩, cursor := ⟨2, 2⟩, access := .writer, changes := 1, reservation := some ⟨1, 3⟩,
    label := "w" }

/-- The state `overhanging` is reached from a new buffer by one `reserve`. -/
theorem run_overhanging :
    ∃ (first : Buffer SmallBytes) (entries : List (Entry SmallBytes UInt8)),
      first.New ∧ Run first entries .overhanging ∧ OwnTickets entries ∧ EpochsFit entries := by
  let first : Buffer SmallBytes := Buffer.start ⟨#[1, 2]⟩ .writer "w"
  let entry : Entry SmallBytes UInt8 := ⟨first, .reserve 3 ⟨#[7]⟩, .region (some ⟨#[0, 0, 0]⟩), .overhanging⟩
  have hnew : first.New := ⟨⟨#[1, 2]⟩, .writing, .writer, "w", rfl, by decide, rfl⟩
  have hperform : entry.operation.perform.run first =
      .ok ⟨entry.answer, .overhanging, [⟨"w", .storeResizing 2 5⟩]⟩ := by
    cbv
  have hfits : entry.operation.Fits := trivial
  refine ⟨first, [entry], hnew, .next hfits hperform (.done _), .of_none ?_, ?_⟩
  · intro e he
    cases List.mem_singleton.mp he
    rfl
  · intro e he
    cases List.mem_singleton.mp he
    decide

/-- A writer that is `overhanging` refuses to `write` thirty-one bytes more, of which its store has no room for the last
    one. The two valid bytes are still there and the reservation is on record, but its three bytes are gone. -/
theorem writes_all_or_nothing_overhanging :
    ∃ (first : Buffer SmallBytes) (entries : List (Entry SmallBytes UInt8))
        (step : Step (Buffer SmallBytes) Event (Answer SmallBytes UInt8)),
      first.New ∧ Run first entries .overhanging ∧ OwnTickets entries ∧ EpochsFit entries ∧
        (Operation.write ⟨Array.replicate 31 9⟩).perform.run .overhanging = .ok step ∧ step.value = .count 0 ∧
        step.state.content = [1, 2] ∧ step.state.reservation = some ⟨1, 3⟩ ∧ step.state.capacity = 2 := by
  obtain ⟨first, entries, hnew, hrun, hown, hlimit⟩ := run_overhanging
  obtain ⟨hwrite, -, -⟩ := writes_all_or_nothing hnew hrun hown hlimit
  obtain ⟨step, hstep, houtcome⟩ := hwrite ⟨Array.replicate 31 9⟩
  have hno : ¬ Buffer.overhanging.yields
      ((Operation.write ⟨Array.replicate 31 9⟩ : Operation SmallBytes UInt8).place? .overhanging) = true := by
    decide
  rw [if_neg hno] at houtcome
  obtain ⟨hvalue, hunharmed⟩ := houtcome
  have hcut := hunharmed.tail (by decide) ⟨⟨1, 3⟩, rfl, by decide, by decide⟩
  exact ⟨first, entries, step, hnew, hrun, hown, hlimit, hstep, hvalue, hunharmed.content, hunharmed.reservation,
    congrArg Buffer.capacity hcut⟩

/-- A writer that is `overhanging` refuses to go to place 100, for reading because it is a writer, and for writing
    because its `SmallBytes` end at 32. The first refusal leaves it as it was, and the second does not. -/
theorem refused_seek_spares_iff_overhanging :
    ∃ (first : Buffer SmallBytes) (entries : List (Entry SmallBytes UInt8))
        (reading writing : Step (Buffer SmallBytes) Event (Answer SmallBytes UInt8)),
      first.New ∧ Run first entries .overhanging ∧
        (Operation.seekTo 100 .reading).perform.run .overhanging = .ok reading ∧ reading.value = .position none ∧
        reading.state = .overhanging ∧
        (Operation.seekTo 100 .writing).perform.run .overhanging = .ok writing ∧ writing.value = .position none ∧
        writing.state = Buffer.overhanging.cut := by
  obtain ⟨first, entries, hnew, hrun, -, -⟩ := run_overhanging
  obtain ⟨hseek, -⟩ := refused_seek_spares_iff hnew hrun
  have hp : 100 < positionLimit := by decide
  obtain ⟨reading, hreading, hvalue, hspares⟩ := hseek 100 .reading hp
  obtain ⟨writing, hwriting, hvalue', hspares'⟩ := hseek 100 .writing hp
  have hnone : Buffer.overhanging.sought? (some 100) .reading = none := by decide
  have hnone' : Buffer.overhanging.sought? (some 100) .writing = none := by decide
  have hsame := (hspares hnone).1.mpr (by decide)
  have hcut := (hspares' hnone').2 fun hsame' => (hspares' hnone').1.mp hsame' (by decide)
  exact ⟨first, entries, reading, writing, hnew, hrun, hreading, hnone ▸ hvalue, hsame, hwriting, hnone' ▸ hvalue', hcut⟩

/-- So it is not true that a refused `seekTo` changes nothing: this one takes the tail of a reservation that could have
    been committed. -/
theorem not_every_refused_seek_spares :
    ¬ ∀ (first last : Buffer SmallBytes) (entries : List (Entry SmallBytes UInt8)) (p : Nat) (direction : Directions)
        (step : Step (Buffer SmallBytes) Event (Answer SmallBytes UInt8)),
      first.New → Run first entries last → OwnTickets entries → EpochsFit entries → p < positionLimit →
        (Operation.seekTo p direction).perform.run last = .ok step → step.value = .position none →
        step.state = last := by
  intro hall
  obtain ⟨first, entries, hnew, hrun, hown, hlimit⟩ := run_overhanging
  have hseek : (Operation.seekTo 100 .writing : Operation SmallBytes UInt8).perform.run .overhanging =
      .ok ⟨.position none, Buffer.overhanging.cut, [⟨"w", .tailDropped 5 2⟩, ⟨"w", .storeResizing 2 100⟩,
        ⟨"w", .growthRefused 2 100⟩, ⟨"w", .seekRejected 100 .writing 2⟩]⟩ := by
    cbv
  have hsame := hall first .overhanging entries 100 .writing _ hnew hrun hown hlimit (by decide) hseek rfl
  exact absurd (congrArg Buffer.changes hsame) (by decide)

end MemStream
