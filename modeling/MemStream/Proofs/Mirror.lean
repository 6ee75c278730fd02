import MemStream.Proofs.Draft
import MemStream.Proofs.Tail

/-!
# `MemStream.Proofs.Mirror` — a writer does what a draft does

A writer mirrors a draft if its valid elements are the content, its head is the position, and its tail is what the draft
keeps aside for a reservation. Every request keeps it so and is answered alike by both.

## Contents
- **The relation.** `Mirrors`.
- **Effects.** What each effect on a writer does to the draft it mirrors (`Mirrors.written`, `Mirrors.sought`, …).
- **Requests and runs.** `Mirrors.perform`, `writer_mirrors_draft`.
-/

namespace MemStream

open StateAction

variable {σ α : Type} [Store σ α]

/-! ## The relation -/

/-- The reservation of a buffer is the `Pending` one of a draft, and its tail is what is kept aside. -/
def Holds (b : Buffer σ) : Pending σ → Prop
  | .none => b.reservation = none
  | .stale => ∃ r, b.reservation = some r ∧ ¬ b.Live r
  | .live length aside =>
      ∃ r, b.Live r ∧ r.length = length ∧ Store.toList aside = (Store.toList b.data).drop b.valid

/-- A writer that shows the state of a `Draft`: it is `Guarded`, `Exact` and cannot be read, its head is where the draft
    is, and its `content` is the draft's. -/
structure Mirrors (b : Buffer σ) (d : Draft σ) : Prop where
  guarded : b.Guarded fun _ => False
  exact : b.Exact
  deaf : b.canRead = false
  isOpen : b.canWrite = d.isOpen
  position : b.head = d.position
  content : b.content = Store.toList d.content
  pending : Holds b d.pending

variable [LawfulStore σ] {b c : Buffer σ} {d : Draft σ}

theorem Mirrors.size_content (h : Mirrors b d) : Store.size d.content = b.valid := by
  rw [← Store.length_toList, ← h.content]
  exact Buffer.length_content h.guarded.ordered

/-- A draft that is mirrored has its `position` in its `content`, or behind it. -/
theorem Mirrors.position_le (h : Mirrors b d) : d.position ≤ Store.size d.content := by
  rw [← h.position, h.size_content]
  exact h.guarded.ordered.head_le

/-- Once the buffer is `trimmed`, its store is the `content` of the draft. -/
theorem Mirrors.data_trimmed (h : Mirrors b d) : b.trimmed.data = d.content :=
  Store.ext_toList ((Buffer.toList_trimmed b).trans h.content)

/-- Once the buffer is `extended`, its store is the `padded` content. -/
theorem Mirrors.data_extended (h : Mirrors b d) (p : Nat) : (b.extended p).data = d.padded p := by
  rw [Buffer.data_extended p h.guarded.ordered, h.data_trimmed]
  rfl

/-- A buffer and a draft ask the store the same question, `admits` and `accepts`. -/
theorem Mirrors.admits (h : Mirrors b d) (p : Nat) : b.trimmed.admits p = d.accepts p := by
  rw [Buffer.admits_trimmed p h.guarded.ordered]
  unfold Draft.accepts
  rw [h.data_trimmed, h.size_content]

/-! ## Reservations -/

omit [LawfulStore σ] in
/-- Once the epoch has moved on, a reservation that was not taken out is `stale`. -/
theorem Holds.outdated {own : Ticket → Prop} {p : Pending σ} (h : Holds b p) (hguard : b.Guarded own)
    (hlt : b.changes < c.changes) (hres : c.reservation = b.reservation) : Holds c p.outdated := by
  have hstale : ∀ r, ¬ c.Live r := hguard.not_live hlt fun r hr => hres.symm.trans hr
  cases p with
  | none => exact hres.trans h
  | stale =>
      obtain ⟨r, hr, -⟩ := h
      exact ⟨r, hres.trans hr, hstale r⟩
  | live length aside =>
      obtain ⟨r, hlive, -, -⟩ := h
      exact ⟨r, hres.trans hlive.1, hstale r⟩

omit [LawfulStore σ] in
theorem Holds.isSome {p : Pending σ} (h : Holds b p) : b.reservation.isSome = p.isSome := by
  cases p with
  | none =>
      rw [show b.reservation = none from h]
      rfl
  | stale =>
      obtain ⟨r, hr, -⟩ := h
      rw [hr]
      rfl
  | live length aside =>
      obtain ⟨r, hlive, -, -⟩ := h
      rw [hlive.1]
      rfl

/-- What is kept `aside` is as long as the tail. -/
theorem size_aside (hvalid : b.valid ≤ b.capacity) {aside : σ}
    (haside : Store.toList aside = (Store.toList b.data).drop b.valid) : b.valid + Store.size aside = b.capacity := by
  unfold Buffer.capacity at *
  rw [← Store.length_toList aside, haside, List.length_drop, Store.length_toList]
  omega

/-- When the tail goes, so does a reservation that needed it: `Pending.refused`. -/
theorem Holds.trimmed (hguard : b.Guarded fun _ => False) {p : Pending σ} (h : Holds b p) :
    Holds b.trimmed p.refused := by
  by_cases htail : b.valid < b.capacity
  · -- the tail goes and the epoch moves on, which is what makes the reservation stale on both sides
    have hlt : b.changes < b.trimmed.changes := by
      rw [Buffer.changes_trimmed, if_pos htail]
      exact Nat.lt_succ_self _
    have hold := h.outdated hguard hlt (Buffer.reservation_trimmed b)
    cases p with
    | none => exact hold
    | stale => exact hold
    | live length aside =>
        obtain ⟨r, -, -, haside⟩ := h
        have hsize := size_aside hguard.ordered.valid_le haside
        rw [show (Pending.live length aside).refused = .stale from if_pos (by omega)]
        exact hold
  · -- without a tail nothing is kept aside either, and both sides stay as they are
    rw [Buffer.trimmed_eq_self b (Nat.not_lt.mp htail)]
    cases p with
    | none => exact h
    | stale => exact h
    | live length aside =>
        obtain ⟨r, hlive, hlength, haside⟩ := h
        have hsize := size_aside hguard.ordered.valid_le haside
        rw [show (Pending.live length aside).refused = .live length aside from if_neg (by omega)]
        exact ⟨r, hlive, hlength, haside⟩

/-! ## Effects -/

/-- What a chain of `Changes` leaves is `Guarded` and `Exact`; what is left to show is what a caller sees. -/
theorem Mirrors.of_changes {d' : Draft σ} (h : Mirrors b d) (hchanges : Buffer.Changes b c)
    (hlimit : c.changes < epochLimit) (hopen : c.canWrite = d'.isOpen) (hposition : c.head = d'.position)
    (hcontent : c.content = Store.toList d'.content) (hpending : Holds c d'.pending) : Mirrors c d' where
  guarded := hchanges.guarded h.guarded
  exact := hchanges.exact h.guarded hlimit h.exact
  deaf := by
    cases hr : c.canRead with
    | false => rfl
    | true => exact (hchanges.narrows.readOpen hr).symm.trans h.deaf
  isOpen := hopen
  position := hposition
  content := hcontent
  pending := hpending

theorem Mirrors.refused (h : Mirrors b d) (hlimit : b.trimmed.changes < epochLimit) : Mirrors b.trimmed d.refused := by
  refine h.of_changes (.single .trim) hlimit ?_ ?_ ?_ (h.pending.trimmed h.guarded)
  · rw [Buffer.canWrite_trimmed]
    exact h.isOpen
  · rw [Buffer.head_trimmed]
    exact h.position
  · exact (Buffer.content_trimmed b).trans h.content

/-- A buffer that is `written` mirrors the draft that is. -/
theorem Mirrors.written (h : Mirrors b d) (hw : b.canWrite = true) {elements : σ}
    (hstop : b.head + Store.size elements < positionLimit) (hlimit : (b.written elements).changes < epochLimit) :
    Mirrors (b.written elements) (d.written elements) := by
  refine h.of_changes (.single (.write elements hw hstop)) hlimit ?_ ?_ ?_ ?_
  · exact (Buffer.canWrite_extended b _).trans h.isOpen
  · exact congrArg (· + Store.size elements) h.position
  · -- a write leaves no tail, so the content is the whole store, with the elements laid over it
    rw [Buffer.content_eq_toList (Nat.le_of_eq (Buffer.capacity_written h.guarded.ordered hw elements))]
    rw [Buffer.data_written h.guarded.ordered, h.data_trimmed, h.position]
    rfl
  · exact h.pending.outdated h.guarded (Buffer.changes_lt_written b elements) (Buffer.reservation_extended b _)

theorem Mirrors.sought (h : Mirrors b d) (hw : b.canWrite = true) {p : Nat} (hp : p < positionLimit)
    (hlimit : ((b.extended p).moved p).changes < epochLimit) :
    Mirrors ((b.extended p).moved p) (d.sought p) := by
  refine h.of_changes (.single (.seek p hw hp)) hlimit ?_ rfl ?_ ?_
  · exact (Buffer.canWrite_extended b _).trans h.isOpen
  · rw [Buffer.content_eq_toList (Nat.le_of_eq (Buffer.capacity_sought h.guarded.ordered hw p)), Buffer.data_moved,
      h.data_extended]
    rfl
  · exact h.pending.outdated h.guarded (Buffer.changes_lt_sought b p) (Buffer.reservation_extended b p)

theorem Mirrors.abandoned (h : Mirrors b d) (hlimit : b.abandoned.changes < epochLimit) :
    Mirrors b.abandoned { d with pending := .none } := by
  refine h.of_changes (.single .abandon) hlimit ?_ ?_ ?_ ?_
  · exact (Buffer.canWrite_trimmed _).trans h.isOpen
  · exact (Buffer.head_trimmed _).trans h.position
  · exact (Buffer.content_trimmed b.unreserved).trans h.content
  · exact Buffer.reservation_trimmed _

omit [LawfulStore σ] in
/-- Of a writer, only the writing side can be closed, and a draft has no other. -/
theorem Mirrors.closes_iff (h : Mirrors b d) (direction : Directions) :
    b.access.closes direction = true ↔ direction.writes = true ∧ d.isOpen = true := by
  show ((direction.reads && b.canRead) || (direction.writes && b.canWrite)) = true ↔ _
  rw [h.deaf, h.isOpen, Bool.and_false, Bool.false_or, Bool.and_eq_true]

theorem Mirrors.closed (h : Mirrors b d) {direction : Directions} (hc : b.access.closes direction = true)
    (hlimit : (b.closed direction).changes < epochLimit) :
    Mirrors (b.closed direction) { d with isOpen := false, pending := .none } := by
  have hwrites := ((h.closes_iff direction).mp hc).1
  refine h.of_changes (.single (.close direction hc)) hlimit ?_ ?_ ?_ ?_
  · rw [Buffer.closed_of_closes hc, Buffer.canWrite_trimmed]
    show (b.access.writeOpen && !direction.writes) = false
    rw [hwrites, Bool.not_true, Bool.and_false]
  · rw [Buffer.closed_of_closes hc]
    exact (Buffer.head_trimmed _).trans h.position
  · exact (Buffer.content_closed b direction).trans h.content
  · rw [Buffer.closed_of_closes hc]
    exact Buffer.reservation_trimmed _

theorem Mirrors.close (h : Mirrors b d) (direction : Directions) (hlimit : (b.closed direction).changes < epochLimit) :
    Mirrors (b.closed direction) (d.close direction).2 := by
  unfold Draft.close
  by_cases hc : b.access.closes direction = true
  · rw [if_pos ((h.closes_iff direction).mp hc)]
    exact h.closed hc hlimit
  · rw [if_neg fun hgo => hc ((h.closes_iff direction).mpr hgo), Buffer.closed_eq_self (eq_false_of_ne_true hc)]
    exact h

/-- A closed writer has nothing reserved that could be lost with its elements, so it `Mirrors` the empty draft. -/
theorem Mirrors.emptied (h : Mirrors b d) (hopen : b.isOpen = false) (hlimit : b.trimmed.changes < epochLimit) :
    Mirrors { b.trimmed with cursor := .zero, data := Store.empty }
      { d with content := Store.empty, position := 0 } := by
  have hidle : ∀ r, ¬ b.Live r := by
    intro r hr
    have hw := (h.guarded.live r hr).1
    rw [show b.canWrite = false from (Bool.or_eq_false_iff.mp hopen).2] at hw
    cases hw
  have htrim : b.trimmed = b := Buffer.trimmed_eq_self b (Nat.le_of_eq (h.exact.idle hidle))
  refine h.of_changes (.single (.empty hopen)) hlimit ?_ rfl ?_ ?_
  · exact (Buffer.canWrite_trimmed b).trans h.isOpen
  · exact (List.take_zero).trans Store.toList_empty.symm
  · -- the reservation itself may still be there, but it is stale, and stale it stays
    rw [htrim]
    have hpending := h.pending
    cases hp : d.pending with
    | none =>
        rw [hp] at hpending
        exact hpending
    | stale =>
        rw [hp] at hpending
        exact hpending
    | live length aside =>
        rw [hp] at hpending
        obtain ⟨r, hlive, -, -⟩ := hpending
        exact absurd hlive (hidle r)

/-- What is in the `room` at the head of a writer is what is in the `padded` content. -/
theorem Mirrors.room (h : Mirrors b d) (n : Nat) : b.room n = d.room n := by
  unfold Buffer.room
  rw [h.data_extended, h.position]
  rfl

/-- A filled reservation is laid over the store by `Store.overlay`, whether the store reaches as far or not. -/
theorem Mirrors.data_filled (h : Mirrors b d) (n : Nat) (filling : σ) :
    (b.filled n filling).data = Store.overlay d.content d.position (Store.overlayFront (b.room n) filling) := by
  rw [Buffer.data_filled h.guarded.ordered, h.data_trimmed, h.position]

/-- A buffer that is `filled` mirrors the draft that is: what lies behind the content is kept aside. -/
theorem Mirrors.filled (h : Mirrors b d) {n : Nat} (hw : b.canWrite = true) (hstop : b.head + n < positionLimit)
    (filling : σ) (hlimit : (b.filled n filling).changes < epochLimit) :
    Mirrors (b.filled n filling) (d.filled n filling) := by
  have hroom := h.room n
  have hsize := Buffer.size_overlayFront_room h.guarded.ordered n filling
  have hposition := h.position_le
  have hvalid : (b.filled n filling).valid = Store.size d.content :=
    (Buffer.valid_filled b n filling).trans h.size_content.symm
  refine h.of_changes (.single (.reserve n filling hw hstop)) hlimit ?_ ?_ ?_ ?_
  · exact (Buffer.canWrite_filled b n filling).trans h.isOpen
  · exact (Buffer.head_filled b n filling).trans h.position
  · unfold Buffer.content
    rw [h.data_filled, hvalid, hroom]
    exact Store.take_toList_overlay d.content _ hposition
  · -- what lies behind the content is the tail of the store, and that is what the draft keeps aside
    refine ⟨⟨UInt64.ofNat (b.filled n filling).changes, n⟩, Buffer.live_filled b n filling hlimit, rfl, ?_⟩
    rw [hroom] at hsize
    rw [h.data_filled, hvalid, hroom, Store.drop_toList_overlay d.content _ hposition, LawfulStore.toList_slice,
      List.take_of_length_le]
    rw [List.length_drop, Store.length_toList, hsize]
    exact Nat.sub_le _ _

/-- A buffer that is `committed` mirrors the draft that is: of what was kept aside, as much joins the content as is
    valid now. -/
theorem Mirrors.committed (h : Mirrors b d) {r : Reservation} (hlive : b.Live r) (hepoch : r.epoch = b.epoch)
    {count : Nat} (hcount : count ≤ r.length) {aside : σ}
    (haside : Store.toList aside = (Store.toList b.data).drop b.valid)
    (hlimit : (b.committed count).changes < epochLimit) : Mirrors (b.committed count) (d.committed count aside) := by
  obtain ⟨hw, hroom⟩ := h.guarded.live r hlive
  refine h.of_changes (.single (.commit r count hlive.1 hepoch hw hroom hcount)) hlimit ?_ ?_ ?_ ?_
  · exact (Buffer.canWrite_trimmed _).trans h.isOpen
  · exact (Buffer.head_trimmed _).trans (congrArg (· + count) h.position)
  · -- the content grows by as much of the tail as the head passes by
    refine (Buffer.content_trimmed _).trans ?_
    have hvalid : (b.unreserved.moved (b.head + count)).valid = b.valid + (b.head + count - b.valid) := by
      rw [Buffer.valid_moved, show b.unreserved.canWrite = true from hw, if_pos rfl]
      show max b.valid (b.head + count) = _
      omega
    unfold Buffer.content
    unfold Draft.committed
    rw [hvalid, Buffer.data_moved, LawfulStore.toList_append, LawfulStore.toList_slice, List.drop_zero, haside,
      ← h.content, ← h.position, h.size_content]
    exact List.take_add
  · exact Buffer.reservation_trimmed _

/-! ## Requests -/

/-- An action does not fault, gives the value and leaves the draft that the `outcome` names, if the epochs do not start
    over. -/
def Follows {β : Type} (b : Buffer σ) (x : BufferAction σ β) (outcome : β × Draft σ) : Prop :=
  ∃ step, x.run b = .ok step ∧
    (step.state.changes < epochLimit → step.value = outcome.1 ∧ Mirrors step.state outcome.2)

theorem Mirrors.write (h : Mirrors b d) (elements : σ) : Follows b (Buffer.write elements) (d.write elements) := by
  have hrun := Buffer.run_write h.guarded.ordered elements
  rw [h.isOpen, h.position, h.admits] at hrun
  unfold Follows
  rw [hrun]
  unfold Draft.write
  by_cases hgo : d.isOpen = true ∧ 0 < Store.size elements
  · rw [if_pos hgo]
    by_cases hstop : d.position + Store.size elements < positionLimit
    · have hall : d.isOpen = true ∧ 0 < Store.size elements ∧ d.position + Store.size elements < positionLimit :=
        ⟨hgo.1, hgo.2, hstop⟩
      rw [if_pos hstop, if_pos hall]
      have hw : b.canWrite = true := h.isOpen.trans hgo.1
      cases hasked : d.accepts (d.position + Store.size elements) with
      | true =>
          rw [if_pos rfl, if_pos rfl]
          exact ⟨_, rfl, fun hlimit => ⟨rfl, h.written hw (h.position ▸ hstop) hlimit⟩⟩
      | false =>
          rw [if_neg Bool.false_ne_true, if_neg Bool.false_ne_true]
          exact ⟨_, rfl, fun hlimit => ⟨rfl, h.refused hlimit⟩⟩
    · rw [if_neg hstop, if_neg fun hall => hstop hall.2.2]
      exact ⟨_, rfl, fun _ => ⟨rfl, h⟩⟩
  · rw [if_neg hgo, if_neg fun hall => hgo ⟨hall.1, hall.2.1⟩]
    exact ⟨_, rfl, fun _ => ⟨rfl, h⟩⟩

theorem Mirrors.seekTo (h : Mirrors b d) {p : Nat} (hp : p < positionLimit) (direction : Directions) :
    Follows b (Buffer.seekTo p direction) (d.seekTo p direction) := by
  have hrun := Buffer.run_seekTo h.guarded.ordered hp direction
  rw [h.isOpen, h.deaf, h.admits, if_neg fun hread => Bool.false_ne_true hread.2.1] at hrun
  unfold Follows
  rw [hrun]
  unfold Draft.seekTo
  by_cases hgo : direction.writes = true ∧ d.isOpen = true
  · rw [if_pos hgo, if_pos hgo]
    have hw : b.canWrite = true := h.isOpen.trans hgo.2
    cases hasked : d.accepts p with
    | true =>
        rw [if_pos rfl, if_pos rfl]
        exact ⟨_, rfl, fun hlimit => ⟨rfl, h.sought hw hp hlimit⟩⟩
    | false =>
        rw [if_neg Bool.false_ne_true, if_neg Bool.false_ne_true]
        exact ⟨_, rfl, fun hlimit => ⟨rfl, h.refused hlimit⟩⟩
  · rw [if_neg hgo, if_neg hgo]
    exact ⟨_, rfl, fun _ => ⟨rfl, h⟩⟩

theorem Mirrors.seek (h : Mirrors b d) (target : Target) (direction : Directions) :
    Follows b (Buffer.seek target direction) (d.seek target direction) := by
  have hcursor : b.cursor = ⟨d.position, Store.size d.content⟩ := by
    rw [← h.position, h.size_content]
    rfl
  have hrun := Buffer.run_seek target direction b
  rw [hcursor] at hrun
  unfold Draft.seek
  cases ht : target.position? ⟨d.position, Store.size d.content⟩ with
  | none =>
      rw [ht] at hrun
      exact ⟨_, hrun, fun _ => ⟨rfl, h⟩⟩
  | some p =>
      rw [ht] at hrun
      obtain ⟨step, hstep, hfollows⟩ := h.seekTo (Target.position?_eq_some_iff.mp ht).2 direction
      exact ⟨step, hrun.trans hstep, hfollows⟩

theorem Mirrors.reserve (h : Mirrors b d) (count : Nat) (filling : σ) :
    Follows b (Buffer.reserveAndFill count filling) (d.reserve count filling) := by
  have hrun := Buffer.run_reserveAndFill h.guarded.ordered count filling
  unfold Buffer.grants Buffer.denied at hrun
  rw [h.isOpen, h.position, h.admits] at hrun
  unfold Follows
  rw [hrun]
  unfold Draft.reserve
  by_cases hgo : d.isOpen = true ∧ d.position + count < positionLimit
  · have hw : b.canWrite = true := h.isOpen.trans hgo.1
    rw [if_pos hgo, if_pos hgo, hgo.1, decide_eq_true hgo.2, Bool.true_and, Bool.true_and]
    cases hasked : d.accepts (d.position + count) with
    | true =>
        rw [if_pos rfl, if_pos rfl, h.room]
        exact ⟨_, rfl, fun hlimit => ⟨rfl, h.filled hw (h.position ▸ hgo.2) filling hlimit⟩⟩
    | false =>
        rw [if_neg Bool.false_ne_true, if_neg Bool.false_ne_true]
        exact ⟨_, rfl, fun hlimit => ⟨rfl, h.refused hlimit⟩⟩
  · have hno : ¬ (d.isOpen && decide (d.position + count < positionLimit) &&
        d.accepts (d.position + count)) = true := by
      rw [Bool.and_eq_true, Bool.and_eq_true, decide_eq_true_eq]
      exact fun hall => hgo hall.1
    rw [if_neg hgo, if_neg hno, if_neg hgo]
    exact ⟨_, rfl, fun _ => ⟨rfl, h⟩⟩

/-- Of the answers to a `commit`, the one to a stale reservation is alike but for the epochs (`Answer.blurred`). -/
theorem Mirrors.commit (h : Mirrors b d) (hstart : b.changes < epochLimit) (count : Nat) :
    ∃ step, (Buffer.commit count).run b = .ok step ∧ (step.state.changes < epochLimit →
      (Answer.settled step.value : Answer σ α).blurred = .settled (d.commit count).1 ∧
        Mirrors step.state (d.commit count).2) := by
  have hpending := h.pending
  unfold Draft.commit
  cases hp : d.pending with
  | none =>
      rw [hp] at hpending
      exact ⟨_, Buffer.run_commit_none hpending count, fun _ => ⟨rfl, h⟩⟩
  | stale =>
      rw [hp] at hpending
      obtain ⟨r, hres, hstale⟩ := hpending
      have hepoch : r.epoch ≠ b.epoch := fun heq => hstale ⟨hres, (Buffer.epoch_eq_iff hstart).mp heq⟩
      exact ⟨_, Buffer.run_commit_stale hres hepoch count, fun hlimit => ⟨rfl, h.abandoned hlimit⟩⟩
  | live length aside =>
      rw [hp] at hpending
      obtain ⟨r, hlive, rfl, haside⟩ := hpending
      have hepoch : r.epoch = b.epoch := (Buffer.epoch_eq_iff hstart).mpr hlive.2
      by_cases hcount : r.length < count
      · -- too much is committed: nothing happens, and the reservation stays
        refine ⟨_, Buffer.run_commit_overrun hlive.1 hepoch hcount, ?_⟩
        intro _
        simp only [if_pos hcount]
        exact ⟨rfl, h⟩
      · obtain ⟨hw, hroom⟩ := h.guarded.live r hlive
        have hle := Nat.not_lt.mp hcount
        refine ⟨_, Buffer.run_commit_live h.guarded.ordered hlive.1 hepoch hw hroom hle, ?_⟩
        intro hlimit
        simp only [if_neg hcount]
        exact ⟨rfl, h.committed hlive hepoch hle haside hlimit⟩

theorem Mirrors.takeData (h : Mirrors b d) :
    Follows b Buffer.takeData
      (d.content, { (d.close .both).2 with content := Store.empty, position := 0 }) := by
  refine ⟨_, Buffer.run_takeData b, ?_⟩
  intro hlimit
  have htrimmed : (b.closed .both).trimmed.changes < epochLimit := hlimit
  have hclosed := h.close .both (Nat.lt_of_le_of_lt (Buffer.changes_le_trimmed _) htrimmed)
  have hcontent : (d.close .both).2.content = d.content := by
    unfold Draft.close
    split <;> rfl
  exact ⟨hclosed.data_trimmed.trans hcontent, hclosed.emptied (Buffer.isOpen_closed_both b) htrimmed⟩

omit [LawfulStore σ] in
/-- An operation `Follows` a draft if the action in it does, and its answer holds no epochs. -/
theorem Follows.answer {β : Type} {x : BufferAction σ β} {outcome : β × Draft σ} (h : Follows b x outcome)
    {f : β → Answer σ α} (hf : ∀ value, (f value).blurred = f value) :
    ∃ step, (x >>= fun value => pure (f value)).run b = .ok step ∧ (step.state.changes < epochLimit →
      step.value.blurred = f outcome.1 ∧ Mirrors step.state outcome.2) := by
  obtain ⟨step, hrun, hfollows⟩ := h
  refine ⟨⟨f step.value, step.state, step.events⟩, ?_, ?_⟩
  · rw [bind_pure_comp, run_map, hrun]
    rfl
  · intro hlimit
    obtain ⟨hvalue, hstate⟩ := hfollows hlimit
    exact ⟨(hf step.value).trans (congrArg f hvalue), hstate⟩

theorem Mirrors.writeOne (h : Mirrors b d) (element : α) :
    Follows b (Buffer.writeOne element)
      ((d.write (Store.single element)).map (fun count => if count = 1 then some element else none) id) := by
  obtain ⟨step, hrun, hfollows⟩ := h.write (Store.single element)
  refine ⟨⟨if step.value = 1 then some element else none, step.state, step.events⟩, ?_, ?_⟩
  · rw [Buffer.run_writeOne, hrun]
    rfl
  · intro hlimit
    obtain ⟨hvalue, hstate⟩ := hfollows hlimit
    exact ⟨congrArg (fun count => if count = 1 then some element else none) hvalue, hstate⟩

theorem Mirrors.abandon (h : Mirrors b d) :
    Follows b Buffer.abandon (d.pending.isSome, { d with pending := .none }) :=
  ⟨_, Buffer.run_abandon b, fun hlimit => ⟨h.pending.isSome, h.abandoned hlimit⟩⟩

theorem Mirrors.closing (h : Mirrors b d) (direction : Directions) :
    Follows b (Buffer.close direction) (d.close direction) := by
  refine ⟨_, Buffer.run_close b direction, ?_⟩
  intro hlimit
  refine ⟨?_, h.close direction hlimit⟩
  unfold Draft.close
  by_cases hc : b.access.closes direction = true
  · rw [if_pos ((h.closes_iff direction).mp hc)]
    exact hc
  · rw [if_neg fun hgo => hc ((h.closes_iff direction).mpr hgo)]
    exact Bool.eq_false_iff.mpr hc

/-- **Every `Edit` is answered alike by a writer and by the draft it mirrors**, and leaves them alike. -/
theorem Mirrors.perform (h : Mirrors b d) (hstart : b.changes < epochLimit) (edit : Edit σ α)
    (hfits : edit.operation.Fits) :
    ∃ step, edit.operation.perform.run b = .ok step ∧ (step.state.changes < epochLimit →
      step.value.blurred = (d.perform edit).1 ∧ Mirrors step.state (d.perform edit).2) := by
  cases edit with
  | write elements => exact (h.write elements).answer fun _ => rfl
  | writeOne element => exact (h.writeOne element).answer fun _ => rfl
  | seekTo position direction => exact (h.seekTo hfits direction).answer fun _ => rfl
  | seek target direction => exact (h.seek target direction).answer fun _ => rfl
  | reserve count filling => exact (h.reserve count filling).answer fun _ => rfl
  | commit count =>
      obtain ⟨step, hrun, hfollows⟩ := h.commit hstart count
      refine ⟨⟨.settled step.value, step.state, step.events⟩, ?_, hfollows⟩
      show (Buffer.commit count >>= fun result => pure (Answer.settled result)).run b = _
      rw [bind_pure_comp, run_map, hrun]
      rfl
  | abandon => exact h.abandon.answer fun _ => rfl
  | close direction => exact (h.closing direction).answer fun _ => rfl
  | takeData => exact h.takeData.answer fun _ => rfl

/-! ## Runs -/

/-- Nowhere on the way through these `operations` do the epochs start over. -/
def EpochsSuffice (b : Buffer σ) (operations : List (Operation σ α)) : Prop :=
  ∀ earlier, earlier <+: operations → ∀ step, (Operation.performAll earlier).run b = .ok step →
    step.state.changes < epochLimit

section

omit [LawfulStore σ]

variable {operation : Operation σ α} {rest : List (Operation σ α)} {step : Step (Buffer σ) Event (Answer σ α)}

theorem EpochsSuffice.start {operations : List (Operation σ α)} (h : EpochsSuffice b operations) :
    b.changes < epochLimit :=
  h [] (List.nil_prefix) ⟨[], b, []⟩ rfl

/-- Where the epochs suffice for a row of operations, they do for all but the first. -/
theorem EpochsSuffice.tail (h : EpochsSuffice b (operation :: rest)) (hrun : operation.perform.run b = .ok step) :
    EpochsSuffice step.state rest := by
  intro earlier hprefix last hlast
  have hall : (Operation.performAll (operation :: earlier)).run b =
      .ok ⟨step.value :: last.value, last.state, step.events ++ last.events⟩ := by
    rw [Operation.performAll_cons, run_bind_of_ok hrun, bind_pure_comp, run_map, hlast]
    rfl
  exact h (operation :: earlier) ((List.prefix_cons_inj operation).mpr hprefix)
    ⟨step.value :: last.value, last.state, step.events ++ last.events⟩ hall

theorem EpochsSuffice.nil (hstart : b.changes < epochLimit) : EpochsSuffice b ([] : List (Operation σ α)) := by
  intro earlier hprefix last hlast
  rw [List.prefix_nil.mp hprefix] at hlast
  cases hlast
  exact hstart

theorem EpochsSuffice.cons (hstart : b.changes < epochLimit) (hrun : operation.perform.run b = .ok step)
    (hrest : EpochsSuffice step.state rest) : EpochsSuffice b (operation :: rest) := by
  intro earlier hprefix last hlast
  cases earlier with
  | nil =>
      cases hlast
      exact hstart
  | cons first others =>
      obtain ⟨rfl, hothers⟩ := List.cons_prefix_cons.mp hprefix
      rw [Operation.performAll_cons, run_bind_of_ok hrun, bind_pure_comp, run_map] at hlast
      cases hall : (Operation.performAll others).run step.state with
      | error fault =>
          rw [hall] at hlast
          cases hlast
      | ok found =>
          rw [hall] at hlast
          cases hlast
          exact hrest others hothers found hall

end

/-- Whatever a writer is asked to do, it `Mirrors` the draft that is asked the same, by induction on the `edits`. -/
theorem Mirrors.performAll (h : Mirrors b d) (edits : List (Edit σ α)) (hfits : ∀ e ∈ edits, e.operation.Fits)
    (hlimit : EpochsSuffice b (edits.map Edit.operation)) :
    ∃ step, (Operation.performAll (edits.map Edit.operation)).run b = .ok step ∧
      step.value.map Answer.blurred = (d.performAll edits).1 ∧ Mirrors step.state (d.performAll edits).2 := by
  -- buffer and draft go on together, so the induction takes any pair that mirrors each other
  induction edits generalizing b d with
  | nil => exact ⟨⟨[], b, []⟩, rfl, rfl, h⟩
  | cons edit edits ih =>
      obtain ⟨step, hrun, hfollows⟩ := h.perform hlimit.start edit (hfits edit List.mem_cons_self)
      have hnext := hlimit.tail hrun
      obtain ⟨hanswer, hstate⟩ := hfollows hnext.start
      obtain ⟨last, hlast, hanswers, hend⟩ := ih hstate (fun e he => hfits e (List.mem_cons_of_mem edit he)) hnext
      refine ⟨⟨step.value :: last.value, last.state, step.events ++ last.events⟩, ?_, ?_, hend⟩
      · rw [List.map_cons, Operation.performAll_cons, run_bind_of_ok hrun, bind_pure_comp, run_map, hlast]
        rfl
      · rw [List.map_cons, hanswer, hanswers]
        rfl

/-- A new writer `Mirrors` a draft at the end of its content. -/
theorem mirrors_start {data : σ} (hsize : Store.size data < positionLimit) (label : String) :
    Mirrors (Buffer.start data .writer label) (Draft.start data) := by
  have hnew : (Buffer.start data .writer label).New := ⟨data, .writing, .writer, label, rfl, hsize, rfl⟩
  exact {
    guarded := hnew.guarded
    exact := hnew.exact
    deaf := rfl
    isOpen := rfl
    position := rfl
    content := Buffer.content_eq_toList (Nat.le_refl _)
    pending := rfl }

/-- **A writer does what a draft does.** Over any store, from any data, and for any `edits` whatever, a writer does not
    fault, its answers are those of the `Draft` but for the epochs (`Answer.blurred`), its head is where the draft is,
    and its valid elements are the `content`. -/
theorem writer_mirrors_draft (data : σ) (label : String) (edits : List (Edit σ α))
    (hsize : Store.size data < positionLimit) (hfits : ∀ e ∈ edits, e.operation.Fits)
    (hlimit : EpochsSuffice (Buffer.start data .writer label) (edits.map Edit.operation)) :
    ∃ step, (Operation.performAll (edits.map Edit.operation)).run (Buffer.start data .writer label) = .ok step ∧
      step.value.map Answer.blurred = ((Draft.start data).performAll edits).1 ∧
      step.state.head = ((Draft.start data).performAll edits).2.position ∧
      step.state.content = Store.toList ((Draft.start data).performAll edits).2.content := by
  obtain ⟨step, hrun, hanswers, hend⟩ := (mirrors_start hsize label).performAll edits hfits hlimit
  exact ⟨step, hrun, hanswers, hend.position, hend.content⟩

/-- A writer of two bytes goes back by one, does `reserve` three, fills them and commits two: one is overwritten, one is
    new, and the third is gone. -/
theorem writer_mirrors_draft_committed :
    ∃ step, (Operation.performAll [.seekTo 1 .writing, .reserve 3 ⟨#[7, 8, 9]⟩, .commit 2]).run
        (Buffer.start (⟨#[1, 2]⟩ : SmallBytes) .writer "w") = .ok step ∧
      step.state.head = 3 ∧ step.state.content = [1, 7, 8] := by
  let edits : List (Edit SmallBytes UInt8) := [.seekTo 1 .writing, .reserve 3 ⟨#[7, 8, 9]⟩, .commit 2]
  let first : Buffer SmallBytes := Buffer.start ⟨#[1, 2]⟩ .writer "w"
  let sought : Buffer SmallBytes :=
    { data := ⟨#[1, 2]⟩, cursor := ⟨1, 2⟩, access := .writer, changes := 1, reservation := none, label := "w" }
  let filled : Buffer SmallBytes :=
    { data := ⟨#[1, 7, 8, 9]⟩, cursor := ⟨1, 2⟩, access := .writer, changes := 2,
      reservation := some ⟨2, 3⟩, label := "w" }
  let committed : Buffer SmallBytes :=
    { data := ⟨#[1, 7, 8]⟩, cursor := ⟨3, 3⟩, access := .writer, changes := 4, reservation := none, label := "w" }
  have hseek : (Edit.operation (.seekTo 1 .writing) : Operation SmallBytes UInt8).perform.run first =
      .ok ⟨.position (some 1), sought, []⟩ := by
    cbv
  have hreserve : (Edit.operation (.reserve 3 ⟨#[7, 8, 9]⟩) : Operation SmallBytes UInt8).perform.run sought =
      .ok ⟨.region (some ⟨#[2, 0, 0]⟩), filled, [⟨"w", .storeResizing 2 4⟩]⟩ := by
    cbv
  have hcommit : (Edit.operation (.commit 2) : Operation SmallBytes UInt8).perform.run filled =
      .ok ⟨.settled (.ok 2), committed, [⟨"w", .tailDropped 4 3⟩]⟩ := by
    cbv
  have hfits : ∀ e ∈ edits, e.operation.Fits := by
    intro e he
    rcases List.mem_cons.mp he with rfl | he
    · show 1 < positionLimit
      decide
    rcases List.mem_cons.mp he with rfl | he
    · trivial
    · cases List.mem_singleton.mp he
      trivial
  have hlimit : EpochsSuffice first (edits.map Edit.operation) :=
    .cons (by decide) hseek (.cons (by decide) hreserve (.cons (by decide) hcommit (.nil (by decide))))
  obtain ⟨step, hrun, -, hhead, hcontent⟩ := writer_mirrors_draft ⟨#[1, 2]⟩ "w" edits (by decide) hfits hlimit
  refine ⟨step, hrun, ?_, ?_⟩
  · rw [hhead]
    decide +kernel
  · rw [hcontent]
    decide +kernel

end MemStream
