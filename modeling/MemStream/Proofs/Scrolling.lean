import MemStream.Proofs.Expiry
import MemStream.Proofs.Scroll

/-!
# `MemStream.Proofs.Scrolling` — a reader does what a scroll does

A reader shows a scroll if its store is the content, its head is the position, and the tickets granted at its present
count of changes are those lent. Every operation keeps it so and is answered alike by both, whatever has been done
before: writes are refused, seeks and leases and closing included.

The reader knows a ticket by its epoch only, which starts over after `epochLimit` changes. So a ticket that is settled
must not have been kept for longer than that; nothing else is asked.

## Contents
- **The relation.** `Shows`, for the tickets that were `issued` at each count of changes.
- **Effects.** What each effect on a reader does to the scroll it shows.
- **Actions.** `Unrolls` and `Answered`: an action does to a reader what is said of a scroll; one lemma per action.
- **Operations.** `Shows.perform`.
-/

namespace MemStream

open StateAction

variable {σ α : Type} [Store σ α]

/-! ## The relation -/

/-- A reader that shows the state of a `Scroll`. To say that `t` was granted at the count of changes `n` there is
    `issued n t`. -/
structure Shows (issued : Nat → Ticket → Prop) (b : Buffer σ) (s : Scroll σ) : Prop where
  data : b.data = s.content
  cursor : b.cursor = ⟨s.position, Store.size s.content⟩
  access : b.access = ⟨.reading, s.isOpen, false⟩
  reservation : b.reservation = none
  position_le : s.position ≤ Store.size s.content
  size_lt : Store.size s.content < positionLimit
  lent : ∀ t, t ∈ s.lent ↔ issued b.changes t
  lease : ∀ t ∈ s.lent, s.isOpen = true ∧ t = b.lease.ticket
  stamped : ∀ n t, issued n t → n ≤ b.changes ∧ t.epoch = UInt64.ofNat n

variable {issued : Nat → Ticket → Prop} {b : Buffer σ} {s : Scroll σ}

namespace Shows

section Fields

variable (h : Shows issued b s)
include h

theorem head : b.head = s.position := congrArg Cursor.head h.cursor
theorem valid : b.valid = Store.size s.content := congrArg Cursor.valid h.cursor
theorem capacity : b.capacity = Store.size s.content := congrArg Store.size h.data
theorem available : b.available = s.rest := congrArg Cursor.available h.cursor
theorem canRead : b.canRead = s.isOpen := congrArg Access.readOpen h.access
theorem canWrite : b.canWrite = false := congrArg Access.writeOpen h.access

/-- A reader that `Shows` a scroll has no tail. -/
theorem untailed : b.capacity = b.valid := h.capacity.trans h.valid.symm

theorem ordered : b.Ordered := by
  refine ⟨?_, Nat.le_of_eq h.untailed.symm, ?_⟩
  · rw [h.head, h.valid]
    exact h.position_le
  · rw [h.capacity]
    exact h.size_lt

/-- What is `upcoming` is the same of a reader and of the scroll it shows. -/
theorem upcoming (n : Nat) : b.upcoming n = s.upcoming n := by
  unfold Buffer.upcoming Scroll.upcoming
  rw [h.canRead, h.data, h.head, h.available]

/-- The `lease` of a reader is that of the scroll, stamped with its `epoch`. -/
theorem grant : b.lease = s.lease b.epoch := by
  unfold Buffer.lease Scroll.lease
  rw [h.data, h.head, h.available]

/-- Two ways to say which tickets were `issued`. -/
theorem congr {issued' : Nat → Ticket → Prop} (hsame : ∀ n t, issued' n t ↔ issued n t) : Shows issued' b s := by
  have heq : issued' = issued := funext fun n => funext fun t => propext (hsame n t)
  rw [heq]
  exact h

end Fields

/-! ## Effects -/

/-- Wherever the head goes in the `content`, what was lent before is of an earlier epoch. -/
theorem setTo (h : Shows issued b s) {p n : Nat} (hp : p ≤ Store.size s.content) (hn : 0 < n) :
    Shows issued { b with cursor := ⟨p, b.valid⟩, changes := b.changes + n } (s.setTo p) where
  data := h.data
  cursor := congrArg (Cursor.mk p) h.valid
  access := h.access
  reservation := h.reservation
  position_le := hp
  size_lt := h.size_lt
  lent t := by
    refine ⟨nofun, ?_⟩
    intro ht
    have hle := (h.stamped _ t ht).1
    exact absurd hle (Nat.not_le.mpr (Nat.lt_add_of_pos_right hn))
  lease := nofun
  stamped m t ht := ⟨Nat.le_add_right_of_le (h.stamped m t ht).1, (h.stamped m t ht).2⟩

/-- A reader that is `moved` shows the scroll that is `setTo` there. -/
theorem moved (h : Shows issued b s) {p : Nat} (hp : p ≤ Store.size s.content) :
    Shows issued (b.moved p) (s.setTo p) := by
  rw [Buffer.moved_eq_of_le (Nat.le_trans hp (Nat.le_of_eq h.valid.symm))]
  exact h.setTo hp Nat.one_pos

/-- A reader that has `passed` some elements shows the scroll that has. -/
theorem passed (h : Shows issued b s) {k n : Nat} (hk : k ≤ s.rest) (hn : n = 0 ↔ k = 0) :
    Shows issued (b.passed k n) (s.passed k) := by
  have hle := h.position_le
  unfold Scroll.rest at hk
  unfold Scroll.passed
  split
  · next hzero =>
      rw [hn.mpr hzero, hzero]
      exact h
  · next hpos =>
      unfold Buffer.passed
      rw [h.head]
      exact h.setTo (by omega) (Nat.pos_of_ne_zero fun h0 => hpos (hn.mp h0))

/-- Once the reading side is closed, no lease is good any more: the scroll is `closed`. -/
theorem closed (h : Shows issued b s) {access : Access} (haccess : access = ⟨.reading, false, false⟩) :
    Shows issued { b with access := access, changes := b.changes + 1, reservation := none } s.closed where
  data := h.data
  cursor := h.cursor
  access := haccess
  reservation := rfl
  position_le := h.position_le
  size_lt := h.size_lt
  lent t := by
    refine ⟨nofun, ?_⟩
    intro ht
    exact absurd (h.stamped _ t ht).1 (Nat.not_succ_le_self _)
  lease := nofun
  stamped m t ht := ⟨Nat.le_succ_of_le (h.stamped m t ht).1, (h.stamped m t ht).2⟩

variable [LawfulStore σ]

/-- A reader that is `consumed` shows the scroll from which as many were taken (`take`). -/
theorem consumed (h : Shows issued b s) (n : Nat) : Shows issued (b.consumed n) (s.take n).2 := by
  have hle := Buffer.size_upcoming_le h.ordered n
  have hsize : Store.size (s.upcoming n) = Store.size (b.upcoming n) := congrArg Store.size (h.upcoming n).symm
  show Shows issued (b.consumed n) (s.passed (Store.size (s.upcoming n)))
  rw [hsize]
  by_cases hpos : 0 < Store.size (b.upcoming n)
  · rw [Buffer.consumed_eq_passed h.ordered hpos]
    exact h.passed (by rw [← h.available]; exact hle) (by omega)
  · rw [Buffer.consumed_eq_self hpos, Nat.eq_zero_of_not_pos hpos]
    exact h

/-- A closed scroll that hands its `content` out is left empty. -/
theorem emptied (h : Shows issued b s) (hclosed : s.isOpen = false) :
    Shows issued { b with cursor := .zero, data := (Store.empty : σ) }
      { s.closed with content := Store.empty, position := 0 } where
  data := rfl
  cursor := by
    show Cursor.mk 0 0 = ⟨0, Store.size (Store.empty : σ)⟩
    rw [Store.size_empty]
  access := by
    rw [h.access, hclosed]
    rfl
  reservation := h.reservation
  position_le := Nat.zero_le _
  size_lt := by
    rw [Store.size_empty]
    decide
  lent t := by
    refine ⟨nofun, ?_⟩
    intro ht
    have hopen := (h.lease t ((h.lent t).mpr ht)).1
    rw [hclosed] at hopen
    cases hopen
  lease := nofun
  stamped := h.stamped

end Shows

/-! ## Actions -/

/-- An action on a reader that gives and leaves what a request to a `Scroll` does. -/
def Unrolls {β : Type} (issued : Nat → Ticket → Prop) (b : Buffer σ) (x : BufferAction σ β) (r : β × Scroll σ) : Prop :=
  ∃ step, x.run b = .ok step ∧ step.value = r.1 ∧ Shows issued step.state r.2

/-- The tickets `issued` once that of `answer` is, if it has one, at the count of changes `n`. -/
def Issued (issued : Nat → Ticket → Prop) (n : Nat) (answer : Answer σ α) (m : Nat) (t : Ticket) : Prop :=
  issued m t ∨ n = m ∧ answer.ticket? = some t

/-- An operation that is answered alike by a reader and by the scroll it `Shows`, and leaves them alike. -/
def Answered (issued : Nat → Ticket → Prop) (b : Buffer σ) (x : BufferAction σ (Answer σ α))
    (r : Answer σ α × Scroll σ) : Prop :=
  Unrolls (Issued issued b.changes r.1) b x r

/-- What `Unrolls` still does when its value is turned into an answer. -/
theorem Unrolls.map {β γ : Type} {x : BufferAction σ β} {r : β × Scroll σ} (h : Unrolls issued b x r) (f : β → γ) :
    Unrolls issued b (x >>= fun value => pure (f value)) (r.map f id) := by
  obtain ⟨step, hrun, hvalue, hshows⟩ := h
  exact ⟨_, Buffer.run_answer hrun f, congrArg f hvalue, hshows⟩

/-- The same as `Unrolls.map`, for a `next` action that only makes another value of it. -/
theorem Unrolls.andThen {β γ : Type} {x : BufferAction σ β} {r : β × Scroll σ} (h : Unrolls issued b x r)
    {next : β → BufferAction σ γ} (f : β → γ) (hnext : ∀ value, next value = pure (f value)) :
    Unrolls issued b (x >>= next) (r.map f id) := by
  rw [funext hnext]
  exact h.map f

/-- An answer without a ticket issues nothing, so what `Unrolls` is `Answered`. -/
theorem Unrolls.answered {x : BufferAction σ (Answer σ α)} {r : Answer σ α × Scroll σ} (h : Unrolls issued b x r)
    (hticket : r.1.ticket? = none) : Answered issued b x r := by
  obtain ⟨step, hrun, hvalue, hshows⟩ := h
  refine ⟨step, hrun, hvalue, hshows.congr ?_⟩
  intro n t
  unfold Issued
  rw [hticket]
  exact ⟨fun ht => ht.elim id nofun, .inl⟩

/-- What changes nothing of a reader and is no more to a scroll `Unrolls`. -/
theorem Shows.stays {β : Type} (h : Shows issued b s) {x : BufferAction σ β} {value : β} {events : List Event}
    (hrun : x.run b = .ok ⟨value, b, events⟩) : Unrolls issued b x (value, s) :=
  ⟨_, hrun, rfl, h⟩

namespace Shows

variable [LawfulStore σ]

/-! ### Reading and seeking -/

omit [LawfulStore σ] in
theorem peek (h : Shows issued b s) (n : Nat) : Unrolls issued b (Buffer.peek n) (s.upcoming n, s) :=
  ⟨_, Buffer.run_peek h.ordered n, h.upcoming n, h⟩

/-- An advancing `read` is a `take`. -/
theorem read (h : Shows issued b s) (n : Nat) : Unrolls issued b (Buffer.read n true) (s.take n) :=
  ⟨_, Buffer.run_read h.ordered n true, h.upcoming n, h.consumed n⟩

/-- However it is cut into reads, what goes on up to a `total` is one `take` of the `total`. -/
theorem gatherAll (h : Shows issued b s) (request : Nat → Nat) (total : Nat) (hasks : ∀ m, m < total → 0 < request m)
    (hstops : ∀ m, m ≤ total → m + min (request m) (s.rest - m) ≤ total) :
    Unrolls issued b (Buffer.gatherAll request) (s.take total) := by
  rw [← h.available] at hstops
  obtain ⟨n, hrun, hn⟩ := Buffer.run_gatherAll_total request hasks h.ordered hstops
  refine ⟨_, hrun, h.upcoming total, ?_⟩
  unfold Scroll.take
  rw [← h.upcoming]
  apply h.passed _ hn
  rw [← h.available]
  exact Buffer.size_upcoming_le h.ordered total

theorem skipOne (h : Shows issued b s) :
    Unrolls issued b Buffer.skipOne (Store.head? ((s.take 1).2.upcoming 1), (s.take 1).2) := by
  have hnext := h.consumed 1
  exact ⟨_, Buffer.run_skipOne h.ordered, congrArg Store.head? (hnext.upcoming 1), hnext⟩

/-- A `stepBack` of the reader is one of the scroll. -/
theorem stepBack (h : Shows issued b s) : Unrolls issued b Buffer.stepBack s.stepBack := by
  have hrun := Buffer.run_stepBack h.ordered
  have hle := h.position_le
  have hback := h.moved (p := s.position - 1) (by omega)
  unfold Scroll.stepBack
  rw [h.head, h.canRead] at hrun
  by_cases hzero : s.position = 0
  · rw [if_pos hzero] at hrun
    rw [if_neg (by omega)]
    exact h.stays hrun
  · rw [if_neg hzero] at hrun
    cases hopen : s.isOpen with
    | true =>
        rw [hopen, if_pos rfl] at hrun
        rw [if_pos ⟨rfl, Nat.pos_of_ne_zero hzero⟩]
        exact ⟨_, hrun, congrArg Store.head? (hback.upcoming 1), hback⟩
    | false =>
        rw [hopen, if_neg Bool.false_ne_true] at hrun
        rw [if_neg fun hc => Bool.false_ne_true hc.1]
        exact h.stays hrun

/-- A `seekTo` of the reader is a `seek` of the scroll. -/
theorem seekTo (h : Shows issued b s) {p : Nat} (hp : p < positionLimit) (direction : Directions) :
    Unrolls issued b (Buffer.seekTo p direction) (s.seek p direction) := by
  have hrun := Buffer.run_seekTo h.ordered hp direction
  unfold Scroll.seek
  rw [h.canWrite, h.valid, h.canRead] at hrun
  by_cases hgo : direction.reads = true ∧ s.isOpen = true ∧ p ≤ Store.size s.content
  · rw [if_pos hgo] at hrun
    rw [if_pos ⟨hgo.1, hgo.2.1, Int.natCast_nonneg p, Int.ofNat_le.mpr hgo.2.2⟩]
    exact ⟨_, hrun, rfl, h.moved hgo.2.2⟩
  · rw [if_neg hgo, if_neg fun hc => Bool.false_ne_true hc.2] at hrun
    rw [if_neg fun hc => hgo ⟨hc.1, hc.2.1, Int.ofNat_le.mp hc.2.2.2⟩]
    exact h.stays hrun

theorem seek (h : Shows issued b s) (target : Target) (direction : Directions) :
    Unrolls issued b (Buffer.seek target direction) (s.seek (s.placeOf target) direction) := by
  have hrun := Buffer.run_seek target direction b
  unfold Scroll.placeOf
  rw [← h.cursor]
  cases hplace : target.position? b.cursor with
  | some p =>
      obtain ⟨hz, hp⟩ := Target.position?_eq_some_iff.mp hplace
      rw [hplace] at hrun
      rw [hz]
      obtain ⟨step, hstep, hshown⟩ := h.seekTo hp direction
      exact ⟨step, hrun.trans hstep, hshown⟩
  | none =>
      -- an integer that is no position lies outside the content, which has the length of a position
      rw [hplace] at hrun
      have houtside : s.seek (target.resolve b.cursor) direction = (none, s) := by
        unfold Scroll.seek
        rw [if_neg]
        rintro ⟨-, -, hnonneg, hle⟩
        have hsize := h.size_lt
        have hsome : target.position? b.cursor = some (target.resolve b.cursor).toNat :=
          Target.position?_eq_some_iff.mpr ⟨(Int.toNat_of_nonneg hnonneg).symm, by omega⟩
        rw [hplace] at hsome
        cases hsome
      rw [houtside]
      exact h.stays hrun

/-- With the reading side closed, the direction that `seekAny` picks does not matter: the seek is refused. -/
theorem seekAny (h : Shows issued b s) (target : Target) :
    Unrolls issued b (Buffer.seekAny target)
      ((s.seek (s.placeOf target) .reading).map
        (fun reached => match reached with
          | some position => .ok position
          | none => .error (.seekRejected target.outline.oneLine))
        id) := by
  have hsame : s.seek (s.placeOf target) (if b.canRead then .reading else .writing) =
      s.seek (s.placeOf target) .reading := by
    rw [h.canRead]
    cases hopen : s.isOpen with
    | true => rfl
    | false =>
        unfold Scroll.seek
        rw [hopen, if_neg fun hc => Bool.false_ne_true hc.2.1, if_neg fun hc => Bool.false_ne_true hc.2.1]
  have hseek := h.seek target (if b.canRead then .reading else .writing)
  rw [hsame] at hseek
  unfold Unrolls Buffer.seekAny
  rw [run_look_bind]
  refine hseek.andThen _ ?_
  intro reached
  cases reached <;> rfl

/-! ### Leases -/

omit [LawfulStore σ] in
/-- What lies ahead can be lent as long as the scroll is open: the reader shows the scroll `lending` it. -/
theorem lending (h : Shows issued b s) (hopen : s.isOpen = true) :
    Shows (fun n t => issued n t ∨ b.changes = n ∧ (s.lease b.epoch).ticket = t) b (s.lending b.epoch) where
  data := h.data
  cursor := h.cursor
  access := h.access
  reservation := h.reservation
  position_le := h.position_le
  size_lt := h.size_lt
  lent t := by
    show t ∈ (s.lease b.epoch).ticket :: s.lent ↔ _
    rw [List.mem_cons, h.lent]
    exact ⟨fun ht => ht.elim (fun heq => .inr ⟨rfl, heq.symm⟩) .inl,
      fun ht => ht.elim .inr fun hnew => .inl hnew.2.symm⟩
  lease t ht := by
    rcases List.mem_cons.mp ht with rfl | hold
    · exact ⟨hopen, congrArg Lease.ticket h.grant.symm⟩
    · exact h.lease t hold
  stamped n t ht := by
    rcases ht with hold | ⟨rfl, rfl⟩
    · exact h.stamped n t hold
    · exact ⟨Nat.le_refl _, rfl⟩

omit [LawfulStore σ] in
/-- The `offer` of a reader is what the scroll answers to `acquire`. -/
theorem offer (h : Shows issued b s) : b.offer = (s.acquire b.epoch).1 := by
  have hreads : b.mode.reads = true := congrArg (fun a => a.mode.reads) h.access
  unfold Buffer.offer Scroll.acquire
  rw [hreads, h.canRead, h.available, h.grant]
  cases s.isOpen with
  | true =>
      by_cases hrest : s.rest = 0
      · simp [hrest]
      · simp [hrest]
  | false => rfl

omit [LawfulStore σ] in
/-- A ticket that has not been kept for too long is told by its `epoch`: it is good exactly if it is among those
    `lent`. -/
theorem release (h : Shows issued b s) {t : Ticket} {n : Nat} (hissued : issued n t)
    (hprompt : b.changes < n + epochLimit) (count : Nat) :
    Unrolls issued b (Buffer.release t count) (s.release b.epoch t count) := by
  obtain ⟨hle, hstamp⟩ := h.stamped n t hissued
  unfold Scroll.release
  by_cases hnow : n = b.changes
  · rw [hnow] at hissued
    have hmem := (h.lent t).mpr hissued
    obtain ⟨-, rfl⟩ := h.lease t hmem
    rw [if_pos hmem]
    by_cases hcount : count ≤ b.lease.ticket.length
    · have hlength : b.lease.ticket.length = s.rest := h.available
      have hoffset : b.lease.ticket.offset = s.position := h.head
      have hposition := h.position_le
      unfold Scroll.rest at hlength
      have hstop : s.position + count ≤ Store.size s.content := by omega
      have hrun := Buffer.run_release_settled (t := b.lease.ticket) h.ordered rfl hcount (by
        rw [h.canWrite, if_neg Bool.false_ne_true, h.valid, hoffset]
        exact hstop)
      rw [hoffset] at hrun
      rw [if_pos hcount]
      exact ⟨_, hrun, rfl, h.moved hstop⟩
    · rw [if_neg hcount]
      exact h.stays (Buffer.run_release_overrun rfl (Nat.not_le.mp hcount))
  · -- the count has moved on since the grant, and not so far that the epoch would be the same again
    have hepoch : t.epoch ≠ b.epoch := by
      intro heq
      have hmod : n % epochLimit = b.changes % epochLimit := by
        rw [hstamp] at heq
        have hnat := congrArg UInt64.toNat heq
        unfold Buffer.epoch at hnat
        rw [UInt64.toNat_ofNat', UInt64.toNat_ofNat'] at hnat
        exact hnat
      have hlimit : 0 < epochLimit := by decide
      have hgap : (b.changes - n) % epochLimit = 0 := by
        rw [← Nat.sub_mod_eq_zero_of_mod_eq hmod.symm]
      rw [Nat.mod_eq_of_lt (by omega)] at hgap
      omega
    have hnot : t ∉ s.lent := by
      intro hmem
      rw [(h.lease t hmem).2] at hepoch
      exact hepoch rfl
    rw [if_neg hnot]
    exact h.stays (Buffer.run_release_stale hepoch count)

omit [LawfulStore σ] in
/-- An answer with the ticket of what lies ahead has `Issued` just that. -/
theorem issues {β : Type} {x : BufferAction σ β} {step : Step (Buffer σ) Event β} (hrun : x.run b = .ok step)
    {s' : Scroll σ} (h : Shows (fun n t => issued n t ∨ b.changes = n ∧ (s.lease b.epoch).ticket = t) step.state s')
    {f : β → Answer σ α} (hticket : (f step.value).ticket? = some (s.lease b.epoch).ticket) :
    Answered issued b (x >>= fun value => pure (f value)) (f step.value, s') := by
  refine ⟨_, Buffer.run_answer hrun f, rfl, h.congr ?_⟩
  intro n t
  unfold Issued
  rw [hticket, Option.some.injEq]

omit [LawfulStore σ] in
theorem acquire (h : Shows issued b s) :
    Answered issued b (Buffer.acquire >>= fun grant => pure (.lease grant)) ((s.acquire b.epoch).map .lease id) := by
  have hrun := Buffer.run_acquire h.ordered
  rw [h.offer] at hrun
  unfold Scroll.acquire at hrun ⊢
  cases hopen : s.isOpen with
  | false =>
      rw [hopen, if_neg Bool.false_ne_true] at hrun
      rw [if_neg Bool.false_ne_true]
      exact ((h.stays hrun).map .lease).answered rfl
  | true =>
      rw [hopen, if_pos rfl] at hrun
      rw [if_pos rfl]
      by_cases hrest : s.rest = 0
      · rw [if_pos hrest] at hrun ⊢
        exact ((h.stays hrun).map .lease).answered rfl
      · rw [if_neg hrest] at hrun ⊢
        exact issues hrun (h.lending hopen) rfl

omit [LawfulStore σ] in
theorem borrow (h : Shows issued b s) (settle : Option Nat) :
    Answered issued b (Buffer.borrow settle >>= fun grant => pure (.borrowed grant))
      ((s.borrow b.epoch settle).map .borrowed id) := by
  have hacquire := Buffer.run_acquire h.ordered
  rw [h.offer] at hacquire
  unfold Scroll.acquire at hacquire
  unfold Scroll.borrow Scroll.acquire
  cases hopen : s.isOpen with
  | false =>
      rw [hopen, if_neg Bool.false_ne_true] at hacquire
      have hrun : (Buffer.borrow settle).run b = .ok ⟨.endOfStream, b, []⟩ := by
        unfold Buffer.borrow
        rw [run_bind_of_silent hacquire]
        rfl
      exact ((h.stays hrun).map .borrowed).answered rfl
  | true =>
      rw [hopen, if_pos rfl] at hacquire
      rw [if_pos rfl]
      by_cases hrest : s.rest = 0
      · rw [if_pos hrest] at hacquire ⊢
        have hrun : (Buffer.borrow settle).run b = .ok ⟨.retry, b, []⟩ := by
          unfold Buffer.borrow
          rw [run_bind_of_silent hacquire]
          rfl
        exact ((h.stays hrun).map .borrowed).answered rfl
      · rw [if_neg hrest] at hacquire ⊢
        have hlent := h.lending hopen
        cases settle with
        | none =>
            have hrun : (Buffer.borrow none).run b = .ok ⟨.granted (s.lease b.epoch, none), b, []⟩ := by
              unfold Buffer.borrow
              rw [run_bind_of_silent hacquire]
              rfl
            exact issues hrun hlent rfl
        | some count =>
            -- the ticket is as fresh as can be, so it is settled like any other
            obtain ⟨step, hrelease, hvalue, hshown⟩ :=
              hlent.release (.inr ⟨rfl, rfl⟩) (Nat.lt_add_of_pos_right (by decide)) count
            have hrun : (Buffer.borrow (some count)).run b =
                .ok ⟨.granted (s.lease b.epoch, some step.value), step.state, step.events⟩ := by
              unfold Buffer.borrow
              rw [run_bind_of_silent hacquire]
              exact Buffer.run_answer hrelease fun settled => Grant.granted (s.lease b.epoch, some settled)
            rw [hvalue] at hrun
            exact issues hrun hshown rfl

/-! ### Closing -/

omit [LawfulStore σ] in
theorem close (h : Shows issued b s) (direction : Directions) :
    Unrolls issued b (Buffer.close direction) (s.close direction) := by
  have hrun := Buffer.run_close b direction
  have hcloses : b.access.closes direction = (direction.reads && s.isOpen) := by
    unfold Access.closes
    rw [h.access, Bool.and_false, Bool.or_false]
  unfold Scroll.close
  by_cases hgo : direction.reads = true ∧ s.isOpen = true
  · have hyes : b.access.closes direction = true := by
      rw [hcloses, hgo.1, hgo.2]
      rfl
    have haccess : b.access.close direction = ⟨.reading, false, false⟩ := by
      unfold Access.close
      rw [h.access, hgo.1, Bool.not_true, Bool.and_false, Bool.false_and]
    have hshown := h.closed haccess
    -- without a tail, nothing is cut off
    rw [Buffer.closed_of_closes hyes, Buffer.trimmed_eq_self _ (Nat.le_of_eq hshown.untailed), hyes] at hrun
    rw [if_pos hgo]
    exact ⟨_, hrun, rfl, hshown⟩
  · have hno : b.access.closes direction = false := by
      rw [hcloses, Bool.and_eq_false_iff]
      rcases Classical.em (direction.reads = true) with hreads | hreads
      · exact .inr (Bool.eq_false_iff.mpr fun hopen => hgo ⟨hreads, hopen⟩)
      · exact .inl (Bool.eq_false_iff.mpr hreads)
    rw [Buffer.closed_eq_self hno, hno] at hrun
    rw [if_neg hgo]
    exact h.stays hrun

/-- To `takeData` hands out the whole `content`, and leaves the scroll closed and empty. -/
theorem takeData (h : Shows issued b s) :
    Unrolls issued b Buffer.takeData (s.content, { s.closed with content := Store.empty, position := 0 }) := by
  obtain ⟨step, hclose, -, hshown⟩ := h.close .both
  rw [Buffer.run_close] at hclose
  cases hclose
  -- closed on both sides, the scroll has its content still, and nothing of it is cut off
  have hsame : (s.close .both).2.content = s.content ∧ (s.close .both).2.isOpen = false := by
    unfold Scroll.close
    cases hopen : s.isOpen with
    | true => exact ⟨rfl, rfl⟩
    | false => exact ⟨rfl, hopen⟩
  have htrimmed : (b.closed .both).trimmed = b.closed .both :=
    Buffer.trimmed_eq_self _ (Nat.le_of_eq hshown.untailed)
  refine ⟨_, Buffer.run_takeData b, ?_, ?_⟩
  · show (b.closed .both).trimmed.data = s.content
    rw [htrimmed, hshown.data, hsame.1]
  · show Shows issued b.emptied _
    unfold Buffer.emptied
    rw [htrimmed]
    exact hshown.emptied hsame.2

/-! ### All operations -/

/-- **Every operation is `Answered` alike by a reader and by the scroll it `Shows`.** -/
theorem perform (h : Shows issued b s) {operation : Operation σ α} (hfits : operation.Fits)
    (hprompt : ∀ t, operation.presented? = some t → ∃ n, issued n t ∧ b.changes < n + epochLimit) :
    Answered issued b operation.perform (s.perform b.epoch operation) := by
  have hord := h.ordered
  have hw := h.canWrite
  cases operation with
  | read count advance =>
      cases advance with
      | true => exact ((h.read count).map .taken).answered rfl
      | false =>
          have hpeek : Unrolls issued b (Buffer.read count false) (s.upcoming count, s) :=
            ⟨_, Buffer.run_read hord count false, h.upcoming count, h⟩
          exact (hpeek.map .taken).answered rfl
  | peek count => exact ((h.peek count).map .taken).answered rfl
  | readOne advance =>
      cases advance with
      | true => exact (((h.read 1).map Store.head?).map .element).answered rfl
      | false =>
          have hpeek : Unrolls issued b (Buffer.readOne false) (Store.head? (s.upcoming 1), s) :=
            ⟨_, Buffer.run_readOne hord false, congrArg Store.head? (h.upcoming 1), h⟩
          exact (hpeek.map .element).answered rfl
  | skipOne => exact (h.skipOne.map .element).answered rfl
  | stepBack => exact (h.stepBack.map .element).answered rfl
  | seekTo position direction => exact ((h.seekTo hfits direction).map .position).answered rfl
  | seek target direction => exact ((h.seek target direction).map .position).answered rfl
  | seekAny target => exact ((h.seekAny target).map .moved).answered rfl
  | acquire => exact h.acquire
  | borrow settle => exact h.borrow settle
  | release ticket count =>
      obtain ⟨n, hissued, hlate⟩ := hprompt ticket rfl
      exact ((h.release hissued hlate count).map .settled).answered rfl
  | close direction => exact ((h.close direction).map .flag).answered rfl
  | takeData => exact (h.takeData.map .elements).answered rfl
  | dataCopy =>
      have hcopy : Unrolls issued b Buffer.dataCopy (s.content, s) := ⟨_, rfl, h.data, h⟩
      exact (hcopy.map .elements).answered rfl
  | readToEnd =>
      have hall : Unrolls issued b Buffer.readToEnd (s.take s.rest) :=
        h.gatherAll _ _ (fun _ _ => by decide) (by omega)
      exact (hall.map .elements).answered rfl
  | readExact count =>
      have hall := h.gatherAll (fun gathered => count - gathered) count (by omega) (by omega)
      refine ((hall.andThen (fun elements =>
        if Store.size elements = count then .ok elements else .error .unexpectedEnd) ?_).map .gathered).answered rfl
      intro elements
      split
      · rfl
      · rfl
  | readText codec =>
      have hall := h.gatherAll (fun gathered => max Buffer.probeSize gathered) s.rest
        (fun m _ => Nat.lt_of_lt_of_le (by decide) (Nat.le_max_left _ m)) (by omega)
      refine ((hall.andThen (Scroll.readAs codec) ?_).map .text).answered rfl
      intro elements
      unfold Scroll.readAs
      cases codec.decode elements <;> rfl
  | sync => exact (h.stays rfl).answered rfl
  | stagingSize direction => exact (h.stays rfl).answered rfl
  | hintStaging size direction => exact (h.stays rfl).answered rfl
  | write elements => exact ((h.stays (Buffer.write_of_not_canWrite hord hw elements)).map .count).answered rfl
  | writeOne element =>
      have hnone : (Buffer.writeOne (σ := σ) element).run b = .ok ⟨none, b, []⟩ := by
        rw [Buffer.run_writeOne, Buffer.write_of_not_canWrite hord hw]
        rfl
      exact ((h.stays hnone).map .element).answered rfl
  | writeAll elements =>
      have hnone : (Buffer.writeAll elements).run b =
          .ok ⟨if Store.size elements = 0 then .ok () else .error .writeZero, b, []⟩ := by
        rw [Buffer.run_writeAll hord, Buffer.write_of_not_canWrite hord hw]
        split
        · rfl
        · rfl
      exact ((h.stays hnone).map .stored).answered rfl
  | reserve count filling =>
      have hnone := Buffer.run_reserveAndFill hord count filling
      rw [Buffer.grants_eq_false hw, if_neg Bool.false_ne_true, Buffer.denied_eq_self hw] at hnone
      exact ((h.stays hnone).map .region).answered rfl
  | reserveWith count filling written =>
      have hnone := Buffer.run_reserveWith hord count fun _ => (filling, written)
      rw [Buffer.grants_eq_false hw, if_neg Bool.false_ne_true, Buffer.denied_eq_self hw] at hnone
      exact ((h.stays hnone).map .filled).answered rfl
  | commit count => exact ((h.stays (Buffer.run_commit_none h.reservation count)).map .settled).answered rfl
  | abandon =>
      have hnone := Buffer.run_abandon b
      rw [Buffer.abandoned_eq_self h.reservation h.untailed, h.reservation] at hnone
      exact ((h.stays hnone).map .flag).answered rfl

end Shows

end MemStream
