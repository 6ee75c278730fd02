import MemStream.Proofs.Refused

/-!
# `MemStream.Proofs.Settling` — what a refused settlement leaves

Leases and reservations are settled after they were granted. By then the buffer may have changed, or there may be
nothing left to settle, or more is asked for than was granted; in each of these cases the settlement is refused, and in
no other. A refusal leaves the elements, the tail behind them, the head and the epoch as they were. What a commit may
take away is a reservation that has gone stale. It would drop the tail along with it, but a tail belongs to a
reservation that can still be committed, so where the reservation is stale there is none.

## Contents
- **Refusals.** `Answer.refusal?` is the refusal that an answer tells of, `Buffer.breach?` what is wrong with a
  settlement before it is tried.
- **What is left.** `Buffer.Spared`, `Buffer.Judged`; `judged_release`, `judged_borrow`, `judged_commit`, and `judged`
  for any operation.
- **Commits of too much.** `run_commit_of_breach`, `performAll_of_inert`.
- **Runs.** `refused_settlement_spares`.
-/

namespace MemStream

open StateAction

/-! ## Refusals -/

/-- The `Refusal` of a settlement that an answer tells of. -/
def Answer.refusal? {σ α : Type} : Answer σ α → Option Refusal
  | .settled (.error refusal) => some refusal
  | .borrowed (.granted (_, some (.error refusal))) => some refusal
  | _ => none

namespace Buffer

variable {σ α : Type} [Store σ α] {b : Buffer σ} {refusal : Refusal}

/-- What is wrong with settling `count` elements of the `length` that were granted at `epoch`. -/
def breachAt? (b : Buffer σ) (epoch : UInt64) (length count : Nat) : Option Refusal :=
  if epoch ≠ b.epoch then some (.staleLease epoch b.epoch)
  else if length < count then some (.leaseOverrun count length)
  else none

/-- What is wrong with an operation that settles something, by `breachAt?`; there is nothing wrong with any other. -/
def breach? (b : Buffer σ) : Operation σ α → Option Refusal
  | .release t count => b.breachAt? t.epoch t.length count
  | .borrow (some count) =>
      match b.offer with
      | .granted held => b.breachAt? held.ticket.epoch held.ticket.length count
      | _ => none
  | .commit count =>
      match b.reservation with
      | none => some .noPendingAllocation
      | some r => b.breachAt? r.epoch r.length count
  | _ => none

omit [Store σ α] in
/-- A settlement has no `breachAt?` exactly at its own epoch and within its length. -/
theorem breachAt?_eq_none_iff {epoch : UInt64} {length count : Nat} :
    b.breachAt? epoch length count = none ↔ epoch = b.epoch ∧ count ≤ length := by
  unfold breachAt?
  split
  · next hstale => simpa using fun hsame => absurd hsame hstale
  · next hsame => simpa using fun _ => not_not.mp hsame

omit [Store σ α] in
/-- A settlement comes too late (`staleLease`) or asks for too much (`leaseOverrun`), and coming too late is found out
    first. -/
theorem breachAt?_eq_some_iff {epoch : UInt64} {length count : Nat} :
    b.breachAt? epoch length count = some refusal ↔
      epoch ≠ b.epoch ∧ refusal = .staleLease epoch b.epoch ∨
        epoch = b.epoch ∧ length < count ∧ refusal = .leaseOverrun count length := by
  unfold breachAt?
  by_cases hepoch : epoch = b.epoch
  · by_cases hcount : length < count
    · simp [hepoch, hcount, eq_comm]
    · simp [hepoch, hcount]
  · simp [hepoch, eq_comm]

/-! ## What is left -/

/-- What a `refusal` leaves: everything is as it was, but for a reservation that the `refusal` says is stale. -/
structure Spared (b : Buffer σ) (refusal : Refusal) (c : Buffer σ) : Prop where
  head : c.head = b.head
  valid : c.valid = b.valid
  data : c.data = b.data
  capacity : c.capacity = b.capacity
  epoch : c.epoch = b.epoch
  access : c.access = b.access
  reservation : c.reservation = b.reservation ∨
    c.reservation = none ∧ ∃ r, b.reservation = some r ∧ refusal = .staleLease r.epoch b.epoch

theorem spared_self (b : Buffer σ) (refusal : Refusal) : b.Spared refusal b :=
  ⟨rfl, rfl, rfl, rfl, rfl, rfl, .inl rfl⟩

/-- A stale reservation may be taken off the record: the buffer still counts as `Spared`. -/
theorem spared_unreserved {r : Reservation} (hres : b.reservation = some r) :
    b.Spared (.staleLease r.epoch b.epoch) b.unreserved :=
  ⟨rfl, rfl, rfl, rfl, rfl, rfl, .inr ⟨rfl, r, hres, rfl⟩⟩

/-- An operation is refused for its `breach?`, which leaves the buffer `Spared`, and it is not refused for anything
    else. -/
structure Judged (b : Buffer σ) (operation : Operation σ α) : Prop where
  refused : ∀ refusal, b.breach? operation = some refusal →
    ∃ step, operation.perform.run b = .ok step ∧ step.value.refusal? = some refusal ∧
      refusal.isLeaseViolation = true ∧ b.Spared refusal step.state
  granted : b.breach? operation = none → ∀ step, operation.perform.run b = .ok step → step.value.refusal? = none

omit [Store σ α] in
theorem isLeaseViolation_of_breachAt? {epoch : UInt64} {length count : Nat}
    (h : b.breachAt? epoch length count = some refusal) : refusal.isLeaseViolation = true := by
  rcases breachAt?_eq_some_iff.mp h with ⟨-, rfl⟩ | ⟨-, -, rfl⟩
  · rfl
  · rfl

/-- What a run of the operation shows settles whether it is `Judged`. -/
theorem judged_of_run {operation : Operation σ α} {step : Step (Buffer σ) Event (Answer σ α)}
    (hrun : operation.perform.run b = .ok step) (hanswer : step.value.refusal? = b.breach? operation)
    (hstate : ∀ refusal, b.breach? operation = some refusal →
      refusal.isLeaseViolation = true ∧ b.Spared refusal step.state) : b.Judged operation where
  refused refusal h := ⟨step, hrun, hanswer.trans h, hstate refusal h⟩
  granted h other hother := by
    rw [hrun] at hother
    cases hother
    exact hanswer.trans h

/-- Any ticket may be presented to `release`, for any number of elements. -/
theorem judged_release (b : Buffer σ) (t : Ticket) (count : Nat) :
    b.Judged (.release t count : Operation σ α) where
  refused refusal h := by
    have hbreach : b.breachAt? t.epoch t.length count = some refusal := h
    have hviolation := isLeaseViolation_of_breachAt? hbreach
    rcases breachAt?_eq_some_iff.mp hbreach with ⟨hepoch, rfl⟩ | ⟨hepoch, hcount, rfl⟩
    · exact ⟨_, run_answer (run_release_stale hepoch count) Answer.settled, rfl, hviolation, spared_self b _⟩
    · exact ⟨_, run_answer (run_release_overrun hepoch hcount) Answer.settled, rfl, hviolation, spared_self b _⟩
  granted h step hrun := by
    -- the ticket may point anywhere, so all that is known of the move is that it did not fault
    obtain ⟨hepoch, hcount⟩ := breachAt?_eq_none_iff.mp h
    obtain ⟨settled, hsettled, rfl⟩ := value_of_answer hrun
    unfold release at hsettled
    rw [run_look_bind, run_ite, if_neg fun hne => hne hepoch, run_ite, if_neg (Nat.not_lt.mpr hcount)] at hsettled
    obtain ⟨_, hdone⟩ := run_moveHead_bind_eq_ok hsettled
    cases hdone
    rfl

/-- A lease that `borrow` holds on to is not stale, so it can only be settled for too much. -/
theorem judged_borrow (h : b.Ordered) (settle : Option Nat) : b.Judged (.borrow settle : Operation σ α) := by
  have hborrow := run_borrow h settle
  cases settle with
  | none =>
      cases hoffer : b.offer with
      | _ =>
          rw [hoffer] at hborrow
          exact judged_of_run (run_answer hborrow Answer.borrowed) rfl nofun
  | some count =>
      cases hoffer : b.offer with
      | granted held =>
          obtain ⟨-, -, -, rfl⟩ := offer_eq_granted hoffer
          have hbreach : b.breach? (.borrow (some count) : Operation σ α) = b.breachAt? b.epoch b.available count := by
            unfold breach?
            rw [hoffer]
            rfl
          rw [hoffer] at hborrow
          simp only at hborrow
          by_cases hcount : count ≤ b.available
          · have hnone := hbreach.trans (breachAt?_eq_none_iff.mpr ⟨rfl, hcount⟩)
            rw [if_pos hcount] at hborrow
            exact judged_of_run (run_answer hborrow Answer.borrowed) hnone.symm (by simp [hnone])
          · have hsome := hbreach.trans (breachAt?_eq_some_iff.mpr (.inr ⟨rfl, Nat.not_le.mp hcount, rfl⟩))
            rw [if_neg hcount] at hborrow
            refine judged_of_run (run_answer hborrow Answer.borrowed) hsome.symm fun refusal hrefusal => ?_
            exact ⟨isLeaseViolation_of_breachAt? (hbreach ▸ hrefusal), spared_self b _⟩
      | _ =>
          have hnone : b.breach? (.borrow (some count) : Operation σ α) = none := by
            unfold breach?
            rw [hoffer]
          rw [hoffer] at hborrow
          exact judged_of_run (run_answer hborrow Answer.borrowed) hnone.symm (by simp [hnone])

/-- A `commit` that goes through answers with its count, and any other with its `breach?`. -/
theorem judged_commit (hexact : b.Exact) (hlimit : b.changes < epochLimit) (count : Nat) :
    b.Judged (.commit count : Operation σ α) := by
  cases hres : b.reservation with
  | none =>
      have hbreach : b.breach? (.commit count : Operation σ α) = some .noPendingAllocation := by
        unfold breach?
        rw [hres]
      refine judged_of_run (run_answer (run_commit_none hres count) Answer.settled) hbreach.symm fun refusal h => ?_
      cases hbreach.symm.trans h
      exact ⟨rfl, spared_self b _⟩
  | some r =>
      have hbreach : b.breach? (.commit count : Operation σ α) = b.breachAt? r.epoch r.length count := by
        unfold breach?
        rw [hres]
      by_cases hepoch : r.epoch = b.epoch
      · by_cases hcount : count ≤ r.length
        · have hnone := hbreach.trans (breachAt?_eq_none_iff.mpr ⟨hepoch, hcount⟩)
          refine ⟨by simp [hnone], fun _ step hrun => ?_⟩
          obtain ⟨settled, hsettled, rfl⟩ := value_of_answer hrun
          rw [run_commit_good hres hepoch hcount] at hsettled
          obtain ⟨_, hdropped⟩ := run_moveHead_bind_eq_ok hsettled
          rw [run_dropTail_bind] at hdropped
          cases hdropped
          rfl
        · have hsome := hbreach.trans (breachAt?_eq_some_iff.mpr (.inr ⟨hepoch, Nat.not_le.mp hcount, rfl⟩))
          have hrun := run_commit_overrun hres hepoch (Nat.not_le.mp hcount)
          refine judged_of_run (run_answer hrun Answer.settled) hsome.symm fun refusal h => ?_
          cases hsome.symm.trans h
          exact ⟨rfl, spared_self b _⟩
      · -- no tail goes along with a stale reservation, so the epoch stays where it is
        have hstale : ¬ b.Live r := fun hlive => hepoch ((epoch_eq_iff hlimit).mpr hlive.2)
        have hsame : b.abandoned = b.unreserved :=
          trimmed_eq_self b.unreserved (Nat.le_of_eq (hexact.capacity_of_stale hres hstale))
        have hrun := run_commit_stale hres hepoch count
        rw [hsame] at hrun
        have hsome := hbreach.trans (breachAt?_eq_some_iff.mpr (.inl ⟨hepoch, rfl⟩))
        refine judged_of_run (run_answer hrun Answer.settled) hsome.symm fun refusal h => ?_
        cases hsome.symm.trans h
        exact ⟨rfl, spared_unreserved hres⟩

/-- Only three kinds of operations settle anything, and each is `Judged`. -/
theorem judged (h : b.Ordered) (hexact : b.Exact) (hlimit : b.changes < epochLimit) (operation : Operation σ α) :
    b.Judged operation := by
  cases operation with
  | release t count => exact judged_release b t count
  | borrow settle => exact judged_borrow h settle
  | commit count => exact judged_commit hexact hlimit count
  | stagingSize direction =>
      refine ⟨nofun, fun _ step hrun => ?_⟩
      cases hrun
      rfl
  | hintStaging size direction =>
      refine ⟨nofun, fun _ step hrun => ?_⟩
      cases hrun
      rfl
  | _ =>
      refine ⟨nofun, fun _ step hrun => ?_⟩
      obtain ⟨first, -, rfl⟩ := value_of_answer hrun
      rfl

/-- An operation that is refused goes wrong for what the `refusal` says, and leaves the buffer `Spared`. -/
theorem Judged.of_refusal {operation : Operation σ α} (h : b.Judged operation)
    {step : Step (Buffer σ) Event (Answer σ α)} (hrun : operation.perform.run b = .ok step)
    (hrefusal : step.value.refusal? = some refusal) :
    b.breach? operation = some refusal ∧ refusal.isLeaseViolation = true ∧ b.Spared refusal step.state := by
  cases hbreach : b.breach? operation with
  | none =>
      have hnone := h.granted hbreach step hrun
      rw [hrefusal] at hnone
      cases hnone
  | some other =>
      obtain ⟨refused, hrefused, hother, hspared⟩ := h.refused other hbreach
      rw [hrun] at hrefused
      cases hrefused
      cases hother.symm.trans hrefusal
      exact ⟨rfl, hspared⟩

/-- A `commit` of too much does nothing at all. -/
theorem run_commit_of_breach {count requested length : Nat}
    (h : b.breach? (.commit count : Operation σ α) = some (.leaseOverrun requested length)) :
    (Operation.commit count : Operation σ α).perform.run b =
      .ok ⟨.settled (.error (.leaseOverrun requested length)), b, []⟩ := by
  unfold breach? at h
  cases hres : b.reservation with
  | none =>
      rw [hres] at h
      cases h
  | some r =>
      rw [hres] at h
      rcases breachAt?_eq_some_iff.mp h with ⟨-, hstale⟩ | ⟨hepoch, hcount, hoverrun⟩
      · cases hstale
      · cases hoverrun
        exact run_answer (run_commit_overrun hres hepoch hcount) Answer.settled

end Buffer

/-! ## Runs -/

section Runs

variable {σ α : Type} [Store σ α] {entries : List (Entry σ α)} {first last : Buffer σ}

/-- After an operation that changes nothing and reports nothing, `Operation.performAll` runs the others as it would
    without it. -/
theorem performAll_of_inert {operation : Operation σ α} {answer : Answer σ α}
    (hrun : operation.perform.run last = .ok ⟨answer, last, []⟩) (rest : List (Operation σ α)) :
    (Operation.performAll (operation :: rest)).run last =
      ((Operation.performAll rest).run last).map fun later => ⟨answer :: later.value, later.state, later.events⟩ := by
  rw [Operation.performAll_cons, run_bind_of_silent hrun, bind_pure_comp, run_map]

variable [LawfulStore σ]

/-- **A refused settlement leaves the buffer as it was.** Whatever was done to a new buffer, with its own tickets and
    short of the last epoch:
    - a settlement, which may present any ticket, is refused exactly for its `breach?`, and leaves the buffer `Spared`:
      head, valid elements, store with its tail, capacity, epoch and open sides stay as they are, and so does the
      reservation, unless the refusal is that of a `commit` which finds it stale and takes it off the record;
    - where there is a `breach?`, the settlement does not fault;
    - after a `commit` of too much, whatever is asked for next, one operation or many, answers, leaves and reports what
      it would have without that `commit`. -/
theorem refused_settlement_spares (hnew : first.New) (hrun : Run first entries last) (hown : OwnTickets entries)
    (hlimit : EpochsFit entries) :
    (∀ (operation : Operation σ α) (step : Step (Buffer σ) Event (Answer σ α)) (refusal : Refusal),
        operation.perform.run last = .ok step → step.value.refusal? = some refusal →
        last.breach? operation = some refusal ∧ refusal.isLeaseViolation = true ∧ last.Spared refusal step.state) ∧
      (∀ (operation : Operation σ α) (refusal : Refusal), last.breach? operation = some refusal →
        ∃ step, operation.perform.run last = .ok step ∧ step.value.refusal? = some refusal) ∧
      ∀ (count requested length : Nat) (step : Step (Buffer σ) Event (Answer σ α)),
        (Operation.commit count).perform.run last = .ok step →
        step.value = .settled (.error (.leaseOverrun requested length)) → ∀ rest : List (Operation σ α),
        (Operation.performAll (.commit count :: rest)).run last =
          ((Operation.performAll rest).run last).map fun later =>
            ⟨step.value :: later.value, later.state, later.events⟩ := by
  obtain ⟨hguard, hexact, hend⟩ := hrun.guarded_exact hnew hown hlimit
  have hjudged : ∀ operation : Operation σ α, last.Judged operation := Buffer.judged hguard.ordered hexact hend
  refine ⟨?_, ?_, ?_⟩
  · intro operation step refusal hperform hrefusal
    exact (hjudged operation).of_refusal hperform hrefusal
  · intro operation refusal hreason
    obtain ⟨step, hperform, hrefusal, -⟩ := (hjudged operation).refused refusal hreason
    exact ⟨step, hperform, hrefusal⟩
  · intro count requested length step hperform hvalue rest
    have hreason := ((hjudged (.commit count)).of_refusal hperform (by rw [hvalue]; rfl)).1
    have hinert := Buffer.run_commit_of_breach hreason
    rw [hvalue]
    exact performAll_of_inert hinert rest

end Runs

/-- A writer that reserved three bytes refuses to `commit` four, and then commits the one that was filled, as if it had
    not been asked before. A `release` of another buffer's ticket is refused, too. -/
theorem refused_settlement_spares_overhanging :
    ∃ (first : Buffer SmallBytes) (entries : List (Entry SmallBytes UInt8))
        (overrun stale : Step (Buffer SmallBytes) Event (Answer SmallBytes UInt8)),
      first.New ∧ Run first entries .overhanging ∧ OwnTickets entries ∧ EpochsFit entries ∧
        (Operation.commit 4).perform.run .overhanging = .ok overrun ∧
        overrun.value = .settled (.error (.leaseOverrun 4 3)) ∧
        Buffer.overhanging.Spared (.leaseOverrun 4 3) overrun.state ∧
        (Operation.performAll [.commit 4, .commit 1]).run .overhanging =
          ((Operation.performAll [.commit 1]).run .overhanging).map
            (fun later => ⟨.settled (.error (.leaseOverrun 4 3)) :: later.value, later.state, later.events⟩) ∧
        (Operation.release ⟨7, 0, 2⟩ 2).perform.run .overhanging = .ok stale ∧
        stale.value = .settled (.error (.staleLease 7 1)) ∧
        Buffer.overhanging.Spared (.staleLease 7 1) stale.state := by
  obtain ⟨first, entries, hnew, hrun, hown, hlimit⟩ := run_overhanging
  obtain ⟨hspares, -, hinert⟩ := refused_settlement_spares hnew hrun hown hlimit
  have hcommit : (Operation.commit 4 : Operation SmallBytes UInt8).perform.run .overhanging =
      .ok ⟨.settled (.error (.leaseOverrun 4 3)), .overhanging, []⟩ := by
    cbv
  have hrelease : (Operation.release ⟨7, 0, 2⟩ 2 : Operation SmallBytes UInt8).perform.run .overhanging =
      .ok ⟨.settled (.error (.staleLease 7 1)), .overhanging,
        [⟨"w", .staleLease "container_buffer.stale_lease"⟩]⟩ := by
    cbv
  exact ⟨first, entries, _, _, hnew, hrun, hown, hlimit, hcommit, rfl, (hspares _ _ _ hcommit rfl).2.2,
    hinert 4 4 3 _ hcommit rfl _, hrelease, rfl, (hspares _ _ _ hrelease rfl).2.2⟩

end MemStream
