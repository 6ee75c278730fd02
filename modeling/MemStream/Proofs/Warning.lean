import MemStream.Proofs.Settling

/-!
# `MemStream.Proofs.Warning` — which refusals the log tells of

A lease that has gone stale, or is settled for more than it held, is warned of in the log: once, under the label of the
buffer and with the code of the refusal. A reservation that has gone stale, or is committed for more than it held, is
refused with the same two refusals, and nothing in the log tells of it. Nor does anything in the log warn of what goes
well.

## Contents
- **Warnings.** `warnings`, `Buffer.Warns`, and `Buffer.Logs` for what the log tells of a settlement.
- **Refusals.** `Answer.denial?` is the refusal that an answer tells of, that of a reservation which was filled and
  committed in one go included.
- **Leases.** `run_release_refused`; `logs_release`, `logs_borrow`.
- **Reservations.** `run_commit_refused`; `warnings_commit`, `warnings_reserveWith`.
- **Operations.** `denial_cases` and `warnings_of_settled`, for whatever is asked for.
- **Runs.** `lease_refusal_warned_iff`.
-/

namespace MemStream

open StateAction

/-! ## Warnings -/

/-- The events that ask for attention: those of `Level.warn`. -/
def warnings (events : List Event) : List Event :=
  events.filter fun e => decide (e.notice.level = .warn)

theorem warnings_append (earlier later : List Event) : warnings (earlier ++ later) = warnings earlier ++ warnings later :=
  List.filter_append _ _

/-- The log warns of a `refusal` once, under the label of the buffer and with the `Refusal.code`. -/
def Buffer.Warns {σ : Type} (b : Buffer σ) (refusal : Refusal) (events : List Event) : Prop :=
  ∃ e, warnings events = [e] ∧ ("label", b.label) ∈ e.fields ∧ ("code", refusal.code) ∈ e.fields

/-- The log `Warns` of the refusal that there was, and of nothing if there was none. -/
def Buffer.Logs {σ : Type} (b : Buffer σ) (denial? : Option Refusal) (events : List Event) : Prop :=
  match denial? with
  | some refusal => b.Warns refusal events
  | none => warnings events = []

/-! ## Refusals -/

/-- The `Refusal` that an answer tells of, whatever was asked for. -/
def Answer.denial? {σ α : Type} : Answer σ α → Option Refusal
  | .filled ⟨_, .error refusal⟩ => some refusal
  | answer => answer.refusal?

namespace Operation

variable {σ α : Type}

/-- Whether an operation settles a lease: `release` or `borrow`. -/
def settlesLease : Operation σ α → Bool
  | .release _ _ | .borrow _ => true
  | _ => false

/-- Whether an operation settles a lease or a reservation that was granted before: `settlesLease`, or a `commit`. -/
def settles : Operation σ α → Bool
  | .release _ _ | .borrow _ | .commit _ => true
  | _ => false

end Operation

namespace Buffer

variable {σ α : Type} [Store σ α] {b : Buffer σ}

theorem warnings_trimEvents (b : Buffer σ) : warnings b.trimEvents = [] := by
  unfold trimEvents
  split
  · rfl
  · rfl

/-- Room that the buffer `admits` is nothing to warn of. -/
theorem warnings_growEvents {p : Nat} (hadmits : b.admits p = true) : warnings (b.growEvents p) = [] := by
  unfold growEvents
  split
  · rfl
  · next hgrow =>
      have haccepts : Store.accepts b.data p = true := by
        simpa [admits, hgrow] using hadmits
      rw [if_pos haccepts]
      rfl

theorem warnings_roomEvents {n : Nat} (hg : b.grants n = true) : warnings (b.roomEvents n) = [] := by
  unfold roomEvents
  rw [warnings_append, warnings_trimEvents, warnings_growEvents (grants_iff.mp hg).2.2]
  rfl

/-! ## Leases -/

/-- A `release` logs the refusal that it answers with. -/
theorem logs_release {t : Ticket} {count : Nat} {step : Step (Buffer σ) Event (Answer σ α)}
    (hrun : (Operation.release t count : Operation σ α).perform.run b = .ok step) :
    b.Logs step.value.denial? step.events := by
  by_cases hepoch : t.epoch = b.epoch
  · by_cases hcount : t.length < count
    · cases (run_answer (run_release_overrun hepoch hcount) Answer.settled).symm.trans hrun
      exact ⟨_, rfl, List.mem_cons_self, List.mem_cons_of_mem _ List.mem_cons_self⟩
    · obtain ⟨settled, hsettled, rfl⟩ := value_of_answer hrun
      unfold release at hsettled
      rw [run_look_bind, run_ite, if_neg fun hne => hne hepoch, run_ite, if_neg hcount] at hsettled
      obtain ⟨position, hdone⟩ := run_moveHead_bind_eq_ok hsettled
      cases hdone
      rfl
  · cases (run_answer (run_release_stale hepoch count) Answer.settled).symm.trans hrun
    exact ⟨_, rfl, List.mem_cons_self, List.mem_cons_of_mem _ List.mem_cons_self⟩

/-- What is wrong with a ticket (`breachAt?`) is answered, and the `release` does not fault. -/
theorem run_release_refused {t : Ticket} {count : Nat} {refusal : Refusal}
    (hbreach : b.breachAt? t.epoch t.length count = some refusal) :
    ∃ step, (Operation.release t count : Operation σ α).perform.run b = .ok step ∧
      step.value = .settled (.error refusal) := by
  rcases breachAt?_eq_some_iff.mp hbreach with ⟨hepoch, rfl⟩ | ⟨hepoch, hcount, rfl⟩
  · exact ⟨_, run_answer (run_release_stale hepoch count) Answer.settled, rfl⟩
  · exact ⟨_, run_answer (run_release_overrun hepoch hcount) Answer.settled, rfl⟩

/-- A `borrow` logs the refusal that it answers with. -/
theorem logs_borrow (h : b.Ordered) {settle : Option Nat} {step : Step (Buffer σ) Event (Answer σ α)}
    (hrun : (Operation.borrow settle : Operation σ α).perform.run b = .ok step) :
    b.Logs step.value.denial? step.events := by
  obtain ⟨borrowed, hborrowed, rfl⟩ := value_of_answer hrun
  rw [run_borrow h] at hborrowed
  split at hborrowed
  · split at hborrowed
    · cases hborrowed
      rfl
    · cases hborrowed
      exact ⟨_, rfl, List.mem_cons_self, List.mem_cons_of_mem _ List.mem_cons_self⟩
  all_goals
    cases hborrowed
    rfl

/-! ## Reservations -/

/-- A `commit` may drop a tail, and reports nothing else. -/
theorem warnings_commit {count : Nat} {step : Step (Buffer σ) Event (Answer σ α)}
    (hrun : (Operation.commit count : Operation σ α).perform.run b = .ok step) : warnings step.events = [] := by
  obtain ⟨settled, hsettled, rfl⟩ := value_of_answer hrun
  cases hres : b.reservation with
  | none =>
      cases (run_commit_none hres count).symm.trans hsettled
      rfl
  | some r =>
      by_cases hepoch : r.epoch = b.epoch
      · by_cases hcount : count ≤ r.length
        · rw [run_commit_good hres hepoch hcount] at hsettled
          obtain ⟨position, hdropped⟩ := run_moveHead_bind_eq_ok hsettled
          rw [run_dropTail_bind] at hdropped
          cases hdropped
          show warnings ((b.unreserved.moved position).trimEvents ++ []) = []
          rw [List.append_nil, warnings_trimEvents]
        · cases (run_commit_overrun hres hepoch (Nat.not_le.mp hcount)).symm.trans hsettled
          rfl
      · cases (run_commit_stale hres hepoch count).symm.trans hsettled
        exact warnings_trimEvents _

/-- What is wrong with a `commit` (`breach?`) is answered, and the commit does not fault. -/
theorem run_commit_refused {count : Nat} {refusal : Refusal}
    (hbreach : b.breach? (.commit count : Operation σ α) = some refusal) :
    ∃ step told, (Operation.commit count : Operation σ α).perform.run b = .ok step ∧
      step.value = .settled (.error told) ∧ told.code = refusal.code := by
  unfold breach? at hbreach
  cases hres : b.reservation with
  | none =>
      rw [hres] at hbreach
      cases hbreach
      exact ⟨_, _, run_answer (run_commit_none hres count) Answer.settled, rfl, rfl⟩
  | some r =>
      rw [hres] at hbreach
      rcases breachAt?_eq_some_iff.mp hbreach with ⟨hepoch, rfl⟩ | ⟨hepoch, hcount, rfl⟩
      · exact ⟨_, _, run_answer (run_commit_stale hres hepoch count) Answer.settled, rfl, rfl⟩
      · exact ⟨_, _, run_answer (run_commit_overrun hres hepoch hcount) Answer.settled, rfl, rfl⟩

/-- Where room was made, `reserveWith` is not warned of, however much is committed. -/
theorem warnings_reserveWith [LawfulStore σ] (h : b.Ordered) {count : Nat} {filling : σ} {written : Nat}
    {step : Step (Buffer σ) Event (Answer σ α)}
    (hrun : (Operation.reserveWith count filling written : Operation σ α).perform.run b = .ok step)
    (hroom : b.grants count = true) : warnings step.events = [] := by
  obtain ⟨filled, hfilled, rfl⟩ := value_of_answer hrun
  rw [run_reserveWith h, if_pos hroom] at hfilled
  split at hfilled
  all_goals
    cases hfilled
    rw [warnings_append, warnings_roomEvents hroom]
    exact warnings_trimEvents _

/-! ## Operations -/

/-- Whatever was asked for: a refusal is warned of if the operation `settlesLease`, and otherwise nothing is. -/
theorem denial_cases [LawfulStore σ] (h : b.Ordered) {operation : Operation σ α}
    {step : Step (Buffer σ) Event (Answer σ α)} (hrun : operation.perform.run b = .ok step) {refusal : Refusal}
    (hdenial : step.value.denial? = some refusal) :
    operation.settlesLease = true ∧ b.Warns refusal step.events ∨
      operation.settlesLease = false ∧ warnings step.events = [] := by
  cases operation with
  | release t count =>
      have hlogs := logs_release hrun
      rw [hdenial] at hlogs
      exact .inl ⟨rfl, hlogs⟩
  | borrow settle =>
      have hlogs := logs_borrow h hrun
      rw [hdenial] at hlogs
      exact .inl ⟨rfl, hlogs⟩
  | commit count => exact .inr ⟨rfl, warnings_commit hrun⟩
  | reserveWith count filling written =>
      -- without room there is nothing to commit, and then nothing is refused
      have hroom : b.grants count = true := by
        by_contra hnone
        obtain ⟨filled, hfilled, rfl⟩ := value_of_answer hrun
        rw [run_reserveWith h, if_neg hnone] at hfilled
        cases hfilled
        cases hdenial
      exact .inr ⟨rfl, warnings_reserveWith h hrun hroom⟩
  | stagingSize direction =>
      cases hrun
      cases hdenial
  | hintStaging size direction =>
      cases hrun
      cases hdenial
  | _ =>
      obtain ⟨first, -, rfl⟩ := value_of_answer hrun
      cases hdenial

/-- Nothing is warned of where an operation that `settles` is not refused. -/
theorem warnings_of_settled (h : b.Ordered) {operation : Operation σ α} (hsettles : operation.settles = true)
    {step : Step (Buffer σ) Event (Answer σ α)} (hrun : operation.perform.run b = .ok step)
    (hdenial : step.value.denial? = none) : warnings step.events = [] := by
  cases operation with
  | release t count =>
      have hlogs := logs_release hrun
      rw [hdenial] at hlogs
      exact hlogs
  | borrow settle =>
      have hlogs := logs_borrow h hrun
      rw [hdenial] at hlogs
      exact hlogs
  | commit count => exact warnings_commit hrun
  | _ => cases hsettles

end Buffer

/-! ## Runs -/

section Runs

variable {σ α : Type} [Store σ α] [LawfulStore σ] {entries : List (Entry σ α)} {first last : Buffer σ}

/-- **The log warns of leases, and not of reservations.** Whatever was done to a new buffer, with whatever tickets:
    - an operation that answers with a refusal (`denial?`) is warned of, once, with label and code (`Warns`), exactly if
      it `settlesLease`; if it commits, be it what was reserved before or in the same go, nothing is warned of;
    - nothing is warned of, either, where a lease or a reservation is settled without a refusal;
    - a lease that is stale, or settled for more than it held, is refused and warned of, and a reservation that is
      stale, or committed for more than it held, is refused with the same code and not warned of; neither faults. -/
theorem lease_refusal_warned_iff (hnew : first.New) (hrun : Run first entries last) :
    (∀ (operation : Operation σ α) (step : Step (Buffer σ) Event (Answer σ α)) (refusal : Refusal),
        operation.perform.run last = .ok step → step.value.denial? = some refusal →
        (last.Warns refusal step.events ↔ operation.settlesLease = true) ∧
          (operation.settlesLease = false → warnings step.events = [])) ∧
      (∀ (operation : Operation σ α) (step : Step (Buffer σ) Event (Answer σ α)), operation.settles = true →
        operation.perform.run last = .ok step → step.value.denial? = none → warnings step.events = []) ∧
      (∀ (t : Ticket) (count : Nat) (refusal : Refusal), last.breachAt? t.epoch t.length count = some refusal →
        ∃ step, (Operation.release t count : Operation σ α).perform.run last = .ok step ∧
          step.value = .settled (.error refusal) ∧ last.Warns refusal step.events) ∧
      ∀ (count : Nat) (refusal : Refusal), last.breach? (.commit count : Operation σ α) = some refusal →
        ∃ step told, (Operation.commit count : Operation σ α).perform.run last = .ok step ∧
          step.value = .settled (.error told) ∧ told.code = refusal.code ∧ warnings step.events = [] := by
  have h := (hrun.neat hnew.neat).ordered
  refine ⟨?_, ?_, ?_, ?_⟩
  · intro operation step refusal hstep hdenial
    rcases Buffer.denial_cases h hstep hdenial with ⟨hlease, hwarns⟩ | ⟨hother, hquiet⟩
    · exact ⟨⟨fun _ => hlease, fun _ => hwarns⟩, fun hno => absurd hlease (hno ▸ Bool.false_ne_true)⟩
    · refine ⟨⟨?_, fun hlease => absurd hlease (hother ▸ Bool.false_ne_true)⟩, fun _ => hquiet⟩
      rintro ⟨e, hone, -⟩
      rw [hquiet] at hone
      cases hone
  · intro operation step hsettles hstep hdenial
    exact Buffer.warnings_of_settled h hsettles hstep hdenial
  · intro t count refusal hbreach
    obtain ⟨step, hstep, hvalue⟩ := Buffer.run_release_refused (α := α) hbreach
    have hlogs := Buffer.logs_release hstep
    rw [hvalue] at hlogs
    exact ⟨step, hstep, hvalue, hlogs⟩
  · intro count refusal hbreach
    obtain ⟨step, told, hstep, hvalue, hcode⟩ := Buffer.run_commit_refused hbreach
    exact ⟨step, told, hstep, hvalue, hcode, Buffer.warnings_commit hstep⟩

end Runs

/-- A writer that did `reserve` three bytes is warned of a ticket of another buffer, but not of a `commit` of four
    bytes, nor of two bytes that are committed where one was reserved. -/
theorem lease_refusal_warned_iff_overhanging :
    ∃ (first : Buffer SmallBytes) (entries : List (Entry SmallBytes UInt8))
        (stale overrun filled : Step (Buffer SmallBytes) Event (Answer SmallBytes UInt8)),
      first.New ∧ Run first entries .overhanging ∧
        (Operation.release ⟨7, 0, 2⟩ 2).perform.run .overhanging = .ok stale ∧
        stale.value.denial? = some (.staleLease 7 1) ∧ Buffer.overhanging.Warns (.staleLease 7 1) stale.events ∧
        (Operation.commit 4).perform.run .overhanging = .ok overrun ∧
        overrun.value.denial? = some (.leaseOverrun 4 3) ∧ warnings overrun.events = [] ∧
        (Operation.reserveWith 1 ⟨#[9]⟩ 2).perform.run .overhanging = .ok filled ∧
        filled.value.denial? = some (.leaseOverrun 2 1) ∧ warnings filled.events = [] := by
  obtain ⟨first, entries, hnew, hrun, -, -⟩ := run_overhanging
  obtain ⟨hwarned, -, hrefused, -⟩ := lease_refusal_warned_iff hnew hrun
  obtain ⟨stale, hstale, hvalue, hwarns⟩ := hrefused ⟨7, 0, 2⟩ 2 (.staleLease 7 1) (by decide)
  have hcommit : (Operation.commit 4 : Operation SmallBytes UInt8).perform.run .overhanging =
      .ok ⟨.settled (.error (.leaseOverrun 4 3)), .overhanging, []⟩ := by
    cbv
  have hfilled := Buffer.run_reserveWith (hrun.neat hnew.neat).ordered 1 fun _ => (⟨#[9]⟩, 2)
  rw [if_pos (by decide), if_neg (by decide)] at hfilled
  have hanswer := Buffer.run_answer hfilled (Answer.filled (α := UInt8))
  exact ⟨first, entries, stale, _, _, hnew, hrun, hstale, hvalue ▸ rfl, hwarns, hcommit, rfl,
    (hwarned _ _ _ hcommit rfl).2 rfl, hanswer, rfl, (hwarned (.reserveWith 1 ⟨#[9]⟩ 2) _ _ hanswer rfl).2 rfl⟩

/-- So it is not true that whenever something granted turns out to be stale or too small for what is settled, the log
    has `warnings` of it. -/
theorem not_every_refusal_warned :
    ¬ ∀ (first last : Buffer SmallBytes) (entries : List (Entry SmallBytes UInt8))
        (operation : Operation SmallBytes UInt8) (step : Step (Buffer SmallBytes) Event (Answer SmallBytes UInt8))
        (refusal : Refusal),
      first.New → Run first entries last → operation.perform.run last = .ok step →
        step.value.denial? = some refusal →
        ((∃ issued current, refusal = .staleLease issued current) ∨
          ∃ requested granted, refusal = .leaseOverrun requested granted) →
        last.Warns refusal step.events := by
  intro hall
  obtain ⟨first, entries, hnew, hrun, -, -⟩ := run_overhanging
  have hcommit : (Operation.commit 4 : Operation SmallBytes UInt8).perform.run .overhanging =
      .ok ⟨.settled (.error (.leaseOverrun 4 3)), .overhanging, []⟩ := by
    cbv
  obtain ⟨e, hone, -⟩ := hall first .overhanging entries _ _ _ hnew hrun hcommit rfl (.inr ⟨4, 3, rfl⟩)
  cases hone

end MemStream
