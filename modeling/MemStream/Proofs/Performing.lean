import MemStream.Proofs.Turn

/-!
# `MemStream.Proofs.Performing` — what an operation can do to a buffer

Of a buffer in good order, every operation makes a chain of changes and never a fault, with one exception: the ticket of
another buffer, which may point anywhere. So whatever all changes keep, every operation keeps.

## Contents
- **Effects as changes.** `Changes.moved`, `Changes.closed`, `Changes.emptied`, and `Turn.changes` for all that one
  operation can leave.
- **Epochs.** As long as the count of changes fits into 64 bits, equal epochs are equal counts (`epoch_eq_iff`).
- **Operations.** `Operation.presented?`; `perform_changes` for every operation but a foreign settlement,
  `release_outcomes` for that, and `perform_guarded` for all; `commit_cases` and `release_cases` for settlements that
  do not fault, and `perform_cases` for every operation that does not.
- **Grants.** `lease_of_perform`; `Guarded.granting` takes the ticket that is about to be granted among those to keep.
-/

namespace MemStream

open StateAction

namespace Operation

variable {σ α : Type}

/-- The ticket that an operation is to settle; only `Operation.release` presents one. -/
def presented? : Operation σ α → Option Ticket
  | .release ticket _ => some ticket
  | _ => none

/-- An operation by which a ticket is `presented?` is a `release` of it. -/
theorem eq_release_of_presented {operation : Operation σ α} {t : Ticket} (h : operation.presented? = some t) :
    ∃ count, operation = .release t count := by
  cases operation with
  | release ticket count =>
      cases h
      exact ⟨count, rfl⟩
  | _ => cases h

end Operation

/-- The `Lease` that an answer grants. -/
def Answer.lease? {σ α : Type} : Answer σ α → Option (Lease σ)
  | .lease (.granted held) => some held
  | .borrowed (.granted (held, _)) => some held
  | _ => none

/-- The ticket that an answer grants is that of its `lease?`. -/
theorem Answer.ticket?_eq {σ α : Type} (answer : Answer σ α) :
    answer.ticket? = answer.lease?.map Lease.ticket := by
  cases answer with
  | lease grant => cases grant <;> rfl
  | borrowed grant => cases grant <;> rfl
  | _ => rfl

/-- The faults that `Cursor.check` finds. -/
def Fault.isOrder : Fault → Bool
  | .headPastValid _ _ | .validPastCapacity _ _ => true
  | .positionOverflow _ _ | .rangePastEnd _ _ => false

namespace Buffer

variable {σ α : Type} [Store σ α] {own : Ticket → Prop} {b : Buffer σ}

/-! ## Epochs -/

/-- Below `epochLimit`, the `epoch` is the count of changes itself. -/
theorem toNat_epoch (hlimit : b.changes < epochLimit) : b.epoch.toNat = b.changes := by
  unfold epoch
  rw [UInt64.toNat_ofNat']
  exact Nat.mod_eq_of_lt hlimit

/-- As long as the count of changes fits, an equal `epoch` is an equal count. -/
theorem epoch_eq_iff (hlimit : b.changes < epochLimit) {e : UInt64} : e = b.epoch ↔ e.toNat = b.changes := by
  rw [← toNat_epoch hlimit]
  exact UInt64.toNat_inj.symm

/-! ## Effects as changes -/

theorem Changes.moved (hr : b.canRead = true) {p : Nat} (hp : p ≤ b.valid) : Changes b (b.moved p) := by
  rw [moved_eq_of_le hp]
  exact .single (.pass p 1 hr hp Nat.one_pos)

theorem Changes.filled {n : Nat} (hg : b.grants n = true) (filling : σ) : Changes b (b.filled n filling) :=
  .single (.reserve n filling (grants_iff.mp hg).1 (grants_iff.mp hg).2.1)

theorem Changes.closed (b : Buffer σ) (direction : Directions) : Changes b (b.closed direction) := by
  cases hc : b.access.closes direction with
  | true => exact .single (.close direction hc)
  | false => rw [closed_eq_self hc]

theorem closes_both (b : Buffer σ) : b.access.closes .both = b.isOpen := rfl

/-- Closed on both sides, a buffer is no longer `isOpen`. -/
theorem isOpen_closed_both (b : Buffer σ) : (b.closed .both).isOpen = false := by
  unfold closed
  split
  · rw [isOpen, access_trimmed]
    show ((b.access.readOpen && !true) || (b.access.writeOpen && !true)) = false
    rw [Bool.not_true, Bool.and_false, Bool.and_false]
    rfl
  · next hc =>
      have hcloses : b.access.closes .both = false := by simpa using hc
      exact hcloses

/-- What is `emptied` went through a chain of `Changes`: a close of both sides, and a reset of what is closed by
    then. -/
theorem Changes.emptied (b : Buffer σ) : Changes b b.emptied :=
  (Changes.closed b .both).tail (.empty (isOpen_closed_both b))

/-- On a closed buffer without a tail, `emptied` resets cursor and store and does nothing else. -/
theorem emptied_of_not_isOpen (hclosed : b.isOpen = false) (hcapacity : b.capacity = b.valid) :
    b.emptied = { b with cursor := .zero, data := Store.empty } := by
  have hsame : b.closed .both = b := closed_eq_self ((closes_both b).trans hclosed)
  unfold Buffer.emptied
  rw [hsame, trimmed_eq_self b (Nat.le_of_eq hcapacity)]

variable [LawfulStore σ]

omit [LawfulStore σ] in
theorem Browsed.changes {c : Buffer σ} (h : Browsed b c) : Changes b c := by
  cases h with
  | stay => exact .refl
  | pass p n hr hp hn _ => exact .single (.pass p n hr hp hn)

/-- Every `Turn` of an operation is a chain of `Changes`. -/
theorem Turn.changes {c : Buffer σ} (hturn : Turn b c) (h : b.Ordered) : Changes b c := by
  cases hturn with
  | browse hbrowsed => exact hbrowsed.changes
  | trim => exact .single .trim
  | write elements hw hlimit => exact .single (.write elements hw hlimit)
  | seek p hw hp => exact .single (.seek p hw hp)
  | reserve n filling hg => exact Changes.filled hg filling
  | reserveAndCommit n filling count hg hcount =>
      have hw : (b.filled n filling).canWrite = true := (canWrite_filled b n filling).trans (grants_iff.mp hg).1
      exact (Changes.filled hg filling).tail
        (.commit ⟨(b.filled n filling).epoch, n⟩ count rfl rfl hw (head_add_le_capacity_filled h n filling) hcount)
  | reserveAndAbandon n filling hg => exact (Changes.filled hg filling).tail .abandon
  | abandon => exact .single .abandon
  | close direction hc => exact .single (.close direction hc)

/-! ## Operations -/

omit [LawfulStore σ] in
/-- A reservation of the present epoch fits, so `commit` can be refused, but never faults. -/
theorem commit_changes (h : b.Guarded own) (hlimit : b.changes < epochLimit) (count : Nat) :
    ∃ step, (commit count).run b = .ok step ∧ Changes b step.state := by
  cases hres : b.reservation with
  | none => exact ⟨_, run_commit_none hres count, .refl⟩
  | some r =>
      by_cases hepoch : r.epoch = b.epoch
      · by_cases hcount : count ≤ r.length
        · -- equal epochs are equal counts, so the reservation is live and its room is still there
          obtain ⟨hw, hroom⟩ := h.live r ⟨hres, (epoch_eq_iff hlimit).mp hepoch⟩
          exact ⟨_, run_commit_live h.ordered hres hepoch hw hroom hcount,
            .single (.commit r count hres hepoch hw hroom hcount)⟩
        · exact ⟨_, run_commit_overrun hres hepoch (Nat.not_le.mp hcount), .refl⟩
      · exact ⟨_, run_commit_stale hres hepoch count, .single .abandon⟩

omit [LawfulStore σ] in
/-- The ticket of a buffer either comes too late for `release`, or still fits. -/
theorem release_changes (h : b.Guarded own) (hlimit : b.changes < epochLimit) {t : Ticket} (ht : own t)
    (count : Nat) : ∃ step, (release t count).run b = .ok step ∧ Changes b step.state := by
  by_cases hepoch : t.epoch = b.epoch
  · by_cases hcount : count ≤ t.length
    · -- the epoch is the one of the grant, so the lease still ends with the valid elements
      obtain ⟨hr, hoffset, hlength⟩ := h.lease t ht ((epoch_eq_iff hlimit).mp hepoch)
      have hfit : t.offset + count ≤ b.valid := by omega
      have hmove : t.offset + count ≤ if b.canWrite then b.capacity else b.valid := by
        have hvalid := h.ordered.valid_le
        split <;> omega
      exact ⟨_, run_release_settled h.ordered hepoch hcount hmove, Changes.moved hr hfit⟩
    · exact ⟨_, run_release_overrun hepoch (Nat.not_le.mp hcount), .refl⟩
  · exact ⟨_, run_release_stale hepoch count, .refl⟩

/-- **An operation is a chain of changes.** Its `perform` never faults, unless it presents the ticket of another
    buffer. -/
theorem perform_changes (h : b.Guarded own) (hlimit : b.changes < epochLimit) {operation : Operation σ α}
    (hfits : operation.Fits) (hown : ∀ t, operation.presented? = some t → own t) :
    ∃ step, operation.perform.run b = .ok step ∧ Changes b step.state := by
  by_cases hplain : operation.plain = true
  · obtain ⟨step, hrun, hturn⟩ := perform_turn h.ordered hfits hplain
    exact ⟨step, hrun, hturn.changes h.ordered⟩
  cases operation with
  | takeData => exact leads_answer ⟨_, run_takeData b, Changes.emptied b⟩
  | release ticket count => exact leads_answer (release_changes h hlimit (hown ticket rfl) count)
  | commit count => exact leads_answer (commit_changes h hlimit count)
  | _ => exact absurd rfl hplain

omit [LawfulStore σ] in
/-- Wherever a ticket comes from, its `release` goes through at the epoch of the ticket and moves the head, or is
    refused and changes nothing, or faults in the check of the order (`Fault.isOrder`). -/
theorem release_outcomes (h : b.Ordered) {t : Ticket} (ht : t.offset + t.length < positionLimit) (count : Nat) :
    (t.epoch = b.epoch ∧ count ≤ t.length ∧ (t.offset + count ≤ if b.canWrite then b.capacity else b.valid) ∧
        (release t count).run b = .ok ⟨.ok (t.offset + count), b.moved (t.offset + count), []⟩) ∨
      (∃ refusal events, (release t count).run b = .ok ⟨.error refusal, b, events⟩) ∨
      ∃ fault, (release t count).run b = .error fault ∧ fault.isOrder = true := by
  by_cases hepoch : t.epoch = b.epoch
  · by_cases hcount : count ≤ t.length
    · by_cases hmove : t.offset + count ≤ if b.canWrite then b.capacity else b.valid
      · exact .inl ⟨hepoch, hcount, hmove, run_release_settled h hepoch hcount hmove⟩
      · refine .inr (.inr ⟨_, run_release_fault hepoch hcount (by omega) hmove, ?_⟩)
        cases b.canWrite with
        | true => rfl
        | false => rfl
    · exact .inr (.inl ⟨_, _, run_release_overrun hepoch (Nat.not_le.mp hcount)⟩)
  · exact .inr (.inl ⟨_, _, run_release_stale hepoch count⟩)

omit [LawfulStore σ] in
/-- A `release` that does not fault went through, and left the buffer `moved`, or was refused. -/
theorem release_cases {t : Ticket} (ht : t.offset + t.length < positionLimit) (h : b.Ordered) {count : Nat}
    {step : Step (Buffer σ) Event (Except Refusal Nat)} (hrun : (release t count).run b = .ok step) :
    (t.epoch = b.epoch ∧ count ≤ t.length ∧ step.value = .ok (t.offset + count) ∧
        step.state = b.moved (t.offset + count)) ∨
      ∃ refusal, step.value = .error refusal ∧ step.state = b := by
  rcases release_outcomes h ht count with
    ⟨hepoch, hcount, -, hsettled⟩ | ⟨refusal, events, hrefused⟩ | ⟨fault, hfault, -⟩
  · rw [hsettled] at hrun
    cases hrun
    exact .inl ⟨hepoch, hcount, rfl, rfl⟩
  · rw [hrefused] at hrun
    cases hrun
    exact .inr ⟨refusal, rfl, rfl⟩
  · rw [hfault] at hrun
    cases hrun

/-- A `release` of whatever ticket keeps the buffer `Guarded` and counts up; only a foreign one may fault instead. -/
theorem release_guarded_or_foreign (h : b.Guarded own) (hlimit : b.changes < epochLimit) {t : Ticket}
    (ht : t.offset + t.length < positionLimit) (count : Nat) :
    (∃ step, (release t count).run b = .ok step ∧ step.state.Guarded own ∧ b.changes ≤ step.state.changes) ∨
      ∃ fault, (release t count).run b = .error fault ∧ ¬ own t ∧ fault.isOrder = true := by
  by_cases hown : own t
  · obtain ⟨step, hrun, hchanges⟩ := release_changes h hlimit hown count
    exact .inl ⟨step, hrun, hchanges.guarded h, hchanges.changes_le⟩
  · rcases release_outcomes h.ordered ht count with
      ⟨-, -, hmove, hsettled⟩ | ⟨refusal, events, hrefused⟩ | ⟨fault, hfault, horder⟩
    · exact .inl ⟨_, hsettled, h.moved hmove, Nat.le_succ _⟩
    · exact .inl ⟨_, hrefused, h, Nat.le_refl _⟩
    · exact .inr ⟨fault, hfault, hown, horder⟩

/-- **An operation keeps the buffer `Guarded` and counts up, or it presents the ticket of another buffer and
    faults.** -/
theorem perform_guarded (h : b.Guarded own) (hlimit : b.changes < epochLimit) {operation : Operation σ α}
    (hfits : operation.Fits) :
    (∃ step, operation.perform.run b = .ok step ∧ step.state.Guarded own ∧ b.changes ≤ step.state.changes) ∨
      ∃ t fault, operation.presented? = some t ∧ ¬ own t ∧
        operation.perform.run b = .error fault ∧ fault.isOrder = true := by
  cases hticket : operation.presented? with
  | none =>
      have hown : ∀ t, operation.presented? = some t → own t := by
        intro t ht
        rw [hticket] at ht
        cases ht
      obtain ⟨step, hrun, hchanges⟩ := perform_changes h hlimit hfits hown
      exact .inl ⟨step, hrun, hchanges.guarded h, hchanges.changes_le⟩
  | some t =>
      -- a settlement may present any ticket, so whether the ticket is an own one has to be asked first
      obtain ⟨count, rfl⟩ := Operation.eq_release_of_presented hticket
      rcases release_guarded_or_foreign h hlimit hfits count with hok | ⟨fault, hfault, hforeign, horder⟩
      · exact .inl (leads_answer (R := fun c => c.Guarded own ∧ b.changes ≤ c.changes) hok)
      · exact .inr ⟨t, fault, rfl, hforeign, run_bind_of_error hfault, horder⟩

omit [LawfulStore σ] in
/-- A `commit` of a reservation that looks live does not fault only where its room is there. -/
theorem room_of_commit {r : Reservation} (hres : b.reservation = some r) (hepoch : r.epoch = b.epoch) {count : Nat}
    (hcount : count ≤ r.length) {step : Step (Buffer σ) Event (Except Refusal Nat)}
    (hrun : (commit count).run b = .ok step) : b.head + count ≤ if b.canWrite then b.capacity else b.valid := by
  by_cases hmove : b.head + count ≤ if b.canWrite then b.capacity else b.valid
  · exact hmove
  rw [run_commit_good hres hepoch hcount] at hrun
  by_cases hlimit : b.head + count < positionLimit
  · have hfault := run_moveHead_fault (b := b.unreserved) hmove
    rw [addPosition_of_lt hlimit, run_ensure_ok_bind, run_bind_of_error hfault] at hrun
    cases hrun
  · unfold addPosition at hrun
    rw [if_neg hlimit, run_ensure_error_bind] at hrun
    cases hrun

omit [LawfulStore σ] in
/-- A `commit` that does not fault moves the head (`committed`), or gives the reservation up (`abandoned`), or does
    nothing. -/
theorem commit_cases (h : b.Ordered) {count : Nat} {step : Step (Buffer σ) Event (Except Refusal Nat)}
    (hrun : (commit count).run b = .ok step) :
    ((b.head + count ≤ if b.canWrite then b.capacity else b.valid) ∧ step.value = .ok count ∧
        step.state = b.committed count) ∨
      ∃ refusal, step.value = .error refusal ∧ (step.state = b.abandoned ∨ step.state = b) := by
  cases hres : b.reservation with
  | none =>
      rw [run_commit_none hres] at hrun
      cases hrun
      exact .inr ⟨_, rfl, .inr rfl⟩
  | some r =>
      by_cases hepoch : r.epoch = b.epoch
      · by_cases hcount : count ≤ r.length
        · have hmove := room_of_commit hres hepoch hcount hrun
          rw [run_commit_moved h hres hepoch hcount hmove] at hrun
          cases hrun
          exact .inl ⟨hmove, rfl, rfl⟩
        · rw [run_commit_overrun hres hepoch (Nat.not_le.mp hcount)] at hrun
          cases hrun
          exact .inr ⟨_, rfl, .inr rfl⟩
      · rw [run_commit_stale hres hepoch] at hrun
        cases hrun
        exact .inr ⟨_, rfl, .inl rfl⟩

omit [LawfulStore σ] in
/-- What is left by `takeData` is the buffer `emptied`. -/
theorem state_of_takeData {step : Step (Buffer σ) Event (Answer σ α)}
    (hrun : (Operation.takeData : Operation σ α).perform.run b = .ok step) : step.state = b.emptied := by
  obtain ⟨first, hfirst, rfl⟩ := value_of_answer hrun
  rw [run_takeData] at hfirst
  cases hfirst
  rfl

/-- **What an operation can leave.** Whatever was done before and whatever tickets are presented: an operation that does
    not fault takes a `Turn`, or settles a lease or a reservation (`moved`, `committed`), or hands the elements out
    (`emptied`). -/
theorem perform_cases (h : b.Ordered) {operation : Operation σ α} (hfits : operation.Fits)
    {step : Step (Buffer σ) Event (Answer σ α)} (hrun : operation.perform.run b = .ok step) :
    Turn b step.state ∨
      (∃ p, (p ≤ if b.canWrite then b.capacity else b.valid) ∧ step.state = b.moved p) ∨
      (∃ count, (b.head + count ≤ if b.canWrite then b.capacity else b.valid) ∧ step.state = b.committed count) ∨
      operation = .takeData ∧ step.state = b.emptied := by
  by_cases hplain : operation.plain = true
  · obtain ⟨other, hother, hturn⟩ := perform_turn h hfits hplain
    rw [hrun] at hother
    cases hother
    exact .inl hturn
  cases operation with
  | takeData => exact .inr (.inr (.inr ⟨rfl, state_of_takeData hrun⟩))
  | release ticket count =>
      obtain ⟨first, hfirst, rfl⟩ := value_of_answer hrun
      rcases release_outcomes h hfits count with ⟨-, -, hmove, hok⟩ | ⟨refusal, events, hok⟩ | ⟨fault, herror, -⟩
      · rw [hok] at hfirst
        cases hfirst
        exact .inr (.inl ⟨_, hmove, rfl⟩)
      · rw [hok] at hfirst
        cases hfirst
        exact .inl (.stay b)
      · rw [herror] at hfirst
        cases hfirst
  | commit count =>
      obtain ⟨first, hfirst, rfl⟩ := value_of_answer hrun
      rcases commit_cases h hfirst with ⟨hmove, -, hstate⟩ | ⟨-, -, hstate | hstate⟩
      · exact .inr (.inr (.inl ⟨count, hmove, hstate⟩))
      · exact .inl (hstate ▸ .abandon)
      · exact .inl (hstate ▸ .stay b)
  | _ => exact absurd rfl hplain

/-- No operation opens a side again: each one `Narrows` the access. -/
theorem narrows_of_perform (h : b.Ordered) {operation : Operation σ α} (hfits : operation.Fits)
    {step : Step (Buffer σ) Event (Answer σ α)} (hrun : operation.perform.run b = .ok step) :
    b.access.Narrows step.state.access := by
  rcases perform_cases h hfits hrun with hturn | ⟨p, -, hstate⟩ | ⟨count, -, hstate⟩ | ⟨-, hstate⟩
  · exact (hturn.changes h).narrows
  · rw [hstate]
    exact .refl _
  · rw [hstate]
    exact .of_eq (access_trimmed _)
  · rw [hstate]
    exact (Changes.emptied b).narrows

/-- What `canRead` after an operation could be read before it. -/
theorem canRead_of_perform (h : b.Ordered) {operation : Operation σ α} (hfits : operation.Fits)
    {step : Step (Buffer σ) Event (Answer σ α)} (hrun : operation.perform.run b = .ok step)
    (hr : step.state.canRead = true) : b.canRead = true :=
  (narrows_of_perform h hfits hrun).readOpen hr

/-! ## Grants -/

omit [LawfulStore σ] in
/-- A lease that `borrow` lends for a while is the one on `offer`. -/
theorem offer_of_borrow (h : b.Ordered) {settle : Option Nat}
    {step : Step (Buffer σ) Event (Grant (Lease σ × Option (Except Refusal Nat)))}
    (hrun : (borrow settle).run b = .ok step) {pair : Lease σ × Option (Except Refusal Nat)}
    (hvalue : step.value = .granted pair) : b.offer = .granted pair.1 := by
  rcases borrow_cases h hrun with ⟨hoffer, hsettled | hoverrun | hheld⟩ | ⟨hnone, -⟩
  · obtain ⟨count, -, hother, -⟩ := hsettled
    rw [hvalue] at hother
    cases hother
    exact hoffer
  · obtain ⟨count, -, hother, -⟩ := hoverrun
    rw [hvalue] at hother
    cases hother
    exact hoffer
  · have hother := hheld.1
    rw [hvalue] at hother
    cases hother
    exact hoffer
  · exact absurd hvalue (hnone pair)

omit [LawfulStore σ] in
/-- Whoever is granted a `lease?` gets everything from the head on. -/
theorem lease_of_perform (h : b.Ordered) {operation : Operation σ α} {step : Step (Buffer σ) Event (Answer σ α)}
    (hrun : operation.perform.run b = .ok step) {held : Lease σ} (hheld : step.value.lease? = some held) :
    b.canRead = true ∧ 0 < b.available ∧ held = b.lease := by
  have hoffer : b.offer = .granted held := by
    cases operation with
    | acquire =>
        obtain ⟨first, hfirst, rfl⟩ := value_of_answer hrun
        rw [run_acquire h] at hfirst
        cases hfirst
        cases hgrant : b.offer with
        | granted other =>
            rw [hgrant] at hheld
            cases hheld
            rfl
        | retry => rw [hgrant] at hheld; cases hheld
        | endOfStream => rw [hgrant] at hheld; cases hheld
        | refused => rw [hgrant] at hheld; cases hheld
    | borrow settle =>
        obtain ⟨first, hfirst, rfl⟩ := value_of_answer hrun
        cases hgrant : first.value with
        | granted pair =>
            rw [hgrant] at hheld
            cases hheld
            exact offer_of_borrow h hfirst hgrant
        | retry => rw [hgrant] at hheld; cases hheld
        | endOfStream => rw [hgrant] at hheld; cases hheld
        | refused => rw [hgrant] at hheld; cases hheld
    | stagingSize direction =>
        cases hrun
        cases hheld
    | hintStaging size direction =>
        cases hrun
        cases hheld
    | _ =>
        -- no other operation has a lease in its answer
        obtain ⟨first, -, rfl⟩ := value_of_answer hrun
        cases hheld
  obtain ⟨-, hr, havail, rfl⟩ := offer_eq_granted hoffer
  exact ⟨hr, havail, rfl⟩

omit [LawfulStore σ] in
/-- A ticket is granted only to whom the buffer `canRead`, and is that of the `lease` it could give. -/
theorem ticket_of_perform (h : b.Ordered) {operation : Operation σ α} {step : Step (Buffer σ) Event (Answer σ α)}
    (hrun : operation.perform.run b = .ok step) {t : Ticket} (ht : step.value.ticket? = some t) :
    b.canRead = true ∧ 0 < b.available ∧ t = b.lease.ticket := by
  rw [Answer.ticket?_eq] at ht
  obtain ⟨held, hheld, rfl⟩ := Option.map_eq_some_iff.mp ht
  obtain ⟨hr, havail, rfl⟩ := lease_of_perform h hrun hheld
  exact ⟨hr, havail, rfl⟩

omit [LawfulStore σ] in
/-- With the ticket it is about to grant, a buffer is `Guarded` as before. -/
theorem Guarded.granting (h : b.Guarded own) (hlimit : b.changes < epochLimit) {operation : Operation σ α}
    {step : Step (Buffer σ) Event (Answer σ α)} (hrun : operation.perform.run b = .ok step) :
    b.Guarded fun t => own t ∨ step.value.ticket? = some t where
  ordered := h.ordered
  coherent := h.coherent
  unwritten := h.unwritten
  issued t ht := by
    rcases ht with hold | hnew
    · exact h.issued t hold
    · obtain ⟨-, -, rfl⟩ := ticket_of_perform h.ordered hrun hnew
      exact Nat.le_of_eq (toNat_epoch hlimit)
  lease t ht hepoch := by
    rcases ht with hold | hnew
    · exact h.lease t hold hepoch
    · obtain ⟨hr, -, rfl⟩ := ticket_of_perform h.ordered hrun hnew
      exact ⟨hr, rfl, h.ordered.head_add_available⟩
  reserved := h.reserved
  live := h.live

end Buffer

end MemStream
