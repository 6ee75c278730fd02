import MemStream.Proofs.Run
import MemStream.Store.Cells

/-!
# `MemStream.Proofs.Expiry` — how long a lease is good

A lease is good until an operation disturbs the buffer: takes elements away from the head, moves the head, settles a
lease, closes the reading side, or hands the elements out. The answer of an operation tells whether it disturbed. An
operation that did not has changed nothing at all, so the lease still fits; an operation that did has moved the epoch
on, so the lease is found out by its epoch, and that comes before anything else that may be wrong with the settlement.

## Contents
- **Disturbance.** `Entry.disturbs`; on an open reader, an operation moves the epoch on if it disturbs and changes
  nothing otherwise (`disturbs_marked`), and so does a run (`Run.marked`).
- **Leases in runs.** All leases that are granted before the next disturbance have the same epoch
  (`Run.epoch_of_granted`), at most one of them is settled (`Run.countP_settlesOne`), and what comes of a settlement is
  decided by what happened since the grant (`Run.release_of_grant`); together, `lease_good_until_disturbed`.
-/

namespace MemStream

open StateAction

variable {σ α : Type} [Store σ α]

/-! ## Disturbance -/

/-- Whether an advancing `read` would give anything. -/
def Buffer.hasNext (b : Buffer σ) : Bool :=
  b.canRead && decide (0 < b.available)

/-- Whether an operation took elements from the head on, moved the head, settled a lease, closed a side, or handed out
    the elements of an open buffer. Where the `answer` does not show it, the buffer `before` the operation does. -/
def Entry.disturbs (e : Entry σ α) : Bool :=
  match e.operation, e.answer with
  | .read _ true, .taken elements => decide (0 < Store.size elements)
  | .readOne true, .element value => value.isSome
  -- the answer is the element after the one passed by
  | .skipOne, _ => e.before.hasNext
  | .readToEnd, .elements elements => decide (0 < Store.size elements)
  -- what was read is lost where it is too little or no text
  | .readExact count, _ => decide (0 < count) && e.before.hasNext
  | .readText _, _ => e.before.hasNext
  | .stepBack, .element value => value.isSome
  | .seekTo _ _, .position reached => reached.isSome
  | .seek _ _, .position reached => reached.isSome
  | .seekAny _, .moved (.ok _) => true
  | .release _ _, .settled (.ok _) => true
  | .borrow _, .borrowed (.granted (_, some (.ok _))) => true
  | .close _, .flag effective => effective
  | .takeData, _ => e.before.isOpen
  | _, _ => false

/-- The epoch moves on from `b` to `c` where it is said to be `disturbed`, and nothing changes otherwise. -/
def Marked (disturbed : Bool) (b c : Buffer σ) : Prop :=
  if disturbed then b.changes < c.changes else c = b

theorem Marked.same (b : Buffer σ) : Marked false b b := rfl

theorem Marked.on {b c : Buffer σ} (h : b.changes < c.changes) : Marked true b c := h

namespace Buffer

variable {own : Ticket → Prop} {b : Buffer σ}

/-- Whether an entry `disturbs` is found out by running the action inside the operation. -/
theorem marked_of_run {β : Type} {x : BufferAction σ β} {f : β → Answer σ α} {operation : Operation σ α}
    {step : Step (Buffer σ) Event (Answer σ α)} (hrun : (x >>= fun value => pure (f value)).run b = .ok step)
    (hx : ∃ first, x.run b = .ok first ∧
      Marked (Entry.disturbs ⟨b, operation, f first.value, first.state⟩) b first.state) :
    Marked (Entry.disturbs ⟨b, operation, step.value, step.state⟩) b step.state := by
  exact answer_of_run (R := fun answer c => Marked (Entry.disturbs ⟨b, operation, answer, c⟩) b c) hrun hx

variable [LawfulStore σ]

/-- An advancing read disturbs exactly if something is `upcoming`. -/
theorem marked_consumed (h : b.Ordered) (n : Nat) :
    Marked (decide (0 < Store.size (b.upcoming n))) b (b.consumed n) := by
  by_cases hpos : 0 < Store.size (b.upcoming n)
  · rw [consumed_eq_passed h hpos, decide_eq_true hpos]
    exact .on (Nat.lt_succ_self _)
  · rw [consumed_eq_self hpos, decide_eq_false hpos]
    exact .same b

/-- A buffer `hasNext` where a read of one element gives one. -/
theorem hasNext_eq (h : b.Ordered) : b.hasNext = decide (0 < Store.size (b.upcoming 1)) := by
  unfold hasNext
  rw [size_upcoming h]
  cases hr : b.canRead with
  | true =>
      rw [Bool.true_and, if_pos rfl]
      exact decide_eq_decide.mpr (by omega)
  | false => rfl

/-- A row of reads disturbs exactly if something was `passed`. -/
theorem marked_passed {k n : Nat} (hn : n = 0 ↔ k = 0) {disturbed : Bool} (hpos : disturbed = true ↔ 0 < k) :
    Marked disturbed b (b.passed k n) := by
  cases disturbed with
  | true =>
      have hk := hpos.mp rfl
      exact .on (Nat.lt_add_of_pos_right (Nat.pos_of_ne_zero fun h => Nat.ne_of_gt hk (hn.mp h)))
  | false =>
      have hk : k = 0 := Nat.eq_zero_of_not_pos fun h => Bool.false_ne_true (hpos.mpr h)
      rw [hk, hn.mpr hk]
      exact .same b

/-- A buffer `hasNext` if it can be read and elements are `available`. -/
theorem hasNext_iff : b.hasNext = true ↔ b.canRead = true ∧ 0 < b.available := by
  unfold hasNext
  rw [Bool.and_eq_true, decide_eq_true_eq]

/-- By `seekTo`, an open reader gets where it wants to or changes nothing. -/
theorem seekTo_marked (h : b.Ordered) (hw : b.canWrite = false) {p : Nat} (hp : p < positionLimit)
    (direction : Directions) :
    ∃ first, (seekTo p direction).run b = .ok first ∧ Marked first.value.isSome b first.state := by
  rw [run_seekTo h hp]
  split
  · exact ⟨_, rfl, .on (Nat.lt_succ_self _)⟩
  · rw [if_neg (by rintro ⟨-, hopen⟩; rw [hw] at hopen; cases hopen)]
    exact ⟨_, rfl, .same b⟩

theorem seek_marked (h : b.Ordered) (hw : b.canWrite = false) (target : Target) (direction : Directions) :
    ∃ first, (seek target direction).run b = .ok first ∧ Marked first.value.isSome b first.state := by
  rw [run_seek]
  cases ht : target.position? b.cursor with
  | none => exact ⟨_, rfl, .same b⟩
  | some p => exact seekTo_marked h hw (Target.position?_eq_some_iff.mp ht).2 direction

theorem stepBack_marked (h : b.Ordered) :
    ∃ first, (stepBack (σ := σ)).run b = .ok first ∧ Marked first.value.isSome b first.state := by
  rw [run_stepBack h]
  split
  · exact ⟨_, rfl, .same b⟩
  · next hhead =>
      split
      · next hr =>
          have hle := h.head_le
          have hordered : (b.moved (b.head - 1)).Ordered :=
            h.moved (by have := h.valid_le; split <;> omega)
          -- behind the new head there is at least the element that was gone back over
          have hsome : (Store.head? ((b.moved (b.head - 1)).upcoming 1)).isSome = true := by
            rw [Store.isSome_head?, size_upcoming hordered, canRead_moved, if_pos hr]
            have havail : (b.moved (b.head - 1)).available = b.valid - (b.head - 1) := by
              rw [moved_eq_of_le (by omega)]
              rfl
            exact decide_eq_true (by omega)
          refine ⟨_, rfl, ?_⟩
          show Marked (Store.head? _).isSome b _
          rw [hsome]
          exact .on (Nat.lt_succ_self _)
      · exact ⟨_, rfl, .same b⟩

theorem seekAny_marked (h : b.Ordered) (hw : b.canWrite = false) (target : Target) :
    ∃ first, (seekAny target).run b = .ok first ∧
      Marked (match first.value with | .ok _ => true | .error _ => false) b first.state := by
  obtain ⟨moved, hmoved, hmarked⟩ := seek_marked h hw target (if b.canRead then .reading else .writing)
  unfold seekAny
  rw [run_look_bind, run_bind_of_ok hmoved]
  cases hvalue : moved.value with
  | none =>
      rw [hvalue] at hmarked
      exact ⟨_, rfl, hmarked⟩
  | some position =>
      rw [hvalue] at hmarked
      exact ⟨_, rfl, hmarked⟩

/-- To `readToEnd` disturbs unless there was nothing to read. -/
theorem readToEnd_marked (h : b.Ordered) :
    ∃ first, (readToEnd (σ := σ)).run b = .ok first ∧ Marked (decide (0 < Store.size first.value)) b first.state := by
  obtain ⟨k, n, hgather, hk, -, hn, hpos⟩ := run_gatherAll (fun _ => chunkSize) h
  refine ⟨_, hgather, ?_⟩
  show Marked (decide (0 < Store.size (Store.slice b.data b.head k))) b (b.passed k n)
  have hsize : Store.size (Store.slice b.data b.head k) = k := by
    have havail := h.head_add_available
    have hvalid := h.valid_le
    unfold capacity at hvalid
    rw [Store.size_slice]
    omega
  rw [hsize]
  exact marked_passed hn decide_eq_true_iff

/-- What `readExact` read of too few elements is gone all the same. -/
theorem readExact_marked (h : b.Ordered) (count : Nat) :
    ∃ first, (readExact count).run b = .ok first ∧ Marked (decide (0 < count) && b.hasNext) b first.state := by
  obtain ⟨k, n, hgather, hk, -, hn, hpos⟩ := run_gatherAll (fun gathered => count - gathered) h
  have hmarked : Marked (decide (0 < count) && b.hasNext) b (b.passed k n) := by
    apply marked_passed hn
    rw [hpos, Bool.and_eq_true, decide_eq_true_eq, hasNext_iff]
    rfl
  unfold readExact
  rw [run_bind_of_silent hgather, run_ite]
  split
  · exact ⟨_, rfl, hmarked⟩
  · exact ⟨_, rfl, hmarked⟩

/-- What `readText` read and is no text is gone all the same. -/
theorem readText_marked (h : b.Ordered) (codec : Text.Codec σ) :
    ∃ first, (readText codec).run b = .ok first ∧ Marked b.hasNext b first.state := by
  obtain ⟨k, n, hgather, hk, -, hn, hpos⟩ := run_gatherAll (fun gathered => max probeSize gathered) h
  have hmarked : Marked b.hasNext b (b.passed k n) := by
    apply marked_passed hn
    rw [hpos, hasNext_iff]
    exact ⟨fun hnext => ⟨by decide, hnext⟩, fun hall => hall.2⟩
  unfold readText
  rw [run_bind_of_silent hgather]
  cases codec.decode (Store.slice b.data b.head k) with
  | ok text => exact ⟨_, rfl, hmarked⟩
  | error flaw => exact ⟨_, rfl, hmarked⟩

omit [LawfulStore σ] in
/-- A `close` disturbs exactly where it `closes` something. -/
theorem marked_closed (b : Buffer σ) (direction : Directions) :
    Marked (b.access.closes direction) b (b.closed direction) := by
  cases hc : b.access.closes direction with
  | true => exact .on (changes_lt_closed hc)
  | false =>
      rw [closed_eq_self hc]
      exact .same b

omit [LawfulStore σ] in
/-- To hand out the elements of an open reader closes it, and that disturbs. -/
theorem marked_emptied (hr : b.canRead = true) : Marked b.isOpen b b.emptied := by
  have hcloses : b.access.closes .both = true := by
    show ((true && b.canRead) || (true && b.canWrite)) = true
    rw [hr]
    rfl
  have hopen : b.isOpen = true := by
    show (b.canRead || b.canWrite) = true
    rw [hr]
    rfl
  rw [hopen]
  exact .on (Nat.lt_of_lt_of_le (changes_lt_closed hcloses) (changes_le_trimmed _))

/-- **What an operation does to an open reader.** It moves the epoch on if it `disturbs` and changes nothing
    otherwise. -/
theorem disturbs_marked (h : b.Guarded own) (hr : b.canRead = true) {operation : Operation σ α}
    (hfits : operation.Fits) {step : Step (Buffer σ) Event (Answer σ α)}
    (hrun : operation.perform.run b = .ok step) :
    Marked (Entry.disturbs ⟨b, operation, step.value, step.state⟩) b step.state := by
  obtain ⟨hw, hres, hcapacity⟩ := h.reader hr
  have hord := h.ordered
  cases operation with
  | read count advance =>
      refine marked_of_run hrun ⟨_, run_read hord count advance, ?_⟩
      cases advance with
      | true => exact marked_consumed hord count
      | false => exact .same b
  | peek count => exact marked_of_run hrun ⟨_, run_peek hord count, .same b⟩
  | readOne advance =>
      refine marked_of_run hrun ⟨_, run_readOne hord advance, ?_⟩
      cases advance with
      | true =>
          show Marked (Store.head? (b.upcoming 1)).isSome b (b.consumed 1)
          rw [Store.isSome_head?]
          exact marked_consumed hord 1
      | false => exact .same b
  | skipOne =>
      refine marked_of_run hrun ⟨_, run_skipOne hord, ?_⟩
      show Marked b.hasNext b (b.consumed 1)
      rw [hasNext_eq hord]
      exact marked_consumed hord 1
  | stepBack => exact marked_of_run hrun (stepBack_marked hord)
  | write elements => exact marked_of_run hrun ⟨_, write_of_not_canWrite hord hw elements, .same b⟩
  | writeOne element =>
      have hone : (writeOne (σ := σ) element).run b = .ok ⟨none, b, []⟩ := by
        rw [run_writeOne, write_of_not_canWrite hord hw]
        rfl
      exact marked_of_run hrun ⟨_, hone, .same b⟩
  | seekTo position direction => exact marked_of_run hrun (seekTo_marked hord hw hfits direction)
  | seek target direction => exact marked_of_run hrun (seek_marked hord hw target direction)
  | sync =>
      cases hrun
      exact .same b
  | stagingSize direction =>
      cases hrun
      exact .same b
  | hintStaging size direction =>
      cases hrun
      exact .same b
  | close direction => exact marked_of_run hrun ⟨_, run_close b direction, marked_closed b direction⟩
  | takeData => exact marked_of_run hrun ⟨_, run_takeData b, marked_emptied hr⟩
  | dataCopy =>
      cases hrun
      exact .same b
  | acquire => exact marked_of_run hrun ⟨_, run_acquire hord, .same b⟩
  | borrow settle =>
      obtain ⟨first, hfirst, rfl⟩ := value_of_answer hrun
      rcases borrow_cases hord hfirst with ⟨-, hsettled | hoverrun | hheld⟩ | ⟨hnone, hstate⟩
      · obtain ⟨count, -, hvalue, hstate⟩ := hsettled
        rw [hvalue, hstate]
        exact .on (Nat.lt_succ_self _)
      · obtain ⟨count, -, hvalue, hstate⟩ := hoverrun
        rw [hvalue, hstate]
        exact .same b
      · obtain ⟨hvalue, hstate⟩ := hheld
        rw [hvalue, hstate]
        exact .same b
      · rw [hstate]
        cases hgrant : first.value with
        | granted pair => exact absurd hgrant (hnone pair)
        | retry => exact .same b
        | endOfStream => exact .same b
        | refused => exact .same b
  | release ticket count =>
      obtain ⟨first, hfirst, rfl⟩ := value_of_answer hrun
      rcases release_cases hfits hord hfirst with ⟨-, -, hvalue, hstate⟩ | ⟨refusal, hvalue, hstate⟩
      · rw [hvalue, hstate]
        exact .on (Nat.lt_succ_self _)
      · rw [hvalue, hstate]
        exact .same b
  | reserve count filling =>
      have hnone : (reserveAndFill count filling).run b = .ok ⟨none, b.denied count, b.denyEvents count⟩ := by
        rw [run_reserveAndFill hord, grants_eq_false hw, if_neg Bool.false_ne_true]
      rw [denied_eq_self hw] at hnone
      exact marked_of_run hrun ⟨_, hnone, .same b⟩
  | commit count => exact marked_of_run hrun ⟨_, run_commit_none hres count, .same b⟩
  | abandon => exact marked_of_run hrun ⟨_, run_abandon b, abandoned_eq_self hres hcapacity⟩
  | reserveWith count filling written =>
      have hnone : (reserveWith count fun _ => (filling, written)).run b =
          .ok ⟨⟨none, .ok 0⟩, b.denied count, b.denyEvents count⟩ := by
        rw [run_reserveWith hord, grants_eq_false hw, if_neg Bool.false_ne_true]
      rw [denied_eq_self hw] at hnone
      exact marked_of_run hrun ⟨_, hnone, .same b⟩
  | readToEnd => exact marked_of_run hrun (readToEnd_marked hord)
  | readExact count => exact marked_of_run hrun (readExact_marked hord count)
  | readText codec => exact marked_of_run hrun (readText_marked hord codec)
  | writeAll elements =>
      have hnone : ∃ first, (writeAll elements).run b = .ok first ∧ first.state = b := by
        rw [run_writeAll hord, write_of_not_canWrite hord hw]
        split
        · exact ⟨_, rfl, rfl⟩
        · exact ⟨_, rfl, rfl⟩
      obtain ⟨first, hfirst, hstate⟩ := hnone
      exact marked_of_run hrun ⟨first, hfirst, hstate⟩
  | seekAny target =>
      obtain ⟨first, hfirst, hmarked⟩ := seekAny_marked hord hw target
      refine marked_of_run hrun ⟨first, hfirst, ?_⟩
      cases hvalue : first.value with
      | ok position =>
          rw [hvalue] at hmarked
          exact hmarked
      | error failure =>
          rw [hvalue] at hmarked
          exact hmarked

end Buffer

/-! ## Leases in runs -/

/-- The ticket that an operation settled, by `release` or by `borrow`. -/
def Entry.settled? (e : Entry σ α) : Option Ticket :=
  match e.operation, e.answer with
  | .release t _, .settled (.ok _) => some t
  | .borrow _, .borrowed (.granted (held, some (.ok _))) => some held.ticket
  | _, _ => none

/-- Whether `settled?` is one of these `tickets`. -/
def Entry.settlesOne (tickets : List Ticket) (e : Entry σ α) : Bool :=
  e.settled?.any fun t => decide (t ∈ tickets)

variable [LawfulStore σ] {own : Ticket → Prop} {b c : Buffer σ} {entries : List (Entry σ α)}

/-- **What a run does to an open reader.** It moves the epoch on if any of its operations `disturbs`, and changes
    nothing otherwise. -/
theorem Run.marked (h : Run b entries c) (hb : b.Guarded own) (hr : b.canRead = true) (hstart : b.changes < epochLimit)
    (hlimit : EpochsFit entries) : Marked (entries.any (·.disturbs)) b c := by
  induction h with
  | done b => exact .same b
  | @next b c operation step entries hfits hperform hrest ih =>
      have hnext := hlimit _ List.mem_cons_self
      have hstep := Buffer.disturbs_marked hb hr hfits hperform
      rw [List.any_cons]
      cases hd : Entry.disturbs ⟨b, operation, step.value, step.state⟩ with
      | true =>
          -- disturbed once: the epoch has moved on, and no later operation takes it back
          rw [hd] at hstep
          have hlater := (hrest.guarded (hb.perform hstart hfits hperform).1 hnext hlimit.tail).2.1
          exact .on (Nat.lt_of_lt_of_le hstep hlater)
      | false =>
          -- nothing happened, so the rest of the run starts at the same buffer
          rw [hd] at hstep
          have hsame : step.state = b := hstep
          rw [hsame] at ih hrest
          exact ih hb hr hstart hlimit.tail

/-- Where the reading side is closed, nothing is `granted` any more. -/
theorem Run.granted_of_closed (h : Run b entries c) (hb : b.Guarded own) (hr : b.canRead = false)
    (hstart : b.changes < epochLimit) (hlimit : EpochsFit entries) (t : Ticket) : t ∉ granted entries := by
  induction h generalizing own with
  | done b => exact List.not_mem_nil
  | @next b c operation step entries hfits hperform _ ih =>
      intro ht
      rcases (granted_cons _ _ _).mp ht with hnew | hlater
      · have hopen := (Buffer.ticket_of_perform hb.ordered hperform hnew).1
        rw [hr] at hopen
        cases hopen
      · refine ih (hb.perform hstart hfits hperform).1 ?_ (hlimit _ List.mem_cons_self) hlimit.tail hlater
        cases hopen : step.state.canRead with
        | false => rfl
        | true =>
            have hbefore := Buffer.canRead_of_perform hb.ordered hfits hperform hopen
            rw [hr] at hbefore
            cases hbefore

/-- As long as nothing `disturbs`, all leases are `granted` at the same epoch. The last operation may disturb: what it
    grants, it grants before. -/
theorem Run.epoch_of_granted (h : Run b entries c) (hb : b.Guarded own) (hstart : b.changes < epochLimit)
    (hlimit : EpochsFit entries) (hquiet : ∀ e ∈ entries.dropLast, e.disturbs = false) {t : Ticket}
    (ht : t ∈ granted entries) : t.epoch.toNat = b.changes := by
  induction h with
  | done b => cases ht
  | @next b c operation step entries hfits hperform hrest ih =>
      rcases (granted_cons _ _ _).mp ht with hnew | hlater
      · obtain ⟨-, -, rfl⟩ := Buffer.ticket_of_perform hb.ordered hperform hnew
        exact Buffer.toNat_epoch hstart
      · cases hr : b.canRead with
        | false =>
            have hnone := Run.granted_of_closed (.next hfits hperform hrest) hb hr hstart hlimit t
            exact absurd ht hnone
        | true =>
            -- something is granted later, so this operation is not the last, and it did not disturb
            have hne : entries ≠ [] := by
              rintro rfl
              cases hlater
            rw [List.dropLast_cons_of_ne_nil hne] at hquiet
            have hstep := Buffer.disturbs_marked hb hr hfits hperform
            rw [hquiet _ List.mem_cons_self] at hstep
            have hsame : step.state = b := hstep
            rw [hsame] at ih
            exact ih hb hstart hlimit.tail (fun e he => hquiet e (List.mem_cons_of_mem _ he)) hlater

omit [LawfulStore σ] in
/-- Whoever settles a lease (`settled?`) does so at its epoch, and moves the epoch on. -/
theorem epoch_of_settled (hb : b.Ordered) {operation : Operation σ α} (hfits : operation.Fits)
    {step : Step (Buffer σ) Event (Answer σ α)} (hperform : operation.perform.run b = .ok step) {t : Ticket}
    (ht : Entry.settled? ⟨b, operation, step.value, step.state⟩ = some t) :
    t.epoch = b.epoch ∧ b.changes < step.state.changes := by
  cases operation with
  | release ticket count =>
      obtain ⟨first, hfirst, rfl⟩ := Buffer.value_of_answer hperform
      rcases Buffer.release_cases hfits hb hfirst with ⟨hepoch, -, hvalue, hstate⟩ | ⟨refusal, hvalue, -⟩
      · rw [hvalue] at ht
        cases ht
        exact ⟨hepoch, by rw [hstate]; exact Nat.lt_succ_self _⟩
      · rw [hvalue] at ht
        cases ht
  | borrow settle =>
      obtain ⟨first, hfirst, rfl⟩ := Buffer.value_of_answer hperform
      rcases Buffer.borrow_cases hb hfirst with ⟨-, hsettled | hoverrun | hheld⟩ | ⟨hnone, -⟩
      · obtain ⟨count, -, hvalue, hstate⟩ := hsettled
        rw [hvalue] at ht
        cases ht
        exact ⟨rfl, by rw [hstate]; exact Nat.lt_succ_self _⟩
      · obtain ⟨count, -, hvalue, -⟩ := hoverrun
        rw [hvalue] at ht
        cases ht
      · rw [hheld.1] at ht
        cases ht
      · cases hgrant : first.value with
        | granted pair => exact absurd hgrant (hnone pair)
        | retry => rw [hgrant] at ht; cases ht
        | endOfStream => rw [hgrant] at ht; cases ht
        | refused => rw [hgrant] at ht; cases ht
  | _ => cases ht

/-- Of the tickets of one epoch, at most one is `settled?`, and none once the epoch has moved on. -/
theorem Run.countP_settlesOne (h : Run b entries c) (hb : b.Guarded own) (hstart : b.changes < epochLimit)
    (hlimit : EpochsFit entries) {tickets : List Ticket} {n : Nat} (htickets : ∀ t ∈ tickets, t.epoch.toNat = n) :
    entries.countP (·.settlesOne tickets) ≤ 1 ∧ (n < b.changes → entries.countP (·.settlesOne tickets) = 0) := by
  induction h generalizing own with
  | done b => exact ⟨Nat.zero_le _, fun _ => rfl⟩
  | @next b c operation step entries hfits hperform _ ih =>
      obtain ⟨hstep, hle⟩ := hb.perform hstart hfits hperform
      obtain ⟨hone, hzero⟩ := ih hstep (hlimit _ List.mem_cons_self) hlimit.tail
      rw [List.countP_cons]
      cases hs : Entry.settlesOne tickets ⟨b, operation, step.value, step.state⟩ with
      | false =>
          rw [if_neg Bool.false_ne_true, Nat.add_zero]
          exact ⟨hone, fun hlt => hzero (Nat.lt_of_lt_of_le hlt hle)⟩
      | true =>
          -- the settlement moves the epoch past that of all the tickets, so it is the last
          obtain ⟨t, ht, hmem⟩ := (Option.any_eq_true _ _).mp hs
          obtain ⟨hepoch, hlt⟩ := epoch_of_settled hb.ordered hfits hperform ht
          have hn : b.changes = n := by
            rw [← htickets t (of_decide_eq_true hmem)]
            exact ((Buffer.epoch_eq_iff hstart).mp hepoch).symm
          rw [hzero (hn ▸ hlt), if_pos rfl]
          exact ⟨Nat.le_refl _, fun hbefore => absurd hn (Nat.ne_of_gt hbefore)⟩

/-- What a `release` comes to that is asked for after a grant and any operations since. -/
theorem Run.release_of_grant {e : Entry σ α} (h : Run b (e :: entries) c) (hb : b.Guarded own)
    (hstart : b.changes < epochLimit) (hlimit : EpochsFit (e :: entries)) {held : Lease σ}
    (hheld : e.answer.lease? = some held) (count : Nat) :
    ∃ result after events, (Buffer.release held.ticket count).run c = .ok ⟨result, after, events⟩ ∧
      ((∀ x ∈ e :: entries, x.disturbs = false) → count ≤ held.ticket.length →
        result = .ok (held.ticket.offset + count) ∧ c.head = held.ticket.offset ∧
          held.ticket.offset + held.ticket.length = c.valid ∧
          Store.slice c.data held.ticket.offset held.ticket.length = held.elements ∧
          after.head = held.ticket.offset + count) ∧
      ((∀ x ∈ e :: entries, x.disturbs = false) → held.ticket.length < count →
        result = .error (.leaseOverrun count held.ticket.length)) ∧
      ((∃ x ∈ e :: entries, x.disturbs = true) →
        result = .error (.staleLease held.ticket.epoch c.epoch)) := by
  obtain ⟨hr, rfl⟩ : b.canRead = true ∧ held = b.lease := by
    cases h with
    | next hfits hperform _ =>
        obtain ⟨hr, -, hlease⟩ := Buffer.lease_of_perform hb.ordered hperform hheld
        exact ⟨hr, hlease⟩
  have hmarked := h.marked hb hr hstart hlimit
  have hend := (h.guarded hb hstart hlimit).2.2
  cases hany : (e :: entries).any (·.disturbs) with
  | true =>
      -- the epoch has moved on, and it is checked before the length
      rw [hany] at hmarked
      have hlater : b.changes < c.changes := hmarked
      have hloud : ∃ x ∈ e :: entries, x.disturbs = true := List.any_eq_true.mp hany
      have hepoch : b.lease.ticket.epoch ≠ c.epoch := by
        intro heq
        have hcount : b.epoch.toNat = c.changes := (Buffer.epoch_eq_iff hend).mp heq
        rw [Buffer.toNat_epoch hstart] at hcount
        omega
      have hquiet : ¬ ∀ x ∈ e :: entries, x.disturbs = false := by
        obtain ⟨x, hx, hd⟩ := hloud
        intro hall
        rw [hall x hx] at hd
        cases hd
      exact ⟨_, _, _, Buffer.run_release_stale hepoch count, fun h => absurd h hquiet, fun h => absurd h hquiet,
        fun _ => rfl⟩
  | false =>
      -- the buffer is the one that granted the lease, down to the last field
      rw [hany] at hmarked
      have hsame : c = b := hmarked
      have hloud : ¬ ∃ x ∈ e :: entries, x.disturbs = true := by
        rw [← List.any_eq_true, hany]
        exact Bool.false_ne_true
      have havail := hb.ordered.head_add_available
      have hvalid := hb.ordered.valid_le
      rw [hsame]
      by_cases hcount : count ≤ b.available
      · have hmove : b.lease.ticket.offset + count ≤ if b.canWrite then b.capacity else b.valid := by
          show b.head + count ≤ _
          split <;> omega
        exact ⟨_, _, _, Buffer.run_release_settled hb.ordered (t := b.lease.ticket) rfl hcount hmove,
          fun _ _ => ⟨rfl, rfl, havail, rfl, rfl⟩, fun _ hlt => absurd hcount (Nat.not_le.mpr hlt),
          fun h => absurd h hloud⟩
      · exact ⟨_, _, _, Buffer.run_release_overrun (t := b.lease.ticket) rfl (Nat.not_le.mp hcount),
          fun _ hle => absurd hle hcount, fun _ _ => rfl, fun h => absurd h hloud⟩

omit [LawfulStore σ] in
/-- A lease that `borrow` lends for a while can only be refused for its length. -/
theorem overrun_of_borrow (hb : b.Ordered) {operation : Operation σ α} {step : Step (Buffer σ) Event (Answer σ α)}
    (hperform : operation.perform.run b = .ok step) {held : Lease σ} {refusal : Refusal}
    (hanswer : step.value = .borrowed (.granted (held, some (.error refusal)))) :
    ∃ count, held.ticket.length < count ∧ refusal = .leaseOverrun count held.ticket.length := by
  cases operation with
  | borrow settle =>
      obtain ⟨first, hfirst, rfl⟩ := Buffer.value_of_answer hperform
      have hvalue : first.value = .granted (held, some (.error refusal)) := Answer.borrowed.inj hanswer
      rcases Buffer.borrow_cases hb hfirst with ⟨-, hsettled | hoverrun | hheld⟩ | ⟨hnone, -⟩
      · obtain ⟨count, -, hother, -⟩ := hsettled
        rw [hvalue] at hother
        cases hother
      · obtain ⟨count, hlt, hother, -⟩ := hoverrun
        rw [hvalue] at hother
        cases hother
        exact ⟨count, hlt, rfl⟩
      · have hother := hheld.1
        rw [hvalue] at hother
        cases hother
      · exact absurd hvalue (hnone _)
  | stagingSize direction =>
      cases hperform
      cases hanswer
  | hintStaging size direction =>
      cases hperform
      cases hanswer
  | _ =>
      obtain ⟨first, -, rfl⟩ := Buffer.value_of_answer hperform
      cases hanswer

/-- **A lease is good until it is disturbed.** In every `Run` of a new buffer:
    - A lease that was granted (`lease?`) is settled for `count` elements exactly if nothing `disturbs` since the grant
      and `count` is not more than its length; the lease then still is everything from the head on, and the head moves
      on by `count`. Otherwise the `release` is refused as stale if anything disturbed, and as an overrun if nothing
      did.
    - Of the leases granted between one disturbance and the next, at most one is ever `settled?`.
    - A lease that `borrow` lends for a while is never refused as stale. -/
theorem lease_good_until_disturbed {first last : Buffer σ} (hnew : first.New) (hrun : Run first entries last)
    (hlimit : EpochsFit entries) :
    (∀ earlier e later held, entries = earlier ++ e :: later → e.answer.lease? = some held → ∀ count,
      ∃ result after events, (Buffer.release held.ticket count).run last = .ok ⟨result, after, events⟩ ∧
        ((∀ x ∈ e :: later, x.disturbs = false) → count ≤ held.ticket.length →
          result = .ok (held.ticket.offset + count) ∧ last.head = held.ticket.offset ∧
            held.ticket.offset + held.ticket.length = last.valid ∧
            Store.slice last.data held.ticket.offset held.ticket.length = held.elements ∧
            after.head = held.ticket.offset + count) ∧
        ((∀ x ∈ e :: later, x.disturbs = false) → held.ticket.length < count →
          result = .error (.leaseOverrun count held.ticket.length)) ∧
        ((∃ x ∈ e :: later, x.disturbs = true) →
          result = .error (.staleLease held.ticket.epoch last.epoch))) ∧
    (∀ earlier stretch later, entries = earlier ++ (stretch ++ later) →
      (∀ e ∈ stretch.dropLast, e.disturbs = false) →
      (stretch ++ later).countP (·.settlesOne (granted stretch)) ≤ 1) ∧
    (∀ e ∈ entries, ∀ held refusal, e.answer = .borrowed (.granted (held, some (.error refusal))) →
      ∃ count, held.ticket.length < count ∧ refusal = .leaseOverrun count held.ticket.length) := by
  refine ⟨?_, ?_, ?_⟩
  · rintro earlier e later held rfl hheld count
    obtain ⟨m, own, hrest, hguard, hstart, hfit⟩ := hrun.resume hnew hlimit
    exact hrest.release_of_grant hguard hstart hfit hheld count
  · rintro earlier stretch later rfl hquiet
    obtain ⟨m, own, hrest, hguard, hstart, hfit⟩ := hrun.resume hnew hlimit
    obtain ⟨m', hstretch, -⟩ := Run.append_iff.mp hrest
    have hepoch : ∀ t ∈ granted stretch, t.epoch.toNat = m.changes := fun t ht =>
      hstretch.epoch_of_granted hguard hstart hfit.left hquiet ht
    exact (hrest.countP_settlesOne hguard hstart hfit hepoch).1
  · intro e he held refusal hanswer
    obtain ⟨earlier, later, rfl⟩ := List.append_of_mem he
    obtain ⟨m, own, hrest, hguard, -, -⟩ := hrun.resume hnew hlimit
    cases hrest with
    | next _ hperform _ => exact overrun_of_borrow hguard.ordered hperform hanswer

/-- A reader of three bytes that grants a lease and is then only looked at (`peek`): the lease can be settled for
    two. -/
theorem lease_good_until_disturbed_peeked :
    ∃ (entries : List (Entry SmallBytes UInt8)) (first last : Buffer SmallBytes),
      first.New ∧ Run first entries last ∧ EpochsFit entries ∧
        ∃ after events, (Buffer.release ⟨0, 0, 3⟩ 2).run last = .ok ⟨.ok 2, after, events⟩ ∧ after.head = 2 := by
  let first : Buffer SmallBytes := Buffer.start ⟨#[1, 2, 3]⟩ .reader "r"
  let held : Lease SmallBytes := ⟨⟨#[1, 2, 3]⟩, ⟨0, 0, 3⟩⟩
  let grant : Entry SmallBytes UInt8 := ⟨first, .acquire, .lease (.granted held), first⟩
  let look : Entry SmallBytes UInt8 := ⟨first, .readOne false, .element (some 1), first⟩
  have hnew : first.New := ⟨⟨#[1, 2, 3]⟩, .reading, .reader, "r", rfl, by decide, rfl⟩
  have hgrant : grant.operation.perform.run first = .ok ⟨grant.answer, first, []⟩ := by
    cbv
  have hlook : look.operation.perform.run first = .ok ⟨look.answer, first, []⟩ := by
    cbv
  have hfits : grant.operation.Fits := trivial
  have hfits' : look.operation.Fits := trivial
  have hrun : Run first [grant, look] first := .next hfits hgrant (.next hfits' hlook (.done first))
  have hlimit : EpochsFit [grant, look] := by
    intro e he
    rcases List.mem_cons.mp he with rfl | he
    · decide
    · cases List.mem_singleton.mp he
      decide
  have hquiet : ∀ x ∈ [grant, look], x.disturbs = false := by
    intro x hx
    rcases List.mem_cons.mp hx with rfl | hx
    · rfl
    · cases List.mem_singleton.mp hx
      rfl
  obtain ⟨result, after, events, hrelease, hgood, -, -⟩ :=
    (lease_good_until_disturbed hnew hrun hlimit).1 [] grant [look] held rfl rfl 2
  obtain ⟨rfl, -, -, -, hhead⟩ := hgood hquiet (by decide)
  exact ⟨[grant, look], first, first, hnew, hrun, hlimit, after, events, hrelease, hhead⟩

end MemStream
