import MemStream.Proofs.Change

/-!
# `MemStream.Proofs.Turn` — what one operation can leave

There are many operations and few outcomes. Half of the operations only look at a buffer or move the head of an open
reader, and what they leave is `Browsed`; of the others, all but three leave one of the outcomes listed by `Turn`,
whatever was done to the buffer before. The three are commits and settlements, which depend on what was granted, and
handing out the elements. A statement about all operations is then a statement about the outcomes and about these three.

## Contents
- **Requests.** `Operation.Fits`, `Operation.browses`, `Operation.plain`.
- **Answers.** An operation is an action with its value turned into an answer; `run_answer`, `leads_answer`,
  `value_of_answer` and `answer_of_run` go from the one to the other.
- **Reading.** `Browsed`, `perform_browsed`.
- **Everything else.** `Turn`, `perform_turn`.
-/

namespace MemStream

open StateAction

namespace Operation

variable {σ α : Type}

/-- A position in a request is below `positionLimit`. So is the end of a lease, since a `Ticket` is only ever made by
    the grant of some buffer. -/
def Fits : Operation σ α → Prop
  | .seekTo position _ => position < positionLimit
  | .release ticket _ => ticket.offset + ticket.length < positionLimit
  | _ => True

/-- Whether an operation is one of those that look, or `read`, or go back. -/
def browses : Operation σ α → Bool
  | .read _ _ | .peek _ | .readOne _ | .skipOne | .stepBack | .sync | .stagingSize _ | .hintStaging _ _ | .dataCopy
  | .acquire | .borrow _ | .readToEnd | .readExact _ | .readText _ => true
  | _ => false

/-- Whether an operation neither settles what was granted (`release`, `commit`) nor hands the elements out
    (`takeData`). -/
def plain : Operation σ α → Bool
  | .release _ _ | .commit _ | .takeData => false
  | _ => true

end Operation

namespace Buffer

variable {σ α : Type} [Store σ α] {b c : Buffer σ}

/-! ## Answers -/

/-- The run of an action whose value is turned into an answer by `f`. -/
theorem run_answer {β γ : Type} {x : BufferAction σ β} {step : Step (Buffer σ) Event β} (h : x.run b = .ok step)
    (f : β → γ) :
    (x >>= fun value => pure (f value)).run b = .ok ⟨f step.value, step.state, step.events⟩ := by
  rw [bind_pure_comp, run_map, h]
  rfl

/-- What an action leaves is left, too, when its value is turned into an answer by `f`. -/
theorem leads_answer {β γ : Type} {x : BufferAction σ β} {f : β → γ} {R : Buffer σ → Prop}
    (h : ∃ step, x.run b = .ok step ∧ R step.state) :
    ∃ step, (x >>= fun value => pure (f value)).run b = .ok step ∧ R step.state := by
  obtain ⟨step, hrun, hstate⟩ := h
  exact ⟨_, run_answer hrun f, hstate⟩

/-- The value of an answer is what `f` made of the value of the action. -/
theorem value_of_answer {β γ : Type} {x : BufferAction σ β} {f : β → γ} {step : Step (Buffer σ) Event γ}
    (h : (x >>= fun value => pure (f value)).run b = .ok step) :
    ∃ first, x.run b = .ok first ∧ step = ⟨f first.value, first.state, first.events⟩ := by
  rw [bind_pure_comp, run_map] at h
  cases hx : x.run b with
  | error fault =>
      rw [hx] at h
      cases h
  | ok first =>
      rw [hx] at h
      cases h
      exact ⟨first, rfl, rfl⟩

/-- What is known of the value and the state of an action is known of the answer that `f` makes of it. -/
theorem answer_of_run {β γ : Type} {x : BufferAction σ β} {f : β → γ} {R : γ → Buffer σ → Prop}
    {step : Step (Buffer σ) Event γ} (hrun : (x >>= fun value => pure (f value)).run b = .ok step)
    (hx : ∃ first, x.run b = .ok first ∧ R (f first.value) first.state) : R step.value step.state := by
  obtain ⟨first, hfirst, hknown⟩ := hx
  obtain ⟨other, hother, rfl⟩ := value_of_answer hrun
  rw [hfirst] at hother
  cases hother
  exact hknown

/-! ## Reading -/

/-- What is left by looking and reading. Of an open reader, the head may have been `passed` or `moved`, at most once for
    every element that is there. -/
inductive Browsed (b : Buffer σ) : Buffer σ → Prop where
  | stay : Browsed b b
  | pass (p n : Nat) : b.canRead = true → p ≤ b.valid → 0 < n → n ≤ max 1 b.valid →
      Browsed b { b with cursor := ⟨p, b.valid⟩, changes := b.changes + n }

omit [Store σ α] in
theorem Browsed.moved (hr : b.canRead = true) {p : Nat} (hp : p ≤ b.valid) : Browsed b (b.moved p) := by
  rw [moved_eq_of_le hp]
  exact .pass p 1 hr hp Nat.one_pos (Nat.le_max_left _ _)

/-- A row of reads that each give something leaves the buffer `Browsed`. -/
theorem Browsed.passed (h : b.Ordered) {k n : Nat} (hk : k ≤ b.available) (hle : n ≤ k) (hn : n = 0 ↔ k = 0)
    (hr : 0 < k → b.canRead = true) : Browsed b (b.passed k n) := by
  have havail := h.head_add_available
  rcases Nat.eq_zero_or_pos k with rfl | hpos
  · rw [hn.mpr rfl]
    exact .stay
  · exact .pass (b.head + k) n (hr hpos) (by omega) (by omega) (by omega)

theorem borrow_browsed (h : b.Ordered) (settle : Option Nat) :
    ∃ step, (borrow settle).run b = .ok step ∧ Browsed b step.state := by
  rw [run_borrow h]
  cases hoffer : b.offer with
  | granted held =>
      obtain ⟨-, hr, -, -⟩ := offer_eq_granted hoffer
      have havail := h.head_add_available
      cases settle with
      | none => exact ⟨_, rfl, .stay⟩
      | some count =>
          simp only
          split
          · exact ⟨_, rfl, .moved hr (by omega)⟩
          · exact ⟨_, rfl, .stay⟩
  | retry => exact ⟨_, rfl, .stay⟩
  | endOfStream => exact ⟨_, rfl, .stay⟩
  | refused => exact ⟨_, rfl, .stay⟩

variable [LawfulStore σ]

/-- A read with anything `upcoming` has the reading side open. -/
theorem canRead_of_upcoming (h : b.Ordered) {n : Nat} (hpos : 0 < Store.size (b.upcoming n)) : b.canRead = true := by
  rw [size_upcoming h] at hpos
  cases hr : b.canRead with
  | true => rfl
  | false =>
      rw [hr] at hpos
      exact absurd hpos (Nat.lt_irrefl 0)

theorem Browsed.consumed (h : b.Ordered) (n : Nat) : Browsed b (b.consumed n) := by
  by_cases hpos : 0 < Store.size (b.upcoming n)
  · rw [consumed_eq_passed h hpos]
    exact .passed h (size_upcoming_le h n) hpos (by omega) fun _ => canRead_of_upcoming h hpos
  · rw [consumed_eq_self hpos]
    exact .stay

theorem stepBack_browsed (h : b.Ordered) :
    ∃ step, (stepBack (σ := σ)).run b = .ok step ∧ Browsed b step.state := by
  rw [run_stepBack h]
  split
  · exact ⟨_, rfl, .stay⟩
  split
  · next hr =>
      have hhead := h.head_le
      exact ⟨_, rfl, .moved hr (by omega)⟩
  · exact ⟨_, rfl, .stay⟩

/-- However the requests are chosen, `gatherAll` leaves the buffer `Browsed`. -/
theorem gatherAll_browsed (h : b.Ordered) (request : Nat → Nat) :
    ∃ step, (gatherAll request).run b = .ok step ∧ Browsed b step.state := by
  obtain ⟨k, n, hrun, hk, hle, hn, hpos⟩ := run_gatherAll request h
  exact ⟨_, hrun, .passed h hk hle hn fun hlt => (hpos.mp hlt).2.1⟩

theorem readText_browsed (h : b.Ordered) (codec : Text.Codec σ) :
    ∃ step, (readText codec).run b = .ok step ∧ Browsed b step.state := by
  obtain ⟨step, hrun, hstate⟩ := gatherAll_browsed h fun gathered => max probeSize gathered
  unfold readText
  rw [run_bind_of_ok hrun]
  cases codec.decode step.value with
  | ok text => exact ⟨_, rfl, hstate⟩
  | error flaw => exact ⟨_, rfl, hstate⟩

theorem readExact_browsed (h : b.Ordered) (count : Nat) :
    ∃ step, (readExact count).run b = .ok step ∧ Browsed b step.state := by
  obtain ⟨step, hrun, hstate⟩ := gatherAll_browsed h fun gathered => count - gathered
  unfold readExact
  rw [run_bind_of_ok hrun, run_ite]
  split
  · exact ⟨_, rfl, hstate⟩
  · exact ⟨_, rfl, hstate⟩

/-- **Looking and reading change nothing of a buffer but the head of an open reader.** What an operation that `browses`
    leaves is `Browsed`. -/
theorem perform_browsed (h : b.Ordered) {operation : Operation σ α} (hbrowses : operation.browses = true) :
    ∃ step, operation.perform.run b = .ok step ∧ Browsed b step.state := by
  cases operation with
  | read count advance =>
      refine leads_answer ⟨_, run_read h count advance, ?_⟩
      cases advance with
      | true => exact .consumed h count
      | false => exact .stay
  | readOne advance =>
      refine leads_answer ⟨_, run_readOne h advance, ?_⟩
      cases advance with
      | true => exact .consumed h 1
      | false => exact .stay
  | peek count => exact leads_answer ⟨_, run_peek h count, .stay⟩
  | skipOne => exact leads_answer ⟨_, run_skipOne h, .consumed h 1⟩
  | stepBack => exact leads_answer (stepBack_browsed h)
  | acquire => exact leads_answer ⟨_, run_acquire h, .stay⟩
  | borrow settle => exact leads_answer (borrow_browsed h settle)
  | readToEnd => exact leads_answer (gatherAll_browsed h _)
  | readExact count => exact leads_answer (readExact_browsed h count)
  | readText codec => exact leads_answer (readText_browsed h codec)
  | sync => exact ⟨_, rfl, .stay⟩
  | stagingSize direction => exact ⟨_, rfl, .stay⟩
  | hintStaging size direction => exact ⟨_, rfl, .stay⟩
  | dataCopy => exact ⟨_, rfl, .stay⟩
  | _ => cases hbrowses

/-! ## Everything else -/

/-- What one operation can leave that neither settles anything nor hands the elements out. -/
inductive Turn (b : Buffer σ) : Buffer σ → Prop where
  | browse {c : Buffer σ} : Browsed b c → Turn b c
  /-- Room was refused. -/
  | trim : Turn b b.trimmed
  | write (elements : σ) : b.canWrite = true → b.head + Store.size elements < positionLimit → Turn b (b.written elements)
  | seek (p : Nat) : b.canWrite = true → p < positionLimit → Turn b ((b.extended p).moved p)
  | reserve (n : Nat) (filling : σ) : b.grants n = true → Turn b (b.filled n filling)
  | reserveAndCommit (n : Nat) (filling : σ) (count : Nat) : b.grants n = true → count ≤ n →
      Turn b ((b.filled n filling).committed count)
  | reserveAndAbandon (n : Nat) (filling : σ) : b.grants n = true → Turn b (b.filled n filling).abandoned
  | abandon : Turn b b.abandoned
  | close (direction : Directions) : b.access.closes direction = true → Turn b (b.closed direction)

omit [LawfulStore σ] in
/-- To change nothing is a `Turn`, too. -/
theorem Turn.stay (b : Buffer σ) : Turn b b :=
  .browse .stay

omit [LawfulStore σ] in
/-- Where room is not given, the buffer stays or is `trimmed`. -/
theorem Turn.denied (b : Buffer σ) (n : Nat) : Turn b (b.denied n) := by
  unfold Buffer.denied
  split
  · exact .trim
  · exact .stay b

omit [LawfulStore σ] in
/-- A `close` that finds nothing to close leaves the buffer as it is. -/
theorem Turn.closed (b : Buffer σ) (direction : Directions) : Turn b (b.closed direction) := by
  cases hc : b.access.closes direction with
  | true => exact .close direction hc
  | false =>
      rw [closed_eq_self hc]
      exact .stay b

theorem write_turn (h : b.Ordered) (elements : σ) :
    ∃ step, (write elements).run b = .ok step ∧ Turn b step.state := by
  rw [run_write h]
  split
  · next hgo =>
      split
      · next hlimit =>
          split
          · exact ⟨_, rfl, .write elements hgo.1 hlimit⟩
          · exact ⟨_, rfl, .trim⟩
      · exact ⟨_, rfl, .stay b⟩
  · exact ⟨_, rfl, .stay b⟩

theorem writeAll_turn (h : b.Ordered) (elements : σ) :
    ∃ step, (writeAll elements).run b = .ok step ∧ Turn b step.state := by
  rw [run_writeAll h]
  split
  · exact ⟨_, rfl, .stay b⟩
  · obtain ⟨step, hrun, hstate⟩ := write_turn h elements
    rw [hrun]
    exact ⟨_, rfl, hstate⟩

theorem seekTo_turn (h : b.Ordered) {p : Nat} (hp : p < positionLimit) (direction : Directions) :
    ∃ step, (seekTo p direction).run b = .ok step ∧ Turn b step.state := by
  rw [run_seekTo h hp]
  split
  · next hread => exact ⟨_, rfl, .browse (.moved hread.2.1 hread.2.2)⟩
  split
  · next hwrite =>
      split
      · exact ⟨_, rfl, .seek p hwrite.2 hp⟩
      · exact ⟨_, rfl, .trim⟩
  · exact ⟨_, rfl, .stay b⟩

theorem seek_turn (h : b.Ordered) (target : Target) (direction : Directions) :
    ∃ step, (seek target direction).run b = .ok step ∧ Turn b step.state := by
  rw [run_seek]
  cases ht : target.position? b.cursor with
  | none => exact ⟨_, rfl, .stay b⟩
  | some p => exact seekTo_turn h (Target.position?_eq_some_iff.mp ht).2 direction

theorem seekAny_turn (h : b.Ordered) (target : Target) :
    ∃ step, (seekAny target).run b = .ok step ∧ Turn b step.state := by
  obtain ⟨step, hrun, hstate⟩ := seek_turn h target (if b.canRead then .reading else .writing)
  unfold seekAny
  rw [run_look_bind, run_bind_of_ok hrun]
  cases step.value with
  | none => exact ⟨_, rfl, hstate⟩
  | some position => exact ⟨_, rfl, hstate⟩

theorem reserveAndFill_turn (h : b.Ordered) (n : Nat) (filling : σ) :
    ∃ step, (reserveAndFill n filling).run b = .ok step ∧ Turn b step.state := by
  rw [run_reserveAndFill h]
  split
  · next hg => exact ⟨_, rfl, .reserve n filling hg⟩
  · exact ⟨_, rfl, .denied b n⟩

theorem reserveWith_turn (h : b.Ordered) (n : Nat) (filler : σ → σ × Nat) :
    ∃ step, (reserveWith n filler).run b = .ok step ∧ Turn b step.state := by
  rw [run_reserveWith h]
  split
  · next hg =>
      split
      · next hcount => exact ⟨_, rfl, .reserveAndCommit n _ _ hg hcount⟩
      · exact ⟨_, rfl, .reserveAndAbandon n _ hg⟩
  · exact ⟨_, rfl, .denied b n⟩

/-- **One operation takes one `Turn`**, and meets no fault, wherever it depends on nothing but the buffer. -/
theorem perform_turn (h : b.Ordered) {operation : Operation σ α} (hfits : operation.Fits)
    (hplain : operation.plain = true) : ∃ step, operation.perform.run b = .ok step ∧ Turn b step.state := by
  by_cases hbrowses : operation.browses = true
  · obtain ⟨step, hrun, hbrowsed⟩ := perform_browsed h hbrowses
    exact ⟨step, hrun, .browse hbrowsed⟩
  cases operation with
  | write elements => exact leads_answer (write_turn h elements)
  | writeOne element => exact leads_answer (leads_answer (write_turn h (Store.single element)))
  | writeAll elements => exact leads_answer (writeAll_turn h elements)
  | seekTo position direction => exact leads_answer (seekTo_turn h hfits direction)
  | seek target direction => exact leads_answer (seek_turn h target direction)
  | seekAny target => exact leads_answer (seekAny_turn h target)
  | reserve count filling => exact leads_answer (reserveAndFill_turn h count filling)
  | reserveWith count filling written => exact leads_answer (reserveWith_turn h count _)
  | abandon => exact leads_answer ⟨_, run_abandon b, .abandon⟩
  | close direction => exact leads_answer ⟨_, run_close b direction, .closed b direction⟩
  | release | commit | takeData => cases hplain
  | _ => exact absurd rfl hbrowses

end Buffer

end MemStream
