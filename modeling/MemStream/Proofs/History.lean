import MemStream.Session.Command
import MemStream.Proofs.Lending
import MemStream.Proofs.Writing

/-!
# `MemStream.Proofs.History` — what happens inside an operation

An operation reports events on the way, and some of them tell of a state that is gone when the operation is over: a write
drops the tail, grows the store and moves the head, and each event is about the buffer of its moment. A history takes an
operation apart into the storage actions it is made of, and keeps every event together with the buffer of that moment.
What the events say about the buffer can then be read off one storage action at a time.

Nothing is assumed of the buffer but that its valid elements lie in the store, and nothing of tickets, epochs and
positions: an operation that faults has no history, and every other has one.

## Contents
- **Histories.** `Deed` is one storage action with its events, `History` a chain of them; `made_of_opening` says what
  they start from.
- **Actions with a history.** `Traced`, with rules for the monad and one lemma per storage action.
- **Operations.** One lemma per operation, together `traced_perform`; handing out the elements is left out, since it does
  one thing that no other operation does.
-/

namespace MemStream

open StateAction

/-- Whether a `Notice` is a mere remark, neither about the store nor about the life of the buffer. -/
def Notice.isRemark : Notice → Bool
  | .writeOverflow _ _ | .seekRejected _ _ _ | .seekUnresolvable _ | .staleLease _ | .leaseOverrun _
  | .sizeHintIgnored _ _ => true
  | _ => false

namespace Buffer

variable {σ α β γ : Type} [Store σ α]

/-! ## Histories -/

/-- The `events` with the buffer of their moment. -/
def moments (b : Buffer σ) (events : List Event) : List (Buffer σ × Event) :=
  events.map (b, ·)

/-- The buffer with the sides closed that `direction` names, its tail still there: a moment inside `close`. -/
def shutting (b : Buffer σ) (direction : Directions) : Buffer σ :=
  { b with access := b.access.close direction, changes := b.changes + 1, reservation := none }

/-- One thing that is done to a buffer, with what is reported of it and what is left. -/
inductive Deed (b : Buffer σ) : List (Buffer σ × Event) → Buffer σ → Prop where
  /-- Something is said, and nothing is done. -/
  | remark (notice : Notice) : notice.isRemark = true → Deed b (b.moments [⟨b.label, notice⟩]) b
  /-- Changes are counted, or it is noted what is reserved. -/
  | note (changes : Nat) (reservation : Option Reservation) : Deed b [] { b with changes, reservation }
  | move (p : Nat) : (b.moved p).valid ≤ b.capacity → Deed b [] (b.moved p)
  | put (start : Nat) (elements : σ) : start + Store.size elements ≤ b.capacity →
      Deed b [] (b.placed start elements)
  | trim : Deed b (b.moments b.trimEvents) b.trimmed
  /-- Room is made or refused, and by then the tail is gone. -/
  | grow (p : Nat) : b.capacity = b.valid →
      Deed b (b.moments (b.growEvents p)) (if b.admits p then b.grown p else b)
  /-- Sides are closed; the tail goes, and after it the close is reported. -/
  | close (direction : Directions) : b.access.closes direction = true →
      Deed b ((b.shutting direction).moments (b.shutting direction).trimEvents ++
        (b.closed direction).moments [⟨b.label, .closed direction (b.closed direction).isOpen⟩]) (b.closed direction)

/-- One `Deed` after another, with everything that is reported on the way. -/
inductive History : Buffer σ → List (Buffer σ × Event) → Buffer σ → Prop where
  | done (b : Buffer σ) : History b [] b
  | next {b c d : Buffer σ} {events timeline : List (Buffer σ × Event)} :
      Deed b events c → History c timeline d → History b (events ++ timeline) d

variable {b c d : Buffer σ} {events timeline : List (Buffer σ × Event)}

omit [Store σ α] in
@[simp] theorem map_snd_moments (b : Buffer σ) (events : List Event) : (b.moments events).map (·.2) = events := by
  unfold moments
  rw [List.map_map]
  exact List.map_id events

/-- One `Deed` is a `History`. -/
theorem Deed.history (h : Deed b events c) : History b events c := by
  have hone := History.next h (.done c)
  rwa [List.append_nil] at hone

/-- Two histories of which one follows the other are one `History`. -/
theorem History.trans {later : List (Buffer σ × Event)} (h : History b timeline c) (h' : History c later d) :
    History b (timeline ++ later) d := by
  induction h with
  | done b => exact h'
  | next hdeed _ ih =>
      rw [List.append_assoc]
      exact .next hdeed (ih h')

variable [LawfulStore σ]

/-- Whatever `Deed` is done, the `valid` elements lie in the store. -/
theorem Deed.valid_le (h : Deed b events c) (hvalid : b.valid ≤ b.capacity) : c.valid ≤ c.capacity := by
  have htrim : ∀ b : Buffer σ, b.valid ≤ b.capacity → b.trimmed.valid ≤ b.trimmed.capacity := by
    intro b hb
    rw [valid_trimmed, capacity_trimmed]
    omega
  cases h with
  | remark notice _ => exact hvalid
  | note changes reservation => exact hvalid
  | move p hp => exact hp
  | put start elements hstop =>
      rw [valid_placed, capacity_placed hstop]
      exact hvalid
  | trim => exact htrim b hvalid
  | grow p hnone =>
      split
      · unfold grown
        split
        · exact hvalid
        · next hroom =>
            -- the store is resized only to a position beyond the valid elements
            show b.valid ≤ Store.size (Store.resize b.data p)
            rw [Store.size_resize]
            omega
      · exact hvalid
  | close direction hc =>
      rw [closed_of_closes hc]
      exact htrim _ hvalid

/-- So the `valid` elements lie in the store all through a `History`. -/
theorem History.valid_le (h : History b timeline c) (hvalid : b.valid ≤ b.capacity) : c.valid ≤ c.capacity := by
  induction h with
  | done b => exact hvalid
  | next hdeed _ ih => exact ih (hdeed.valid_le hvalid)

/-! ## Beginnings -/

omit [Store σ α] [LawfulStore σ] in
/-- What `Access.ofMode?` lets pass has the mode it was asked for. -/
theorem ofMode?_eq_ok {m : Directions} {access : Access} (h : Access.ofMode? m = .ok access) :
    access.mode = m ∧ Access.ofMode? access.mode = .ok access := by
  have hmode : access.mode = m := by
    rcases m with ⟨_ | _, _ | _⟩ <;> cases h <;> rfl
  rw [hmode]
  exact ⟨rfl, h⟩

omit [LawfulStore σ] in
/-- A buffer that `Opening.make` brings about starts with nothing but valid elements and with the sides open that its
    mode names, and that is reported. Or it does not come to be, and that is reported, too. -/
theorem make_cases (way : Opening σ) :
    (∃ b label, way.make.value = .ok b ∧ way.make.events = [⟨label, .opened b.mode b.capacity⟩] ∧
        b.valid = b.capacity ∧ Access.ofMode? b.mode = .ok b.access) ∨
      ∃ refusal label mode code, way.make.value = .error refusal ∧
        way.make.events = [⟨label, .configurationRejected mode code⟩] := by
  have hbuild : ∀ c : Configuration σ,
      (∃ b label, c.build?.value = .ok b ∧ c.build?.events = [⟨label, .opened b.mode b.capacity⟩] ∧
          b.valid = b.capacity ∧ Access.ofMode? b.mode = .ok b.access) ∨
        ∃ refusal label mode code, c.build?.value = .error refusal ∧
          c.build?.events = [⟨label, .configurationRejected mode code⟩] := by
    intro c
    unfold Configuration.build? open?
    cases hmode : Access.ofMode? c.mode with
    | error refusal => exact .inr ⟨_, _, _, _, rfl, rfl⟩
    | ok access => exact .inl ⟨_, _, rfl, rfl, rfl, (ofMode?_eq_ok hmode).2⟩
  cases way with
  | configured c => exact hbuild c
  | relabelled c label =>
      -- the label is changed after the report
      rcases hbuild c with ⟨b, _, hvalue, hevents, hvalid, haccess⟩ | ⟨refusal, _, _, _, hvalue, hevents⟩
      · exact .inl ⟨b.relabel label, _, congrArg (·.map (·.relabel label)) hvalue, hevents, hvalid, haccess⟩
      · exact .inr ⟨refusal, _, _, _, congrArg (·.map (·.relabel label)) hvalue, hevents⟩
  | reader data => exact .inl ⟨_, _, rfl, rfl, rfl, rfl⟩
  | writer => exact .inl ⟨_, _, rfl, rfl, rfl, rfl⟩

omit [LawfulStore σ] in
/-- What is known of a buffer that `Opening.make` brought about. -/
theorem made_of_opening {way : Opening σ} (hmade : way.make.value = .ok b) :
    (∃ label, way.make.events = [⟨label, .opened b.mode b.capacity⟩]) ∧ b.valid = b.capacity ∧
      Access.ofMode? b.mode = .ok b.access := by
  rcases make_cases way with ⟨made, label, hvalue, hevents, hknown⟩ | ⟨refusal, _, _, _, hvalue, -⟩
  · cases hvalue.symm.trans hmade
    exact ⟨⟨label, hevents⟩, hknown⟩
  · cases hvalue.symm.trans hmade

omit [LawfulStore σ] in
/-- A buffer that `Opening.make` does not bring about is reported as rejected, and nothing else is reported. -/
theorem rejected_of_opening {way : Opening σ} {refusal : Refusal} (hmade : way.make.value = .error refusal) :
    ∃ label mode code, way.make.events = [⟨label, .configurationRejected mode code⟩] := by
  rcases make_cases way with ⟨made, _, hvalue, -⟩ | ⟨_, label, mode, code, -, hevents⟩
  · cases hvalue.symm.trans hmade
  · exact ⟨label, mode, code, hevents⟩

/-! ## Actions with a history -/

/-- Where an action does not fault, it has a `History`, and reports what the `History` says. -/
def Traced (x : BufferAction σ β) : Prop :=
  ∀ (b : Buffer σ) (step : Step (Buffer σ) Event β), b.valid ≤ b.capacity → x.run b = .ok step →
    ∃ timeline, History b timeline step.state ∧ timeline.map (·.2) = step.events

omit [LawfulStore σ] in
/-- An action of which the run is known is `Traced` if that run has a `History`. -/
theorem Traced.of_run {x : BufferAction σ β} (hx : ∀ b : Buffer σ, b.valid ≤ b.capacity →
    ∃ value c timeline, x.run b = .ok ⟨value, c, timeline.map (·.2)⟩ ∧ History b timeline c) : Traced x := by
  intro b step hvalid hrun
  obtain ⟨value, c, timeline, hknown, hhistory⟩ := hx b hvalid
  rw [hknown] at hrun
  cases hrun
  exact ⟨timeline, hhistory, rfl⟩

omit [LawfulStore σ] in
/-- What neither does nor reports anything has nothing to its `History`. -/
theorem Traced.of_silent {x : BufferAction σ β}
    (hx : ∀ (b : Buffer σ) (step : Step (Buffer σ) Event β), x.run b = .ok step → step.state = b ∧ step.events = []) :
    Traced x := by
  intro b step _ hrun
  obtain ⟨hstate, hevents⟩ := hx b step hrun
  rw [hstate, hevents]
  exact ⟨[], .done b, rfl⟩

omit [LawfulStore σ] in
theorem Traced.pure (value : β) : Traced (Pure.pure value : BufferAction σ β) := by
  apply Traced.of_silent
  intro b step hrun
  cases hrun
  exact ⟨rfl, rfl⟩

omit [LawfulStore σ] in
theorem Traced.look : Traced (StateAction.look : BufferAction σ (Buffer σ)) := by
  apply Traced.of_silent
  intro b step hrun
  cases hrun
  exact ⟨rfl, rfl⟩

omit [LawfulStore σ] in
theorem Traced.ensure (check : Except Fault β) : Traced (StateAction.ensure check : BufferAction σ β) := by
  apply Traced.of_silent
  intro b step hrun
  cases check with
  | error fault => cases hrun
  | ok value =>
      cases hrun
      exact ⟨rfl, rfl⟩

/-- Two actions in a row are `Traced` if both are: one `History` follows the other. -/
theorem Traced.bind {x : BufferAction σ β} {f : β → BufferAction σ γ} (hx : Traced x) (hf : ∀ value, Traced (f value)) :
    Traced (x >>= f) := by
  intro b step hvalid hrun
  obtain ⟨first, second, hfirst, hsecond, rfl⟩ := run_bind_eq_ok_iff.mp hrun
  obtain ⟨earlier, hearlier, hevents⟩ := hx b first hvalid hfirst
  obtain ⟨later, hlater, hevents'⟩ := hf first.value first.state second (hearlier.valid_le hvalid) hsecond
  refine ⟨earlier ++ later, hearlier.trans hlater, ?_⟩
  rw [List.map_append, hevents, hevents']
  rfl

/-- To turn the value of an action into an answer does nothing to its `History`. -/
theorem Traced.answer {x : BufferAction σ β} (hx : Traced x) (f : β → γ) :
    Traced (x >>= fun value => Pure.pure (f value)) :=
  .bind hx fun value => .pure (f value)

/-! ## Storage actions -/

omit [LawfulStore σ] in
/-- A report that is a remark (`Notice.isRemark`) may be made at any time. -/
theorem traced_report {notice : Notice} (h : notice.isRemark = true) : Traced (report notice : BufferAction σ Unit) :=
  .of_run fun b _ => ⟨(), b, _, rfl, (Deed.remark notice h).history⟩

omit [LawfulStore σ] in
/-- What only counts changes, or notes a reservation, is `Traced`. -/
theorem traced_alter {f : Buffer σ → Buffer σ} (hf : ∀ b, ∃ changes reservation, f b = { b with changes, reservation }) :
    Traced (StateAction.alter f : BufferAction σ Unit) := by
  refine .of_run fun b _ => ?_
  obtain ⟨changes, reservation, heq⟩ := hf b
  refine ⟨(), f b, [], rfl, ?_⟩
  rw [heq]
  exact (Deed.note changes reservation).history

omit [LawfulStore σ] in
theorem traced_nextEpoch : Traced (nextEpoch : BufferAction σ Unit) :=
  traced_alter fun b => ⟨b.changes + 1, b.reservation, rfl⟩

theorem traced_piece (start count : Nat) : Traced (piece start count : BufferAction σ σ) :=
  .bind .look fun _ => .bind (.ensure _) fun _ => .bind (.ensure _) fun _ => .pure _

omit [LawfulStore σ] in
theorem traced_place (start : Nat) (elements : σ) : Traced (place start elements) := by
  intro b step _ hrun
  unfold place at hrun
  rw [run_look_bind] at hrun
  obtain ⟨first, second, hfirst, hsecond, rfl⟩ := run_bind_eq_ok_iff.mp hrun
  have hstop : first.value = start + Store.size elements ∧ first.state = b ∧ first.events = [] := by
    unfold addPosition at hfirst
    split at hfirst
    · cases hfirst
      exact ⟨rfl, rfl, rfl⟩
    · cases hfirst
  obtain ⟨hvalue, hstate, hevents⟩ := hstop
  rw [hvalue, hstate] at hsecond
  unfold checkRange at hsecond
  split at hsecond
  · next hroom =>
      cases hsecond
      refine ⟨[], (Deed.put start elements hroom).history, ?_⟩
      simp [Step.after, hevents]
  · cases hsecond

omit [LawfulStore σ] in
theorem traced_dropTail : Traced (dropTail : BufferAction σ Unit) :=
  .of_run fun b _ => ⟨(), b.trimmed, b.moments b.trimEvents, by rw [map_snd_moments]; exact run_dropTail_trimmed b,
    Deed.trim.history⟩

omit [LawfulStore σ] in
/-- A `moveHead` that passes the check left the `valid` elements in the store. -/
theorem traced_moveHead (position : Nat) : Traced (moveHead position : BufferAction σ Unit) := by
  intro b step _ hrun
  obtain ⟨rfl, hvalid⟩ := of_run_moveHead hrun
  exact ⟨[], (Deed.move position hvalid).history, rfl⟩

/-- A writer makes room only once the tail is gone: `dropTail` comes before `growTo`. -/
theorem Traced.room (position : Nat) {f : Bool → BufferAction σ β} (hf : ∀ room, Traced (f room)) :
    Traced (dropTail >>= fun _ => growTo position >>= f) := by
  have hroom : Traced (dropTail >>= fun _ => growTo position : BufferAction σ Bool) := by
    refine .of_run fun b hvalid => ?_
    have huntailed : b.trimmed.capacity = b.trimmed.valid := by
      rw [capacity_trimmed, valid_trimmed]
      omega
    refine ⟨b.trimmed.admits position, _, b.moments b.trimEvents ++ b.trimmed.moments (b.trimmed.growEvents position), ?_,
      Deed.trim.history.trans (Deed.grow position huntailed).history⟩
    rw [run_dropTail_bind, run_growTo_grown, List.map_append, map_snd_moments, map_snd_moments]
    rfl
  have hassoc : (dropTail >>= fun _ => growTo position >>= f) = (dropTail >>= fun _ => growTo position) >>= f :=
    (bind_assoc _ _ _).symm
  rw [hassoc]
  exact .bind hroom hf

omit [LawfulStore σ] in
/-- In `close`, the tail goes while the sides are shut already, and the report of the close comes last. -/
theorem traced_close (direction : Directions) : Traced (close direction : BufferAction σ Bool) := by
  refine .of_run fun b _ => ?_
  cases hc : b.access.closes direction with
  | true =>
      refine ⟨true, _, _, ?_, (Deed.close direction hc).history⟩
      rw [run_close, hc, closeEvents, if_pos hc, List.map_append, map_snd_moments, map_snd_moments]
      rfl
  | false =>
      refine ⟨false, b, [], ?_, .done b⟩
      rw [run_close, closeEvents, hc, closed_eq_self hc]
      rfl

/-! ## Operations -/

theorem traced_peek (count : Nat) : Traced (peek count : BufferAction σ σ) := by
  refine .bind .look fun b => ?_
  split
  · exact traced_piece _ _
  · exact .pure _

theorem traced_read (count : Nat) (advance : Bool) : Traced (read count advance : BufferAction σ σ) := by
  refine .bind (traced_peek count) fun elements => ?_
  split
  · exact .bind .look fun _ => .bind (.ensure _) fun position => .bind (traced_moveHead position) fun _ => .pure _
  · exact .pure _

theorem traced_readOne (advance : Bool) : Traced (readOne advance : BufferAction σ (Option α)) :=
  (traced_read 1 advance).answer _

theorem traced_skipOne : Traced (skipOne : BufferAction σ (Option α)) :=
  .bind (traced_readOne true) fun _ => traced_readOne false

theorem traced_write (elements : σ) : Traced (write elements) := by
  refine .bind .look fun b => ?_
  dsimp only
  split
  · split
    · refine .room _ fun room => ?_
      split
      · exact .bind (traced_place _ _) fun _ => .bind (traced_moveHead _) fun _ => .pure _
      · exact .pure _
    · exact .bind (traced_report rfl) fun _ => .pure _
  · exact .pure _

theorem traced_writeOne (element : α) : Traced (writeOne element : BufferAction σ (Option α)) :=
  (traced_write _).answer _

theorem traced_rejectSeek (position : Nat) (direction : Directions) :
    Traced (rejectSeek position direction : BufferAction σ (Option Nat)) :=
  .bind .look fun _ => .bind (traced_report rfl) fun _ => .pure _

theorem traced_seekTo (position : Nat) (direction : Directions) :
    Traced (seekTo position direction : BufferAction σ (Option Nat)) := by
  refine .bind .look fun b => ?_
  split
  · exact .bind (traced_moveHead _) fun _ => .pure _
  split
  · refine .room _ fun room => ?_
    split
    · exact .bind (traced_moveHead _) fun _ => .pure _
    · exact traced_rejectSeek _ _
  · exact traced_rejectSeek _ _

theorem traced_seek (target : Target) (direction : Directions) :
    Traced (seek target direction : BufferAction σ (Option Nat)) := by
  refine .bind .look fun b => ?_
  cases target.position? b.cursor with
  | some position => exact traced_seekTo position direction
  | none => exact .bind (traced_report rfl) fun _ => .pure _

theorem traced_stepBack : Traced (stepBack : BufferAction σ (Option α)) := by
  refine .bind (traced_seek _ _) fun moved => ?_
  cases moved with
  | some position => exact traced_readOne false
  | none => exact .pure _

theorem traced_acquire : Traced (acquire : BufferAction σ (Grant (Lease σ))) := by
  refine .bind .look fun b => ?_
  split
  · exact .pure _
  split
  · exact .pure _
  split
  · exact .pure _
  · exact .bind (traced_piece _ _) fun _ => .pure _

theorem traced_release (ticket : Ticket) (count : Nat) :
    Traced (release ticket count : BufferAction σ (Except Refusal Nat)) := by
  refine .bind .look fun b => ?_
  split
  · exact .bind (traced_report rfl) fun _ => .pure _
  split
  · exact .bind (traced_report rfl) fun _ => .pure _
  · exact .bind (.ensure _) fun position => .bind (traced_moveHead position) fun _ => .pure _

theorem traced_borrow (settle : Option Nat) :
    Traced (borrow settle : BufferAction σ (Grant (Lease σ × Option (Except Refusal Nat)))) := by
  refine .bind traced_acquire fun grant => ?_
  cases grant with
  | granted lease =>
      cases settle with
      | some count => exact .bind (traced_release _ _) fun _ => .pure _
      | none => exact .pure _
  | retry => exact .pure _
  | endOfStream => exact .pure _
  | refused => exact .pure _

theorem traced_reserve (count : Nat) : Traced (reserve count : BufferAction σ (Option σ)) := by
  refine .bind .look fun b => ?_
  split
  · refine .room _ fun room => ?_
    split
    · refine .bind traced_nextEpoch fun _ => .bind (traced_alter fun b => ⟨_, _, rfl⟩) fun _ => ?_
      exact .bind (traced_piece _ _) fun _ => .pure _
    · exact .pure _
  · exact .pure _

theorem traced_fill (region elements : σ) : Traced (fill region elements) :=
  .bind .look fun _ => traced_place _ _

theorem traced_reserveAndFill (count : Nat) (elements : σ) :
    Traced (reserveAndFill count elements : BufferAction σ (Option σ)) := by
  refine .bind (traced_reserve count) fun granted => ?_
  cases granted with
  | some region => exact .bind (traced_fill _ _) fun _ => .pure _
  | none => exact .pure _

theorem traced_commit (count : Nat) : Traced (commit count : BufferAction σ (Except Refusal Nat)) := by
  have hforget : Traced (StateAction.alter fun b => { b with reservation := none } : BufferAction σ Unit) :=
    traced_alter fun b => ⟨b.changes, none, rfl⟩
  refine .bind .look fun b => ?_
  cases b.reservation with
  | none => exact .pure _
  | some reservation =>
      dsimp only
      split
      · exact .bind hforget fun _ => .bind traced_dropTail fun _ => .bind .look fun _ => .pure _
      split
      · exact .pure _
      · refine .bind hforget fun _ => .bind (.ensure _) fun position => ?_
        exact .bind (traced_moveHead position) fun _ => .bind traced_dropTail fun _ => .pure _

theorem traced_abandon : Traced (abandon : BufferAction σ Bool) := by
  refine .bind .look fun b => .bind (traced_alter fun b => ⟨b.changes, none, rfl⟩) fun _ => ?_
  exact .bind traced_dropTail fun _ => .pure _

theorem traced_reserveWith (count : Nat) (filler : σ → σ × Nat) :
    Traced (reserveWith count filler : BufferAction σ (Filled σ)) := by
  refine .bind (traced_reserve count) fun granted => ?_
  cases granted with
  | none => exact .pure _
  | some region =>
      refine .bind (traced_fill _ _) fun _ => .bind (traced_commit _) fun committed => ?_
      cases committed with
      | ok written => exact .pure _
      | error refusal => exact .bind traced_abandon fun _ => .pure _

/-- By induction over its rounds, `gather` is `Traced` as `read` is. -/
theorem traced_gather (request : Nat → Nat) (rounds : Nat) (gathered : σ) :
    Traced (gather request rounds gathered) := by
  induction rounds generalizing gathered with
  | zero => exact .pure _
  | succ rounds ih =>
      unfold gather
      split
      · exact .pure _
      · refine .bind (traced_read _ true) fun elements => ?_
        split
        · exact .pure _
        · exact ih _

theorem traced_gatherAll (request : Nat → Nat) : Traced (gatherAll request : BufferAction σ σ) :=
  .bind .look fun _ => traced_gather _ _ _

theorem traced_readText (codec : Text.Codec σ) : Traced (readText codec) := by
  refine .bind (traced_gatherAll _) fun elements => ?_
  cases codec.decode elements with
  | ok text => exact .pure _
  | error flaw => exact .pure _

theorem traced_readExact (count : Nat) : Traced (readExact count : BufferAction σ (Except TransferError σ)) := by
  refine .bind (traced_gatherAll _) fun elements => ?_
  split
  · exact .pure _
  · exact .pure _

theorem traced_writeOn (rounds : Nat) (elements : σ) : Traced (writeOn rounds elements) := by
  induction rounds generalizing elements with
  | zero => exact .pure _
  | succ rounds ih =>
      unfold writeOn
      split
      · exact .pure _
      · refine .bind (traced_write elements) fun count => ?_
        split
        · exact .pure _
        · exact ih _

theorem traced_seekAny (target : Target) : Traced (seekAny target : BufferAction σ (Except TransferError Nat)) := by
  refine .bind .look fun b => .bind (traced_seek _ _) fun moved => ?_
  cases moved with
  | some position => exact .pure _
  | none => exact .pure _

/-- **Every operation is `Traced`**, but for `takeData`, which hands out the elements. -/
theorem traced_perform {operation : Operation σ α} (hother : operation ≠ .takeData) : Traced operation.perform := by
  cases operation with
  | read count advance => exact (traced_read count advance).answer _
  | peek count => exact (traced_peek count).answer _
  | readOne advance => exact (traced_readOne advance).answer _
  | skipOne => exact traced_skipOne.answer _
  | stepBack => exact traced_stepBack.answer _
  | write elements => exact (traced_write elements).answer _
  | writeOne element => exact (traced_writeOne element).answer _
  | seekTo position direction => exact (traced_seekTo position direction).answer _
  | seek target direction => exact (traced_seek target direction).answer _
  | sync => exact (Traced.pure true).answer _
  | stagingSize direction => exact .bind .look fun _ => .pure _
  | hintStaging size direction => exact .bind (traced_report rfl) fun _ => .pure _
  | close direction => exact (traced_close direction).answer _
  | takeData => exact absurd rfl hother
  | dataCopy => exact (Traced.answer (.bind .look fun _ => .pure _) _)
  | acquire => exact traced_acquire.answer _
  | borrow settle => exact (traced_borrow settle).answer _
  | release ticket count => exact (traced_release ticket count).answer _
  | reserve count filling => exact (traced_reserveAndFill count filling).answer _
  | commit count => exact (traced_commit count).answer _
  | abandon => exact traced_abandon.answer _
  | reserveWith count filling written => exact (traced_reserveWith count _).answer _
  | readToEnd => exact (traced_gatherAll _).answer _
  | readExact count => exact (traced_readExact count).answer _
  | readText codec => exact (traced_readText codec).answer _
  | writeAll elements => exact (traced_writeOn _ elements).answer _
  | seekAny target => exact (traced_seekAny target).answer _

/-- So is a row of operations, `Operation.performAll`. -/
theorem traced_performAll {operations : List (Operation σ α)} (hother : .takeData ∉ operations) :
    Traced (Operation.performAll operations) := by
  induction operations with
  | nil => exact .pure _
  | cons operation rest ih =>
      obtain ⟨hfirst, hrest⟩ := List.ne_and_not_mem_of_not_mem_cons hother
      rw [Operation.performAll_cons]
      exact .bind (traced_perform hfirst.symm) fun _ => .bind (ih hrest) fun _ => .pure _

end Buffer

end MemStream
