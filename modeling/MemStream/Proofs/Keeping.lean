import MemStream.Session.Command
import MemStream.Proofs.Run

/-!
# `MemStream.Proofs.Keeping` — what a session can rely on

A session is guarded if each of its buffers is, with regard to the tickets that this very buffer granted. Which buffer
granted which ticket is not part of the session: it is written in a ledger beside it. Sharing, dropping and collecting
handles, opening buffers and keeping tickets all keep the guard and never fault; only a request to a buffer may.

## Contents
- **The invariant.** `Ledger`, `Session.Guarded`.
- **Actions that keep it.** `Keeps`, with rules for the monad and the primitives.
- **Handles and tickets.** `keeps_within`, `keeps_keepTicket`, `keeps_settle`, `keeps_enter`, `keeps_leave`,
  `keeps_adopt`, `keeps_collect`, `keeps_finish`.
-/

namespace MemStream

open StateAction

/-- Who granted which tickets: each `Ticket` with the `BufferId` of its buffer. -/
abbrev Ledger := List (BufferId × Ticket)

variable {σ α β γ : Type} [Store σ α]

/-! ## The invariant -/

/-- All buffers are `Buffer.Guarded` with the tickets the ledger has for them, all `tickets` that are kept are in the
    ledger, and no identity is used twice. -/
structure Session.Guarded (ledger : Ledger) (s : Session σ) : Prop where
  buffers : ∀ id b, s.buffers.find? id = some b → b.Guarded fun t => (id, t) ∈ ledger
  tickets : ∀ name t, s.tickets.find? name = some t → ∃ id, (id, t) ∈ ledger
  positions : ∀ id t, (id, t) ∈ ledger → t.offset + t.length < positionLimit
  older : ∀ id b, s.buffers.find? id = some b → id < s.nextId
  granters : ∀ id t, (id, t) ∈ ledger → id < s.nextId

variable {ledger : Ledger} {s : Session σ}

/-- In `Session.empty` there is nothing to guard. -/
theorem Session.guarded_empty : (Session.empty : Session σ).Guarded [] where
  buffers id b h := by cases h
  tickets name t h := by cases h
  positions id t h := by cases h
  older id b h := by cases h
  granters id t h := by cases h

/-- A session stays `Guarded` whatever its `slots` refer to. -/
theorem Session.Guarded.with_slots (h : s.Guarded ledger) (slots : Table String BufferId) :
    ({ s with slots := slots } : Session σ).Guarded ledger :=
  ⟨h.buffers, h.tickets, h.positions, h.older, h.granters⟩

/-- A buffer may be replaced by one that is `Buffer.Guarded` with regard to the same tickets. -/
theorem Session.Guarded.with_buffer (h : s.Guarded ledger) {id : BufferId} {b c : Buffer σ}
    (hfind : s.buffers.find? id = some b) (hc : c.Guarded fun t => (id, t) ∈ ledger) :
    ({ s with buffers := s.buffers.insert id c } : Session σ).Guarded ledger where
  buffers other found hfound := by
    rcases Table.find?_insert_eq_some hfound with ⟨rfl, rfl⟩ | ⟨-, hold⟩
    · exact hc
    · exact h.buffers other found hold
  tickets := h.tickets
  positions := h.positions
  older other found hfound := by
    rcases Table.find?_insert_eq_some hfound with ⟨rfl, rfl⟩ | ⟨-, hold⟩
    · exact h.older other b hfind
    · exact h.older other found hold
  granters := h.granters

/-- A buffer may be erased: nothing speaks of it any more, and nothing has to be kept. -/
theorem Session.Guarded.without_buffer (h : s.Guarded ledger) (id : BufferId) :
    ({ s with buffers := s.buffers.erase id } : Session σ).Guarded ledger where
  buffers other found hfound := h.buffers other found (Table.find?_of_find?_erase hfound)
  tickets := h.tickets
  positions := h.positions
  older other found hfound := h.older other found (Table.find?_of_find?_erase hfound)
  granters := h.granters

/-- A new buffer has granted nothing, since `nextId` is new. -/
theorem Session.Guarded.with_new (h : s.Guarded ledger) {b : Buffer σ} (hb : b.Guarded fun _ => False) :
    ({ s with buffers := s.buffers.insert s.nextId b, nextId := s.nextId + 1 } : Session σ).Guarded ledger where
  buffers other found hfound := by
    rcases Table.find?_insert_eq_some hfound with ⟨rfl, rfl⟩ | ⟨-, hold⟩
    · -- a ticket under this identity would be older than the identity itself
      apply hb.of_subset
      intro t ht
      exact Nat.lt_irrefl _ (h.granters s.nextId t ht)
    · exact h.buffers other found hold
  tickets := h.tickets
  positions := h.positions
  older other found hfound := by
    rcases Table.find?_insert_eq_some hfound with ⟨rfl, rfl⟩ | ⟨-, hold⟩
    · exact Nat.lt_succ_self _
    · exact Nat.lt_succ_of_lt (h.older other found hold)
  granters other t ht := Nat.lt_succ_of_lt (h.granters other t ht)

/-- Any ticket of the `Ledger` may be kept under a name. -/
theorem Session.Guarded.with_ticket (h : s.Guarded ledger) (name : String) {t : Ticket} (ht : ∃ id, (id, t) ∈ ledger) :
    ({ s with tickets := s.tickets.insert name t } : Session σ).Guarded ledger where
  buffers := h.buffers
  tickets other found hfound := by
    rcases Table.find?_insert_eq_some hfound with ⟨-, rfl⟩ | ⟨-, hold⟩
    · exact ht
    · exact h.tickets other found hold
  positions := h.positions
  older := h.older
  granters := h.granters

/-! ## Actions that keep it -/

/-- The action `x` never faults, and leaves a session `Guarded`. -/
def Keeps (ledger : Ledger) (x : SessionAction σ β) : Prop :=
  ∀ s, s.Guarded ledger → ∃ step, x.run s = .ok step ∧ step.state.Guarded ledger

theorem Keeps.pure (value : β) : Keeps ledger (Pure.pure value : SessionAction σ β) := by
  intro s hs
  exact ⟨_, rfl, hs⟩

/-- Two actions in a row are one that `Keeps`, if the second does so for every value. -/
theorem Keeps.bind {x : SessionAction σ β} {f : β → SessionAction σ γ} (hx : Keeps ledger x)
    (hf : ∀ value, Keeps ledger (f value)) : Keeps ledger (x >>= f) := by
  intro s hs
  obtain ⟨first, hfirst, hmiddle⟩ := hx s hs
  obtain ⟨second, hsecond, hend⟩ := hf first.value first.state hmiddle
  exact ⟨second.after first.events, by rw [run_bind_of_ok hfirst, hsecond]; rfl, hend⟩

theorem Keeps.look : Keeps ledger (StateAction.look : SessionAction σ (Session σ)) := by
  intro s hs
  exact ⟨_, rfl, hs⟩

theorem Keeps.emit (events : List Report) : Keeps ledger (StateAction.emit events : SessionAction σ Unit) := by
  intro s hs
  exact ⟨_, rfl, hs⟩

/-- A change of the session that leaves it `Guarded` is an action that `Keeps`. -/
theorem Keeps.alter {f : Session σ → Session σ} (hf : ∀ s, s.Guarded ledger → (f s).Guarded ledger) :
    Keeps ledger (StateAction.alter f) := by
  intro s hs
  exact ⟨_, rfl, hf s hs⟩

theorem Keeps.forM {names : List β} {f : β → SessionAction σ PUnit} (hf : ∀ name, Keeps ledger (f name)) :
    Keeps ledger (names.forM f) := by
  induction names with
  | nil => exact .pure _
  | cons name names ih => exact .bind (hf name) fun _ => ih

/-! ## Handles and tickets -/

/-- Without the buffer, `Session.within` does nothing. -/
theorem run_within_none {id : BufferId} (hfind : s.buffers.find? id = none) (x : BufferAction σ β) :
    (Session.within id x).run s = .ok ⟨none, s, []⟩ := by
  show Session.within id x s = _
  unfold Session.within
  rw [hfind]

/-- With the buffer, `Session.within` puts what the action left in its place. -/
theorem run_within_ok {id : BufferId} {b : Buffer σ} (hfind : s.buffers.find? id = some b) {x : BufferAction σ β}
    {step : Step (Buffer σ) Event β} (hrun : x.run b = .ok step) :
    (Session.within id x).run s =
      .ok ⟨some step.value, { s with buffers := s.buffers.insert id step.state }, step.events.map (⟨some id, ·⟩)⟩ := by
  show Session.within id x s = _
  unfold Session.within
  rw [hfind]
  simp only [hrun]

theorem run_within_error {id : BufferId} {b : Buffer σ} (hfind : s.buffers.find? id = some b) {x : BufferAction σ β}
    {fault : Fault} (hrun : x.run b = .error fault) : (Session.within id x).run s = .error fault := by
  show Session.within id x s = _
  unfold Session.within
  rw [hfind]
  simp only [hrun]

omit [Store σ α] in
/-- On a slot without a handle, `Session.onSlot` does nothing but say so. -/
theorem run_onSlot (slot : String) (work : BufferId → SessionAction σ (Reply σ α)) (s : Session σ) :
    (Session.onSlot slot work).run s =
      match s.slots.find? slot with
      | some id => (work id).run s
      | none => .ok ⟨.noSlot slot, s, []⟩ := by
  unfold Session.onSlot
  rw [run_look_bind]
  cases s.slots.find? slot <;> rfl

/-- An action that leaves every buffer `Buffer.Guarded` leaves a session `Guarded` when it works on one of its
    buffers. -/
theorem keeps_within (id : BufferId) {x : BufferAction σ β}
    (hx : ∀ (own : Ticket → Prop) (b : Buffer σ), b.Guarded own → ∃ step, x.run b = .ok step ∧ step.state.Guarded own) :
    Keeps ledger (Session.within id x) := by
  intro s hs
  cases hfind : s.buffers.find? id with
  | none => exact ⟨_, run_within_none hfind x, hs⟩
  | some b =>
      obtain ⟨step, hrun, hstate⟩ := hx _ b (hs.buffers id b hfind)
      exact ⟨_, run_within_ok hfind hrun, hs.with_buffer hfind hstate⟩

variable [LawfulStore σ]

theorem keeps_retire (id : BufferId) : Keeps ledger (Session.within id (Buffer.retire : BufferAction σ Unit)) := by
  refine keeps_within id fun own b hb => ⟨_, Buffer.run_retire b, ?_⟩
  have hreading := (Buffer.Changes.closed b .reading).guarded hb
  exact (Buffer.Changes.closed _ .writing).guarded hreading

theorem keeps_settle (id : BufferId) : Keeps ledger (Session.settle id : SessionAction σ Unit) := by
  refine .bind .look ?_
  intro s
  split
  · exact .bind (keeps_retire id) fun _ => .alter fun s hs => hs.without_buffer id
  · exact .pure _

omit [LawfulStore σ] in
/-- A ticket that was granted may be kept by `Session.keepTicket`. -/
theorem keeps_keepTicket (keep : Option String) {ticket : Option Ticket}
    (hticket : ∀ t, ticket = some t → ∃ id, (id, t) ∈ ledger) :
    Keeps ledger (Session.keepTicket keep ticket : SessionAction σ Unit) := by
  cases keep with
  | none => exact .pure _
  | some name =>
      cases ticket with
      | none => exact .pure _
      | some t => exact .alter fun s hs => hs.with_ticket name (hticket t rfl)

theorem keeps_enter (slot : String) (id : BufferId) : Keeps ledger (Session.enter slot id : SessionAction σ Unit) := by
  refine .bind .look fun s => .bind (.alter fun s hs => hs.with_slots _) ?_
  intro _
  cases s.slots.find? slot with
  | none => exact .pure _
  | some old => exact keeps_settle old

theorem keeps_leave (slot : String) : Keeps ledger (Session.leave slot : SessionAction σ Unit) := by
  refine .bind .look fun s => .bind (.alter fun s hs => hs.with_slots _) ?_
  intro _
  cases s.slots.find? slot with
  | none => exact .pure _
  | some old => exact keeps_settle old

/-- A new buffer may be brought in by `Session.adopt`, whatever it reports of its making. -/
theorem keeps_adopt (slot : String) {b : Buffer σ} (hb : b.Guarded fun _ => False) (events : List Event) :
    Keeps ledger (Session.adopt slot b events) := by
  intro s hs
  -- the identity of the new buffer is read off the session that it comes into
  obtain ⟨step, hrun, hstate⟩ := keeps_enter slot s.nextId _ (hs.with_new hb)
  refine ⟨step.after (events.map (⟨some s.nextId, ·⟩)), ?_, hstate⟩
  unfold Session.adopt
  rw [run_look_bind, run_emit_bind, run_alter_bind, hrun]
  rfl

theorem keeps_takeData (id : BufferId) : Keeps ledger (Session.within id (Buffer.takeData : BufferAction σ σ)) :=
  keeps_within id fun _ b hb => ⟨_, Buffer.run_takeData b, (Buffer.Changes.emptied b).guarded hb⟩

/-- To `collect` is to take or to copy, and then to `leave`; both can be done. -/
theorem keeps_collect (slot : String) (id : BufferId) :
    Keeps ledger (Session.collect slot id : SessionAction σ (Option σ)) := by
  refine .bind .look ?_
  intro s
  have helements : Keeps ledger (Session.within id (if s.handles id = 1 then Buffer.takeData else Buffer.dataCopy) :
      SessionAction σ (Option σ)) := by
    split
    · exact keeps_takeData id
    · exact keeps_within id fun _ b hb => ⟨_, rfl, hb⟩
  exact .bind helements fun elements => .bind (keeps_leave slot) fun _ => .pure elements

theorem keeps_finish : Keeps ledger (Session.finish : SessionAction σ Unit) :=
  .bind .look fun _ => .forM fun slot => keeps_leave slot

omit [LawfulStore σ] in
theorem keeps_onSlot (slot : String) {work : BufferId → SessionAction σ (Reply σ α)}
    (hwork : ∀ id, Keeps ledger (work id)) : Keeps ledger (Session.onSlot slot work) := by
  refine .bind .look ?_
  intro s
  cases s.slots.find? slot with
  | none => exact .pure _
  | some id => exact hwork id

omit [LawfulStore σ] in
theorem keeps_onBuffer (slot : String) {x : BufferAction σ β} {reply : β → Reply σ α}
    (hx : ∀ (own : Ticket → Prop) (b : Buffer σ), b.Guarded own → ∃ step, x.run b = .ok step ∧ step.state.Guarded own) :
    Keeps ledger (Session.onBuffer slot x reply) := by
  refine keeps_onSlot slot fun id => .bind (keeps_within id hx) ?_
  intro value
  cases value with
  | none => exact .pure _
  | some value => exact .pure _

end MemStream
