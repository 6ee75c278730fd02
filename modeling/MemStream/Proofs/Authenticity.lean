import MemStream.Proofs.Safety
import MemStream.Store.Cells

/-!
# `MemStream.Proofs.Authenticity` — whose tickets a buffer settles

A ticket does not say who granted it. A buffer settles it if its epoch is the present one of the buffer and its length
suffices, so a ticket of another buffer goes through where the epochs of the two happen to agree. What is certain is that
somebody granted it, and that the buffer itself did if no other has granted a ticket of that epoch. A ticket that it
granted itself only goes through while it can still be read, and takes the head no further than the valid elements.

## Contents
- **Settling a kept ticket.** `run_release` reduces the command to what the buffer does.
- **Authenticity.** `release_authentic`, and `not_every_release_authentic` for what it leaves open.
-/

namespace MemStream

open StateAction

variable {σ α : Type} [Store σ α] {ledger : Ledger} {s : Session σ} {slot name : String} {id : BufferId} {b : Buffer σ}
  {t : Ticket}

/-! ## Settling a kept ticket -/

/-- To settle a ticket that was kept is up to `Buffer.release` of the buffer in the slot. -/
theorem run_release (hslot : s.slots.find? slot = some id) (hfind : s.buffers.find? id = some b)
    (hkept : s.tickets.find? name = some t) (count : Nat) :
    (Command.release slot name count : Command σ α).perform.run s =
      ((Buffer.release t count).run b).map fun first =>
        ⟨.answer (.settled first.value), { s with buffers := s.buffers.insert id first.state },
          first.events.map (⟨some id, ·⟩)⟩ := by
  simp only [Command.perform, run_onSlot, hslot, run_look_bind, hkept, Session.onBuffer]
  cases hrun : (Buffer.release t count).run b with
  | error fault =>
      rw [run_bind_of_error (run_within_error hfind hrun)]
      rfl
  | ok first =>
      rw [run_bind_of_ok (run_within_ok hfind hrun)]
      simp [Except.map]

/-- What a `Command.release` tells that goes through: epoch and length were as they should be, and the head is where it
    says. -/
theorem settled_of_release (hordered : b.Ordered) (hpositions : t.offset + t.length < positionLimit)
    (hslot : s.slots.find? slot = some id) (hfind : s.buffers.find? id = some b)
    (hkept : s.tickets.find? name = some t) {count position : Nat} {step : Step (Session σ) Report (Reply σ α)}
    (hrun : (Command.release slot name count : Command σ α).perform.run s = .ok step)
    (hvalue : step.value = .answer (.settled (.ok position))) :
    t.epoch = b.epoch ∧ count ≤ t.length ∧ position = t.offset + count ∧
      ∃ after, step.state.buffers.find? id = some after ∧ after.head = position := by
  rw [run_release hslot hfind hkept] at hrun
  cases hfirst : (Buffer.release t count).run b with
  | error fault =>
      rw [hfirst] at hrun
      cases hrun
  | ok first =>
      rw [hfirst] at hrun
      cases hrun
      have hresult : first.value = .ok position := by
        injection hvalue with hanswer
        injection hanswer
      rcases Buffer.release_cases hpositions hordered hfirst with
        ⟨hepoch, hcount, hsettled, hstate⟩ | ⟨refusal, hrefused, -⟩
      · rw [hsettled] at hresult
        cases hresult
        exact ⟨hepoch, hcount, rfl, first.state, Table.find?_insert_self _ _ _, by rw [hstate]; rfl⟩
      · rw [hrefused] at hresult
        cases hresult

variable [LawfulStore σ]

/-! ## Authenticity -/

/-- **Whose tickets a buffer settles.** In every session that is `Session.Reached`, whatever tickets were presented to
    whom on the way, a ticket that is kept was granted by some buffer, and:
    - it is settled only if its `epoch` is that of the buffer and its `length` suffices, and then the head is where it
      says;
    - it was granted by the very buffer that settles it, if no other has granted a ticket of that epoch;
    - one that the buffer itself granted is settled only while the buffer can be read, with its `offset` at the head and
      the new head among the valid elements;
    - one that the buffer itself granted is refused with `Refusal.staleLease` if the buffer is not for reading or its
      read side is closed, and that changes no buffer. -/
theorem release_authentic (hreached : Session.Reached α s ledger) (hlimit : s.EpochsFit)
    (hslot : s.slots.find? slot = some id) (hfind : s.buffers.find? id = some b)
    (hkept : s.tickets.find? name = some t) (count : Nat) :
    (∃ granter, (granter, t) ∈ ledger) ∧
      (∀ step position, (Command.release slot name count : Command σ α).perform.run s = .ok step →
        step.value = .answer (.settled (.ok position)) →
          (t.epoch = b.epoch ∧ count ≤ t.length ∧ position = t.offset + count ∧
            ∃ after, step.state.buffers.find? id = some after ∧ after.head = position) ∧
          ((∀ other u, (other, u) ∈ ledger → u.epoch = b.epoch → other = id) → (id, t) ∈ ledger) ∧
          ((id, t) ∈ ledger → b.canRead = true ∧ t.offset = b.head ∧ position ≤ b.valid)) ∧
      ((id, t) ∈ ledger → b.mode.reads = false ∨ b.canRead = false →
        ∃ step, (Command.release slot name count : Command σ α).perform.run s = .ok step ∧
          step.value = .answer (.settled (.error (.staleLease t.epoch b.epoch))) ∧
          ∀ other, step.state.buffers.find? other = s.buffers.find? other) := by
  have hs := hreached.guarded
  have hb := hs.buffers id b hfind
  have hstart := hlimit id b hfind
  obtain ⟨granter, hgranter⟩ := hs.tickets name t hkept
  have hpositions := hs.positions granter t hgranter
  refine ⟨⟨granter, hgranter⟩, ?_, ?_⟩
  · intro step position hrun hvalue
    obtain ⟨hepoch, hcount, hposition, hafter⟩ := settled_of_release hb.ordered hpositions hslot hfind hkept hrun hvalue
    refine ⟨⟨hepoch, hcount, hposition, hafter⟩, ?_, ?_⟩
    · intro honly
      exact honly granter t hgranter hepoch ▸ hgranter
    · intro hown
      obtain ⟨hread, hoffset, hlength⟩ := hb.lease t hown ((Buffer.epoch_eq_iff hstart).mp hepoch)
      exact ⟨hread, hoffset, by omega⟩
  · intro hown hclosed
    -- a ticket of the present epoch would mean that the buffer can be read
    have hepoch : t.epoch ≠ b.epoch := by
      intro heq
      obtain ⟨hread, -, -⟩ := hb.lease t hown ((Buffer.epoch_eq_iff hstart).mp heq)
      rcases hclosed with hreads | hshut
      · exact absurd (hb.coherent.reads_of_readOpen hread) (hreads ▸ Bool.false_ne_true)
      · exact absurd hread (hshut ▸ Bool.false_ne_true)
    have hrun := run_release (α := α) hslot hfind hkept count
    rw [Buffer.run_release_stale hepoch] at hrun
    exact ⟨_, hrun, rfl, Table.find?_insert_of_find? hfind⟩

/-- The only reader of a session settles the ticket that it granted, and refuses it once its read side is closed by
    `Operation.close`. -/
theorem release_authentic_of_one_reader :
    (∃ (s : Session SmallBytes) (ledger : Ledger) (step : Step (Session SmallBytes) Report (Reply SmallBytes UInt8)),
      (Command.release "a" "t" 2 : Command SmallBytes UInt8).perform.run s = .ok step ∧
        step.value = .answer (.settled (.ok 2)) ∧ Session.Reached UInt8 s ledger ∧ (0, ⟨0, 0, 3⟩) ∈ ledger) ∧
    ∃ (s : Session SmallBytes) (step : Step (Session SmallBytes) Report (Reply SmallBytes UInt8)),
      (Command.release "a" "t" 2 : Command SmallBytes UInt8).perform.run s = .ok step ∧
        step.value = .answer (.settled (.error (.staleLease 0 1))) := by
  let b : Buffer SmallBytes := Buffer.start ⟨#[1, 2, 3]⟩ .reader defaultLabel
  let shut : Buffer SmallBytes := { b with access := b.access.close .reading, changes := 1 }
  let opening : Command SmallBytes UInt8 := .opening "a" (.reader ⟨#[1, 2, 3]⟩)
  let acquire : Command SmallBytes UInt8 := .operation "a" .acquire (some "t")
  let close : Command SmallBytes UInt8 := .operation "a" (.close .reading) none
  let one : Session SmallBytes := ⟨⟨[(0, b)]⟩, ⟨[("a", 0)]⟩, .empty, 1⟩
  let held : Session SmallBytes := ⟨⟨[(0, b)]⟩, ⟨[("a", 0)]⟩, ⟨[("t", ⟨0, 0, 3⟩)]⟩, 1⟩
  let closed : Session SmallBytes := ⟨⟨[(0, shut)]⟩, ⟨[("a", 0)]⟩, ⟨[("t", ⟨0, 0, 3⟩)]⟩, 1⟩
  have hopening : opening.perform.run Session.empty =
      .ok ⟨.done, one, [⟨some 0, ⟨defaultLabel, .opened .reading 3⟩⟩]⟩ := rfl
  have hacquire : acquire.perform.run one =
      .ok ⟨.answer (.lease (.granted ⟨⟨#[1, 2, 3]⟩, ⟨0, 0, 3⟩⟩)), held, []⟩ := rfl
  have hclose : close.perform.run held =
      .ok ⟨.answer (.flag true), closed, [⟨some 0, ⟨defaultLabel, .closed .reading false⟩⟩]⟩ := rfl
  have hgrants : acquire.grants one = [(0, ⟨0, 0, 3⟩)] := rfl
  have hempty : (Session.empty : Session SmallBytes).EpochsFit := .of_entries (by decide)
  have hone : one.EpochsFit := .of_entries (by decide)
  have hheld : held.EpochsFit := .of_entries (by decide)
  have hclosed : closed.EpochsFit := .of_entries (by decide)
  have hfits : opening.Fits := (by decide : 3 < positionLimit)
  have hplain : acquire.Fits := trivial
  have hplain' : close.Fits := trivial
  have hopened : Session.Reached UInt8 one [] := .next .start hempty hfits hopening
  have hgranted : Session.Reached UInt8 held ([] ++ acquire.grants one) := .next hopened hone hplain hacquire
  have hshut : Session.Reached UInt8 closed ([] ++ acquire.grants one ++ close.grants held) :=
    .next hgranted hheld hplain' hclose
  constructor
  · have hrelease : ∃ step, (Command.release "a" "t" 2 : Command SmallBytes UInt8).perform.run held = .ok step ∧
        step.value = .answer (.settled (.ok 2)) := ⟨_, rfl, rfl⟩
    obtain ⟨step, hrun, hvalue⟩ := hrelease
    have hslot : held.slots.find? "a" = some 0 := rfl
    have hkept : held.tickets.find? "t" = some ⟨0, 0, 3⟩ := rfl
    obtain ⟨-, hsettled, -⟩ := release_authentic hgranted hheld hslot rfl hkept 2
    obtain ⟨-, hissuer, -⟩ := hsettled step 2 hrun hvalue
    refine ⟨held, _, step, hrun, hvalue, hgranted, hissuer ?_⟩
    intro other u hu _
    rw [hgrants] at hu
    exact congrArg Prod.fst (List.mem_singleton.mp hu)
  · have hslot : closed.slots.find? "a" = some 0 := rfl
    have hkept : closed.tickets.find? "t" = some ⟨0, 0, 3⟩ := rfl
    obtain ⟨-, -, hrefused⟩ := release_authentic hshut hclosed hslot rfl hkept 2
    have hown : ((0, ⟨0, 0, 3⟩) : BufferId × Ticket) ∈ [] ++ acquire.grants one ++ close.grants held :=
      List.mem_append_left _ (hgrants ▸ List.mem_singleton_self _)
    obtain ⟨step, hrun, hvalue, -⟩ := hrefused hown (.inr rfl)
    exact ⟨closed, step, hrun, hvalue⟩

/-- It is not true that only the buffer that granted a ticket settles it, and not that a buffer that is not for reading
    settles none: a ticket of a reader goes through with another reader, and by `moveHead` takes the head of a writer
    back. -/
theorem not_every_release_authentic :
    (¬ ∀ (s : Session SmallBytes) (ledger : Ledger) (slot name : String) (id : BufferId) (t : Ticket) (count position : Nat)
        (step : Step (Session SmallBytes) Report (Reply SmallBytes UInt8)),
      Session.Reached UInt8 s ledger → s.slots.find? slot = some id → s.tickets.find? name = some t →
        (Command.release slot name count : Command SmallBytes UInt8).perform.run s = .ok step →
        step.value = .answer (.settled (.ok position)) → (id, t) ∈ ledger) ∧
    ¬ ∀ (s : Session SmallBytes) (ledger : Ledger) (slot name : String) (id : BufferId) (b after : Buffer SmallBytes)
        (count : Nat) (step : Step (Session SmallBytes) Report (Reply SmallBytes UInt8)),
      Session.Reached UInt8 s ledger → s.slots.find? slot = some id → s.buffers.find? id = some b →
        b.mode.reads = false → (Command.release slot name count : Command SmallBytes UInt8).perform.run s = .ok step →
        step.state.buffers.find? id = some after → after.head = b.head := by
  let reader : Buffer SmallBytes := Buffer.start ⟨#[1, 2, 3]⟩ .reader defaultLabel
  let other : Buffer SmallBytes := Buffer.start ⟨#[4, 5, 6]⟩ .reader defaultLabel
  let writer : Buffer SmallBytes := Buffer.start ⟨#[7, 8, 9]⟩ .writer defaultLabel
  let openReader : Command SmallBytes UInt8 := .opening "reader" (.reader ⟨#[1, 2, 3]⟩)
  let openOther : Command SmallBytes UInt8 := .opening "other" (.reader ⟨#[4, 5, 6]⟩)
  let openWriter : Command SmallBytes UInt8 := .opening "writer" (.configured { data := some ⟨#[7, 8, 9]⟩ })
  let acquire : Command SmallBytes UInt8 := .operation "reader" .acquire (some "t")
  let one : Session SmallBytes := ⟨⟨[(0, reader)]⟩, ⟨[("reader", 0)]⟩, .empty, 1⟩
  let two : Session SmallBytes := ⟨⟨[(1, other), (0, reader)]⟩, ⟨[("other", 1), ("reader", 0)]⟩, .empty, 2⟩
  let three : Session SmallBytes :=
    ⟨⟨[(2, writer), (1, other), (0, reader)]⟩, ⟨[("writer", 2), ("other", 1), ("reader", 0)]⟩, .empty, 3⟩
  let held : Session SmallBytes :=
    ⟨⟨[(0, reader), (2, writer), (1, other)]⟩, ⟨[("writer", 2), ("other", 1), ("reader", 0)]⟩,
      ⟨[("t", ⟨0, 0, 3⟩)]⟩, 3⟩
  have hreader : openReader.perform.run Session.empty =
      .ok ⟨.done, one, [⟨some 0, ⟨defaultLabel, .opened .reading 3⟩⟩]⟩ := rfl
  have hother : openOther.perform.run one = .ok ⟨.done, two, [⟨some 1, ⟨defaultLabel, .opened .reading 3⟩⟩]⟩ := rfl
  have hwriter : openWriter.perform.run two = .ok ⟨.done, three, [⟨some 2, ⟨defaultLabel, .opened .writing 3⟩⟩]⟩ := rfl
  have hacquire : acquire.perform.run three =
      .ok ⟨.answer (.lease (.granted ⟨⟨#[1, 2, 3]⟩, ⟨0, 0, 3⟩⟩)), held, []⟩ := rfl
  have hgrants : acquire.grants three = [(0, ⟨0, 0, 3⟩)] := rfl
  have hempty : (Session.empty : Session SmallBytes).EpochsFit := .of_entries (by decide)
  have hone : one.EpochsFit := .of_entries (by decide)
  have htwo : two.EpochsFit := .of_entries (by decide)
  have hthree : three.EpochsFit := .of_entries (by decide)
  have hfits : openReader.Fits := (by decide : 3 < positionLimit)
  have hfits' : openOther.Fits := (by decide : 3 < positionLimit)
  have hfits'' : openWriter.Fits := (by decide : 3 < positionLimit)
  have hplain : acquire.Fits := trivial
  have hfirst : Session.Reached UInt8 one [] := .next .start hempty hfits hreader
  have hsecond : Session.Reached UInt8 two [] := .next hfirst hone hfits' hother
  have hthird : Session.Reached UInt8 three [] := .next hsecond htwo hfits'' hwriter
  have hreached : Session.Reached UInt8 held (acquire.grants three) := .next hthird hthree hplain hacquire
  constructor
  · intro hall
    have hmem := hall held _ "other" "t" 1 ⟨0, 0, 3⟩ 1 1 _ hreached rfl rfl rfl rfl
    rw [hgrants] at hmem
    exact absurd hmem (by decide)
  · intro hall
    have hhead : 1 = 3 := hall held _ "writer" "t" 2 writer _ 1 _ hreached rfl rfl rfl rfl rfl
    exact absurd hhead (by decide)

end MemStream
